/-!
# Punycode

A label of a host name with letters beyond ASCII is also written in ASCII: `xn--`, the letters of ASCII
that are in it, a hyphen if there are any, and then where to insert which other letters. Each insertion is
one number in a mixed radix, the distance from the place and letter of the one before, and the radix
follows a bias that adapts to what was read.

Main statement: `shrink_le`, what is left of a distance is small.
-/

namespace EventJournal.Punycode

/-- The value of a digit: letters come before figures. -/
def digit? (c : Char) : Option Nat :=
  if 'a' ≤ c ∧ c ≤ 'z' then some (c.toNat - 'a'.toNat)
  else if '0' ≤ c ∧ c ≤ '9' then some (c.toNat - '0'.toNat + 26)
  else none

/-- Divides a distance by 35 until it is small; gives how often, and what is left. -/
def shrink (delta : Nat) : Nat × Nat :=
  if 455 < delta then ((shrink (delta / 35)).1 + 1, (shrink (delta / 35)).2) else (0, delta)
termination_by delta
decreasing_by all_goals exact Nat.div_lt_self (by omega) (by omega)

theorem shrink_le (delta : Nat) : (shrink delta).2 ≤ 455 := by
  induction delta using Nat.strongRecOn with
  | ind delta ih =>
    rw [shrink]
    split
    · exact ih _ (Nat.div_lt_self (by omega) (by omega))
    · rename_i small
      exact Nat.not_lt.mp small

/-- The bias after a distance, given how many letters there are then. -/
def adapt (delta count : Nat) (isFirst : Bool) : Nat :=
  let delta := if isFirst then delta / 700 else delta / 2
  let (steps, rest) := shrink (delta + delta / count)
  36 * steps + 36 * rest / (rest + 38)

/-- Where a decoding stands. -/
structure State where
  letters : List Char
  /-- The letter inserted last, and the place after it. -/
  code : Nat
  place : Nat
  bias : Nat
  /-- The number that is being read, and the weight and the position of its next digit. -/
  number : Nat
  weight : Nat
  position : Nat
  deriving Repr, DecidableEq

namespace State

/-- A decoding that starts with letters of ASCII. -/
def start (letters : List Char) : State := ⟨letters, 128, 0, 72, 0, 1, 36⟩

/-- The least digit that does not end the number. -/
def threshold (state : State) : Nat :=
  if state.position ≤ state.bias then 1
  else if state.bias + 26 ≤ state.position then 26
  else state.position - state.bias

/-- Inserts the letter that the number leads to. -/
def insert? (state : State) : Option State :=
  let count := state.letters.length + 1
  let total := state.place + state.number
  let code := state.code + total / count
  let place := total % count
  if code.isValidChar then
    some { letters := state.letters.insertIdx place (Char.ofNat code), code, place := place + 1,
           bias := adapt state.number count (state.place = 0), number := 0, weight := 1,
           position := 36 }
  else none

/-- Reads a digit. -/
def step? (state : State) (c : Char) : Option State := do
  let value ← digit? c
  let number := state.number + value * state.weight
  let threshold := state.threshold
  if value < threshold then insert? { state with number }
  else
    pure { state with number, weight := state.weight * (36 - threshold), position := state.position + 36 }

end State

/-- The letters that a label stands for, given what follows its mark. -/
def decode? (text : List Char) : Option (List Char) := do
  let digits := (text.reverse.takeWhile (· ≠ '-')).reverse
  let ascii := text.take (text.length - digits.length - 1)
  let digits := if ascii.isEmpty then text else digits
  let state ← digits.foldlM State.step? (.start ascii)
  if state.weight = 1 ∧ state.position = 36 then pure state.letters else none

end EventJournal.Punycode
