import EventJournal.Decimal.Shortest
import EventJournal.Text.Radix

/-!
# Decimal numbers with an exponent

A number `± digits * 10 ^ exponent`, as it is read from a text such as `-1.5e3`. It can be written in
positional text, rounded to an integer, or taken as the double nearest to it.

Main statement: `round_nearest`, rounding is off by a half at most.
-/

namespace EventJournal.Decimal

/-- A decimal number with an exponent. -/
structure Scientific where
  negative : Bool
  digits : Nat
  exponent : Int
  deriving Repr, DecidableEq

namespace Scientific

/-- The value of decimal digits. -/
def digitsValue (text : List Char) : Nat :=
  text.foldl (fun n c => 10 * n + (c.toNat - '0'.toNat)) 0

/-- Reads what may follow the digits: nothing, or `e` and a number. -/
def readExponent? : List Char → Option Int
  | [] => some 0
  | c :: rest =>
    if c = 'e' ∨ c = 'E' then
      let (negative, digits) := Text.takeSign rest
      if digits.isEmpty ∨ !digits.all Char.isDigit then none
      else
        let value : Int := digitsValue digits
        some (if negative then -value else value)
    else none

/-- Reads a number; a digit has to stand before or after the point. -/
def read? (text : List Char) : Option Scientific :=
  let (negative, rest) := Text.takeSign text
  let whole := rest.takeWhile Char.isDigit
  let rest := rest.dropWhile Char.isDigit
  let (part, rest) := match rest with
    | '.' :: rest => (rest.takeWhile Char.isDigit, rest.dropWhile Char.isDigit)
    | rest => ([], rest)
  if whole.isEmpty ∧ part.isEmpty then none
  else (readExponent? rest).map fun exponent =>
    ⟨negative, digitsValue (whole ++ part), exponent - part.length⟩

/-- The shortest text of the double nearest to a number; `none` beyond the largest double. -/
def doubleText? (number : Scientific) : Option String :=
  if 400 < number.exponent ∧ number.digits ≠ 0 then none
  else if number.exponent < -5000 then some (if number.negative then "-0.0" else "0.0")
  else textOfDecimal number.negative number.digits number.exponent

/-- Positional text, with a point only if there is something after it. -/
def positional (number : Scientific) : String :=
  let sign := if number.negative then "-" else ""
  let digits := toString number.digits
  if number.digits = 0 then sign ++ "0"
  else if 0 ≤ number.exponent then sign ++ digits ++ zeros number.exponent.toNat
  else
    let places := (-number.exponent).toNat
    let filled := zeros (places + 1 - digits.length) ++ digits
    let whole := (filled.take (filled.length - places)).toString
    let part := ((filled.drop (filled.length - places)).toString.dropEndWhile '0').toString
    sign ++ whole ++ (if part.isEmpty then "" else "." ++ part)

/-- The nearest integer, a half away from zero. -/
def round (number : Scientific) : Int :=
  let size : Nat :=
    if 0 ≤ number.exponent then number.digits * Nat.pow 10 number.exponent.toNat
    else
      let unit := Nat.pow 10 (-number.exponent).toNat
      (2 * number.digits + unit) / (2 * unit)
  if number.negative then -(size : Int) else size

/-- A number with places is rounded by a half at most. -/
theorem round_nearest (negative : Bool) (digits places : Nat) :
    (2 * (Nat.pow 10 places * round ⟨negative, digits, -places⟩
      - if negative then -(digits : Int) else digits)).natAbs ≤ Nat.pow 10 places := by
  unfold round
  cases places with
  | zero => cases negative <;> simp
  | succ places =>
    have hexponent : ¬(0 : Int) ≤ -((places + 1 : Nat) : Int) := by omega
    have hplaces : (-(-((places + 1 : Nat) : Int))).toNat = places + 1 := by omega
    have hpos : 0 < Nat.pow 10 (places + 1) := Nat.pow_pos (by decide)
    simp only [hexponent, if_false, hplaces]
    generalize Nat.pow 10 (places + 1) = unit at *
    -- twice the digits lie within a unit of twice the quotient's share
    have hdivide := Nat.div_add_mod (2 * digits + unit) (2 * unit)
    have hrest := Nat.mod_lt (2 * digits + unit) (show 0 < 2 * unit by omega)
    rw [Nat.mul_assoc] at hdivide
    generalize (2 * digits + unit) / (2 * unit) = size at *
    have hshare : (unit : Int) * size = ((unit * size : Nat) : Int) := (Int.natCast_mul ..).symm
    have hminus : (unit : Int) * -size = -((unit * size : Nat) : Int) := by rw [Int.mul_neg, hshare]
    cases negative with
    | false =>
      simp only [Bool.false_eq_true, if_false, hshare]
      omega
    | true =>
      simp only [if_true, hminus]
      omega

end Scientific

end EventJournal.Decimal
