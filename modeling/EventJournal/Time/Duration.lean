import EventJournal.Text.Blank

/-!
# Durations

A length of time, written as a sum of terms such as `1h 30m` or `750ms`: a number, which may have a
fraction, and a unit. Blanks may stand anywhere but inside a unit; `0` needs no unit. Every quantity on
the way has to fit into 64 bits.

* `Duration.parse?` reads a text.
* `Duration.add?` adds two lengths; `total_of_add?` says that nothing is lost.
-/

namespace EventJournal

open Text (isBlank)

/-- A length of time: whole seconds and what is left of a second. -/
structure Duration where
  seconds : Nat
  nanos : Nat
  deriving Repr, DecidableEq, Inhabited

namespace Duration

/-- No time. -/
def zero : Duration := ⟨0, 0⟩

/-- A whole number of seconds. -/
def ofSeconds (seconds : Nat) : Duration := ⟨seconds, 0⟩

/-- A whole number of thousandths of a second. -/
def ofMillis (millis : Nat) : Duration := ⟨millis / 1000, millis % 1000 * 1000000⟩

/-- The length in nanoseconds. -/
def total (duration : Duration) : Nat := duration.seconds * 1000000000 + duration.nanos

/-! ## Sums -/

/-- A quantity, unless it needs more than 64 bits. -/
def fit? (n : Nat) : Option Nat := if n < UInt64.size then some n else none

/-- Adds seconds and nanoseconds. -/
def add? (duration : Duration) (seconds nanos : Nat) : Option Duration := do
  let nanos ← fit? (duration.nanos + nanos)
  let seconds ← fit? (seconds + nanos / 1000000000)
  let seconds ← fit? (duration.seconds + seconds)
  pure ⟨seconds, nanos % 1000000000⟩

theorem fit?_eq_some {n m : Nat} (h : fit? n = some m) : m = n := by
  unfold fit? at h
  split at h
  · exact (Option.some.inj h).symm
  · cases h

theorem total_of_add? {duration sum : Duration} {seconds nanos : Nat}
    (h : duration.add? seconds nanos = some sum) :
    sum.total = duration.total + seconds * 1000000000 + nanos := by
  simp only [add?, Option.bind_eq_bind, Option.bind_eq_some_iff, Option.pure_def] at h
  obtain ⟨n, hn, s, hs, t, ht, h⟩ := h
  cases h
  have := fit?_eq_some hn
  have := fit?_eq_some hs
  have := fit?_eq_some ht
  simp only [total]
  omega

/-! ## Units -/

/-- A unit of time: a number of nanoseconds or of seconds. -/
inductive Unit where
  | nanos (count : Nat)
  | seconds (count : Nat)
  deriving Repr, DecidableEq

/-- The unit of a name. Months and years are mean ones. -/
def unit? : String → Option Unit
  | "nanos" | "nsec" | "ns" => some (.nanos 1)
  | "usec" | "us" | "µs" => some (.nanos 1000)
  | "millis" | "msec" | "ms" => some (.nanos 1000000)
  | "seconds" | "second" | "secs" | "sec" | "s" => some (.seconds 1)
  | "minutes" | "minute" | "min" | "mins" | "m" => some (.seconds 60)
  | "hours" | "hour" | "hr" | "hrs" | "h" => some (.seconds 3600)
  | "days" | "day" | "d" => some (.seconds 86400)
  | "weeks" | "week" | "wk" | "wks" | "w" => some (.seconds 604800)
  | "months" | "month" | "M" => some (.seconds 2630016)
  | "years" | "year" | "yr" | "yrs" | "y" => some (.seconds 31557600)
  | _ => none

/-- A number with a fraction of so many digits. -/
structure Amount where
  whole : Nat
  /-- The digits after the point as a number, and ten to the power of how many they are. -/
  fraction : Option (Nat × Nat)
  deriving Repr, DecidableEq

/-- Adds an amount of a unit. A fraction of an hour and more counts in whole seconds, and there is no
fraction of a nanosecond. -/
def addAmount? (duration : Duration) (amount : Amount) (unit : Unit) : Option Duration := do
  let sum ← match unit with
    | .nanos count => do duration.add? 0 (← fit? (amount.whole * count))
    | .seconds count => do duration.add? (← fit? (amount.whole * count)) 0
  match amount.fraction, unit with
  | none, _ => pure sum
  | some _, .nanos 1 => none
  | some (part, of), .nanos count => sum.add? 0 ((← fit? (part * count)) / of)
  | some (part, of), .seconds count =>
    if count ≤ 60 then sum.add? 0 ((← fit? (part * (count * 1000000000))) / of)
    else sum.add? ((← fit? (part * count)) / of) 0

/-! ## Reading -/

/-- Whether a character may stand in the name of a unit. -/
def isUnitLetter (c : Char) : Bool :=
  ('a' ≤ c && c ≤ 'z') || ('A' ≤ c && c ≤ 'Z') || c = 'µ'

/-- The number that digits stand for, blanks aside. -/
def number? (text : List Char) : Option Nat :=
  (text.filter Char.isDigit).foldlM (fun n c => fit? (10 * n + (c.toNat - '0'.toNat))) 0

/-- The fraction that digits after a point stand for; there has to be one. -/
def fraction? (text : List Char) : Option (Nat × Nat) := do
  let digits := text.filter Char.isDigit
  if digits.isEmpty then none
  else pure (← number? digits, ← fit? (Nat.pow 10 digits.length))

/-- Digits and blanks. -/
def isNumeral (c : Char) : Bool := c.isDigit || isBlank c

/-- Reads terms, each at a digit, and adds them up. -/
def readTerms : Nat → Duration → List Char → Option Duration
  | 0, _, _ => none
  | fuel + 1, sum, text => do
    if !(text.head?.any Char.isDigit) then none
    let whole ← number? (text.takeWhile isNumeral)
    let (fraction, rest) ← match text.dropWhile isNumeral with
      | '.' :: rest => do
        pure (some (← fraction? (rest.takeWhile isNumeral)), rest.dropWhile isNumeral)
      | rest => some (none, rest)
    let unit ← unit? (String.ofList (rest.takeWhile isUnitLetter))
    let sum ← sum.addAmount? ⟨whole, fraction⟩ unit
    let rest := (rest.dropWhile isUnitLetter).dropWhile isBlank
    if rest.isEmpty then pure sum else readTerms fuel sum rest

/-- Reads a length of time. -/
def parse? (text : String) : Option Duration :=
  if text = "0" then some zero
  else
    let text := text.toList.dropWhile isBlank
    readTerms (text.length + 1) zero text

end Duration

end EventJournal
