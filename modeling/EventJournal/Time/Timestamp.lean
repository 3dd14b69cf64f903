import EventJournal.Text.Blank
import EventJournal.Time.Calendar

/-!
# Timestamps

A moment in universal time, to the nanosecond. Its text is RFC 3339: as few of 0, 3, 6 or 9 places of
a second as hold it, then `Z` or a numeric offset. A second of 60 is a leap second; it is kept as the
second before with a billion nanoseconds more.

The reader is lenient: blanks may stand before a number and around the offset, a year may carry a
sign, a blank may stand for the `T`, and `UTC` for the `Z`.
-/

namespace EventJournal

open Text (isBlank)

/-- A moment in universal time. -/
structure Timestamp where
  /-- Seconds since 1970-01-01T00:00:00Z. -/
  seconds : Int
  /-- Nanoseconds within the second; a billion or more in a leap second. -/
  nanos : Nat
  deriving Repr, DecidableEq, Inhabited

namespace Timestamp

/-- The start of the year 2024. -/
def start2024 : Timestamp := ⟨1704067200, 0⟩

/-- This moment and `seconds` later. -/
def addSeconds (time : Timestamp) (seconds : Int) : Timestamp :=
  { time with seconds := time.seconds + seconds }

/-! ## Writing -/

/-- A number with at least `width` digits. -/
def padded (width n : Nat) : String :=
  let digits := toString n
  String.ofList (List.replicate (width - digits.length) '0') ++ digits

/-- A year: four digits, with a sign outside 0 to 9999. -/
def yearText (year : Int) : String :=
  if 0 ≤ year ∧ year ≤ 9999 then padded 4 year.toNat
  else (if year < 0 then "-" else "+") ++ padded 4 year.natAbs

/-- The places of a second, as few as hold them. -/
def fractionText (nanos : Nat) : String :=
  if nanos = 0 then ""
  else if nanos % 1000000 = 0 then "." ++ padded 3 (nanos / 1000000)
  else if nanos % 1000 = 0 then "." ++ padded 6 (nanos / 1000)
  else "." ++ padded 9 nanos

/-- Date and time of day, without an offset. -/
def civilText (time : Timestamp) : String :=
  let days := Int.fdiv time.seconds 86400
  let second := (time.seconds - days * 86400).toNat
  let date := Date.ofDays days
  let (leap, nanos) := if 1000000000 ≤ time.nanos then (1, time.nanos - 1000000000) else (0, time.nanos)
  yearText date.year ++ "-" ++ padded 2 date.month ++ "-" ++ padded 2 date.day ++ "T" ++
    padded 2 (second / 3600) ++ ":" ++ padded 2 (second / 60 % 60) ++ ":" ++
    padded 2 (second % 60 + leap) ++ fractionText nanos

/-- RFC 3339 text with `Z`. -/
def text (time : Timestamp) : String := time.civilText ++ "Z"

/-- RFC 3339 text with a numeric offset. -/
def offsetText (time : Timestamp) : String := time.civilText ++ "+00:00"

/-! ## Reading -/

/-- Why a text is no timestamp. -/
inductive ParseError where
  | tooShort
  | tooLong
  | invalid
  | outOfRange
  deriving Repr, DecidableEq

/-- The wording of a failure. -/
def ParseError.message : ParseError → String
  | .tooShort => "premature end of input"
  | .tooLong => "trailing input"
  | .invalid => "input contains invalid characters"
  | .outOfRange => "input is out of range"

/-- A reader takes a value off the front of a text. -/
abbrev Reader (α : Type) := List Char → Except ParseError (α × List Char)

/-- The number written by digits. -/
def numberOf (digits : List Char) : Nat :=
  digits.foldl (fun n c => 10 * n + (c.toNat - '0'.toNat)) 0

/-- A number of one digit at least and `width` at most. -/
def readNumber (width : Nat) : Reader Nat := fun text =>
  match text with
  | [] => .error .tooShort
  | c :: _ =>
    if !c.isDigit then .error .invalid
    else
      let digits := (text.take width).takeWhile Char.isDigit
      if Int64.maxValue.toInt < numberOf digits then .error .outOfRange
      else .ok (numberOf digits, text.drop digits.length)

/-- A number after blanks, within bounds. -/
def readPart (width low high : Nat) : Reader Nat := fun text => do
  let (n, rest) ← readNumber width (text.dropWhile isBlank)
  if low ≤ n ∧ n ≤ high then .ok (n, rest) else .error .outOfRange

/-- A year: four digits, or any number of them after a sign. -/
def readYear : Reader Int := fun text => do
  let text := text.dropWhile isBlank
  let (year, rest) ← match text with
    | '-' :: rest => do
      let (n, rest) ← readNumber rest.length rest
      pure (-(n : Int), rest)
    | '+' :: rest => do
      let (n, rest) ← readNumber rest.length rest
      pure ((n : Int), rest)
    | _ => do
      let (n, rest) ← readNumber 4 text
      pure ((n : Int), rest)
  if -2147483648 ≤ year ∧ year ≤ 2147483647 then .ok (year, rest) else .error .outOfRange

/-- One character after blanks. -/
def readMark (mark : Char) : List Char → Except ParseError (List Char) := fun text =>
  match text.dropWhile isBlank with
  | [] => .error .tooShort
  | c :: rest => if c = mark then .ok rest else .error .invalid

/-- The places of a second, if there are any; those beyond the ninth do not count. -/
def readFraction : Reader Nat := fun text =>
  match text with
  | '.' :: rest => do
    let (n, after) ← readNumber 9 rest
    let width := rest.length - after.length
    .ok (n * Nat.pow 10 (9 - width), after.dropWhile Char.isDigit)
  | _ => .ok (0, text)

/-- Two digits of an offset. -/
def readPair : List Char → Except ParseError (Char × Char)
  | a :: b :: _ => .ok (a, b)
  | _ => .error .tooShort

/-- A numeric offset after its sign, in seconds. -/
def readOffset (negative : Bool) : Reader Int := fun text => do
  let (h, l) ← readPair text
  if !(h.isDigit && l.isDigit) then .error .invalid
  else
    let hours := numberOf [h, l]
    let rest := (text.drop 2).dropWhile fun c => c = ':' || isBlank c
    let (m, n) ← readPair rest
    if !(m.isDigit && n.isDigit) then .error .invalid
    else if '6' ≤ m then .error .outOfRange
    else
      let seconds : Int := hours * 3600 + numberOf [m, n] * 60
      .ok (if negative then -seconds else seconds, rest.drop 2)

/-- A zone: `Z`, `UTC` or a numeric offset. -/
def readZone : Reader Int := fun text =>
  match text.dropWhile isBlank with
  | [] => .error .tooShort
  | c :: rest =>
    if (c = 'u' || c = 'U') && (rest.take 2).map Char.toUpper = ['T', 'C'] then .ok (0, rest.drop 2)
    else if c = 'Z' || c = 'z' then .ok (0, rest)
    else if c = '+' then readOffset false rest
    else if c = '-' || c = '\u2212' then readOffset true rest
    else .error .invalid

/-- Reads an RFC 3339 text. -/
def parse (text : String) : Except ParseError Timestamp := do
  let (year, rest) ← readYear text.toList
  let rest ← readMark '-' rest
  let (month, rest) ← readPart 2 1 12 rest
  let rest ← readMark '-' rest
  let (day, rest) ← readPart 2 1 31 rest
  let rest ← match rest with
    | [] => .error .tooShort
    | c :: rest => if c = 'T' || c = 't' || c = ' ' then .ok rest else .error .invalid
  let (hour, rest) ← readPart 2 0 23 rest
  let rest ← readMark ':' rest
  let (minute, rest) ← readPart 2 0 59 rest
  let rest ← readMark ':' rest
  let (second, rest) ← readPart 2 0 60 rest
  let (nanos, rest) ← readFraction rest
  let (offset, rest) ← readZone rest
  if rest.dropWhile isBlank ≠ [] then .error .tooLong
  else
    let date : Date := ⟨year, month, day⟩
    if !date.isValid || 86400 ≤ offset.natAbs || year < -262143 || 262142 < year then
      .error .outOfRange
    else
      let leap := second = 60
      let whole := if leap then 59 else second
      .ok ⟨date.toDays * 86400 + hour * 3600 + minute * 60 + whole - offset,
        if leap then nanos + 1000000000 else nanos⟩

end Timestamp

end EventJournal
