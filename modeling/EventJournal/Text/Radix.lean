/-!
# Integers in a base

The number that digits in a base up to sixteen stand for, with or without a sign, and the character of a
hexadecimal escape.
-/

namespace EventJournal.Text

/-- The value of a digit in a base. -/
def digitIn? (base : Nat) (c : Char) : Option Nat :=
  let lower := c.toLower
  let value :=
    if c.isDigit then some (c.toNat - '0'.toNat)
    else if 'a' ≤ lower ∧ lower ≤ 'f' then some (lower.toNat - 'a'.toNat + 10)
    else none
  value.filter (· < base)

/-- The number that digits in a base stand for; there has to be one. -/
def natIn? (base : Nat) (digits : List Char) : Option Nat :=
  if digits.isEmpty then none
  else digits.foldlM (fun n c => (digitIn? base c).map (n * base + ·)) 0

/-- Takes a sign off the front; says whether it is negative. -/
def takeSign : List Char → Bool × List Char
  | '-' :: rest => (true, rest)
  | '+' :: rest => (false, rest)
  | text => (false, text)

/-- Whether an integer is a signed word of 64 bits. -/
def isWord (n : Int) : Bool := Int64.minValue.toInt ≤ n && n ≤ Int64.maxValue.toInt

/-- An integer of 64 bits in a base, with or without a sign. -/
def intIn? (base : Nat) (text : List Char) : Option Int :=
  let (negative, digits) := takeSign text
  (natIn? base digits).bind fun size =>
    let value : Int := if negative then -(size : Int) else size
    if isWord value then some value else none

/-- The character of a hexadecimal escape of a given width, and what follows. -/
def readHexadecimal? (width : Nat) (text : List Char) : Option (Char × List Char) :=
  if text.length < width then none
  else
    (natIn? 16 (text.take width)).bind fun code =>
      if code.isValidChar then some (Char.ofNat code, text.drop width) else none

end EventJournal.Text
