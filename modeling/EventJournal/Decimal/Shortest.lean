/-!
# Shortest decimal text of a double

A finite double is `m * 2 ^ q`. Its shortest decimal is the one with the fewest digits that still
lies in the interval of reals rounding to the double, and among those the nearest to it. All of it
is exact arithmetic on natural numbers.

* `Decimal.shortest` finds the digits and their power of ten.
* `Decimal.text` writes a double in the style of JSON numbers: positional up to sixteen digits
  before the point and five zeros after it, with an exponent otherwise.
* `Decimal.plain` writes an integer as the double nearest to it, always positional.
-/

namespace EventJournal.Decimal

/-- A positive double `mantissa * 2 ^ exponent`. -/
structure Binary where
  mantissa : Nat
  exponent : Int
  deriving Repr, DecidableEq

/-- The value of a mantissa's leading bit. -/
def Binary.leadingBit : Nat := 0x10000000000000

/-- Splits the bits of a finite double other than zero, without its sign. -/
def Binary.ofBits (bits : UInt64) : Binary :=
  let field := ((bits >>> 52) &&& 0x7ff).toNat
  let fraction := (bits &&& 0xfffffffffffff).toNat
  if field = 0 then ⟨fraction, -1074⟩ else ⟨fraction + leadingBit, (field : Int) - 1075⟩

/-- `n * 2 ^ e` as a fraction. -/
def scaled (n : Nat) (e : Int) : Nat × Nat :=
  if 0 ≤ e then (n * Nat.pow 2 e.toNat, 1) else (n, Nat.pow 2 (-e).toNat)

/-- Compares two fractions. -/
def fracLe (a b : Nat × Nat) : Bool := a.1 * b.2 ≤ b.1 * a.2

/-- `d * 10 ^ p` as a fraction. -/
def decimalFrac (d : Nat) (p : Int) : Nat × Nat :=
  if 0 ≤ p then (d * Nat.pow 10 p.toNat, 1) else (d, Nat.pow 10 (-p).toNat)

/-- Whether the decimal `d * 10 ^ p` reads back as the double: it lies between the midpoints to the
neighbouring doubles, which count when the mantissa is even. -/
def Binary.admits (x : Binary) (d : Nat) (p : Int) : Bool :=
  let lower :=
    if x.mantissa = leadingBit ∧ -1074 < x.exponent then scaled (4 * x.mantissa - 1) (x.exponent - 2)
    else scaled (2 * x.mantissa - 1) (x.exponent - 1)
  let upper := scaled (2 * x.mantissa + 1) (x.exponent - 1)
  let value := decimalFrac d p
  if x.mantissa % 2 = 0 then fracLe lower value && fracLe value upper
  else !fracLe value lower && !fracLe upper value

/-- The power of ten of the leading digit. -/
def Binary.leading (x : Binary) : Int :=
  let value := scaled x.mantissa x.exponent
  let guess := ((Nat.toDigits 10 value.1).length : Int) - ((Nat.toDigits 10 value.2).length : Int)
  if fracLe (decimalFrac 1 guess) value then guess else guess - 1

/-- The nearer of the two decimals around the double on the grid of `p`, if it reads back. -/
def Binary.onGrid (x : Binary) (p : Int) : Option Nat :=
  let value := scaled x.mantissa x.exponent
  let unit := decimalFrac 1 p
  let below := (value.1 * unit.2) / (value.2 * unit.1)
  let rest := (value.1 * unit.2) % (value.2 * unit.1)
  let whole := value.2 * unit.1
  let nearer := if 2 * rest < whole ∨ (2 * rest = whole ∧ below % 2 = 0) then below else below + 1
  let other := if nearer = below then below + 1 else below
  if 0 < nearer ∧ x.admits nearer p then some nearer
  else if 0 < other ∧ x.admits other p then some other
  else none

/-- Drops trailing zeros. -/
def strip : Nat → Nat → Int → Nat × Int
  | 0, d, p => (d, p)
  | fuel + 1, d, p => if d ≠ 0 ∧ d % 10 = 0 then strip fuel (d / 10) (p + 1) else (d, p)

/-- The shortest decimal `d * 10 ^ p` of a double: the first grid, from one digit to seventeen, that
has a decimal reading back. -/
def Binary.shortest (x : Binary) : Nat × Int :=
  let lead := x.leading
  let hit := (List.range 17).findSome? fun (n : Nat) =>
    let p := lead - (n : Int)
    (x.onGrid p).map fun d => (d, p)
  match hit with
  | some (d, p) => strip 20 d p
  | none => (0, 0)

/-- `n` zeros. -/
def zeros (n : Nat) : String := String.ofList (List.replicate n '0')

/-- Writes digits and their power of ten in the style of JSON numbers. -/
def layout (digits : String) (p : Int) : String :=
  let count : Int := digits.length
  let point := count + p
  if 0 ≤ p ∧ point ≤ 16 then digits ++ zeros p.toNat ++ ".0"
  else if 0 < point ∧ point ≤ 16 then
    (digits.take point.toNat).toString ++ "." ++ (digits.drop point.toNat).toString
  else if -5 < point ∧ point ≤ 0 then "0." ++ zeros (-point).toNat ++ digits
  else if count = 1 then digits ++ "e" ++ toString (point - 1)
  else (digits.take 1).toString ++ "." ++ (digits.drop 1).toString ++ "e" ++ toString (point - 1)

/-- The shortest text of a double; `none` if it is not finite. -/
def text (value : Float) : Option String :=
  let bits := value.toBits
  let sign := if bits >>> 63 = 1 then "-" else ""
  if (bits >>> 52) &&& 0x7ff = 0x7ff then none
  else if bits &&& 0x7fffffffffffffff = 0 then some (sign ++ "0.0")
  else
    let (d, p) := (Binary.ofBits (bits &&& 0x7fffffffffffffff)).shortest
    some (sign ++ layout (toString d) p)

/-- The shortest text of the double nearest to `mantissa * 10 ^ exponent`; `none` beyond the largest
double. -/
def textOfDecimal (negative : Bool) (mantissa : Nat) (exponent : Int) : Option String :=
  let value := Float.ofScientific mantissa (exponent < 0) exponent.natAbs
  text (if negative then -value else value)

/-- An integer as the double nearest to it, in positional text. -/
def plain (n : Int) : String :=
  if n.natAbs ≤ 2 * Binary.leadingBit then toString n
  else
    let (d, p) := (Binary.ofBits (Float.ofNat n.natAbs).toBits).shortest
    (if n < 0 then "-" else "") ++ toString d ++ zeros p.toNat

end EventJournal.Decimal
