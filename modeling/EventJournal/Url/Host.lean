import EventJournal.Url.Percent
import EventJournal.Url.Punycode

/-!
# Hosts

A host is a name or an address. On the web a name whose last part is a number has to be an IPv4 address,
of one to four parts, each decimal, octal (`0`) or hexadecimal (`0x`), the last filling what is left.
Anything in brackets has to be an IPv6 address. A label of a name on the web that starts with `xn--` has to
stand for letters beyond ASCII.
-/

namespace EventJournal

/-- Why a text is no address. -/
inductive UrlError where
  | relative
  | emptyHost
  | invalidName
  | invalidCharacter
  | invalidPort
  | invalidIpv4
  | invalidIpv6
  deriving Repr, DecidableEq, Inhabited

/-- The wording of an address error. -/
def UrlError.message : UrlError → String
  | relative => "relative URL without a base"
  | emptyHost => "empty host"
  | invalidName => "invalid international domain name"
  | invalidCharacter => "invalid domain character"
  | invalidPort => "invalid port number"
  | invalidIpv4 => "invalid IPv4 address"
  | invalidIpv6 => "invalid IPv6 address"

/-- A host. -/
inductive Host where
  | name (text : String)
  | ipv4 (address : Nat)
  | ipv6 (pieces : List Nat)
  deriving Repr, DecidableEq, Inhabited

namespace Host

/-- The value of a digit in a base up to sixteen. -/
def digitIn? (base : Nat) (c : Char) : Option Nat :=
  match Percent.digitValue? c with
  | some value => if value < base then some value else none
  | none => none

/-- The number that digits in a base stand for. -/
def number? (base : Nat) (digits : List Char) : Option Nat :=
  digits.foldlM (fun value c => (digitIn? base c).map (value * base + ·)) 0

/-- Splits at each separator. -/
def splitAt (separator : Char → Bool) : List Char → List (List Char)
  | [] => [[]]
  | c :: rest =>
    if separator c then [] :: splitAt separator rest
    else match splitAt separator rest with
      | part :: parts => (c :: part) :: parts
      | [] => [[c]]

/-! ## IPv4 -/

/-- A part of an IPv4 address. -/
def ipv4Part? : List Char → Option Nat
  | [] => none
  | '0' :: 'x' :: digits | '0' :: 'X' :: digits => number? 16 digits
  | '0' :: digits => number? 8 digits
  | digits => number? 10 digits

/-- The parts of a dotted text; a final dot counts for nothing. -/
def dottedParts (text : List Char) : List (List Char) :=
  let parts := splitAt (· = '.') text
  if 1 < parts.length ∧ parts.getLast? = some [] then parts.dropLast else parts

/-- Whether the last part of a name is a number. -/
def endsInNumber (text : List Char) : Bool :=
  match (dottedParts text).getLast? with
  | none => false
  | some part => (!part.isEmpty && part.all Char.isDigit) || (ipv4Part? part).isSome

/-- The address of parts: all but the last are bytes, and the last fills what is left. -/
def ipv4OfParts? : Nat → List Nat → Option Nat
  | _, [] => none
  | room, [last] => if last < Nat.pow 256 room then some last else none
  | room, part :: rest =>
    if part < 256 then (ipv4OfParts? (room - 1) rest).map (part * Nat.pow 256 (room - 1) + ·) else none

/-- An IPv4 address. -/
def ipv4? (text : List Char) : Option Nat :=
  let parts := dottedParts text
  if 4 < parts.length then none else (parts.mapM ipv4Part?).bind (ipv4OfParts? 4)

/-! ## IPv6 -/

/-- A piece of an IPv6 address: up to four hexadecimal digits. -/
def ipv6Piece? (digits : List Char) : Option Nat :=
  if digits.isEmpty ∨ 4 < digits.length then none else number? 16 digits

/-- A byte in decimal without leading zeros. -/
def byte? (digits : List Char) : Option Nat :=
  match digits with
  | [] => none
  | '0' :: _ :: _ => none
  | digits => (number? 10 digits).bind fun n => if n < 256 then some n else none

/-- Two pieces in the form of an IPv4 address. -/
def ipv6Tail? (text : List Char) : Option (List Nat) :=
  match (splitAt (· = '.') text).mapM byte? with
  | some [a, b, c, d] => some [256 * a + b, 256 * c + d]
  | _ => none

/-- Pieces with colons between them; the last two may have the form of an IPv4 address. -/
def ipv6Pieces? : List (List Char) → Option (List Nat)
  | [] => some []
  | [last] => if last.contains '.' then ipv6Tail? last else (ipv6Piece? last).map ([·])
  | piece :: rest => do pure ((← ipv6Piece? piece) :: (← ipv6Pieces? rest))

/-- The pieces of one side of a gap; there need not be any. -/
def ipv6Side? (text : List Char) : Option (List Nat) :=
  if text.isEmpty then some [] else ipv6Pieces? (splitAt (· = ':') text)

/-- Splits at the first gap, two colons. -/
def splitGap : List Char → Option (List Char × List Char)
  | [] => none
  | ':' :: ':' :: rest => some ([], rest)
  | c :: rest => (splitGap rest).map fun (before, after) => (c :: before, after)

/-- An IPv6 address: eight pieces, or fewer with one gap that stands for the zeros between. -/
def ipv6? (text : List Char) : Option (List Nat) :=
  match splitGap text with
  | none =>
    (ipv6Side? text).bind fun pieces => if pieces.length = 8 then some pieces else none
  | some (before, after) => do
    if before.contains '.' then none
    let front ← ipv6Side? before
    let back ← ipv6Side? after
    let used := front.length + back.length
    if used < 8 then pure (front ++ List.replicate (8 - used) 0 ++ back) else none

/-! ## Hosts -/

/-- The text between brackets, or an error if the closing one is missing. -/
def bracketed (inner : List Char) : Except UrlError Host :=
  if inner.getLast? = some ']' then
    match ipv6? inner.dropLast with
    | some pieces => .ok (.ipv6 pieces)
    | none => .error .invalidIpv6
  else .error .invalidIpv6

/-- Whether a character may not stand in a name on the web. -/
def forbiddenInName (c : Char) : Bool :=
  c.toNat ≤ 0x20 || c.toNat = 0x7f || c.toNat = 0xfffd || "%#/:<>?@[\\]^|".toList.contains c

/-- Whether a character may not stand in a host of another scheme. -/
def forbiddenElsewhere (c : Char) : Bool := "\x00\t\n\r #/:<>?@[\\]^|".toList.contains c

/-- What a character of a name on the web counts as: a letter of ASCII is lowered, a character of full
width is the one of usual width, and one that is not seen counts for nothing. -/
def folded (c : Char) : List Char :=
  let n := c.toNat
  if [0xad, 0x200b, 0x2060, 0xfeff].contains n ∨ (0xfe00 ≤ n ∧ n ≤ 0xfe0f) then []
  else if 0xff01 ≤ n ∧ n ≤ 0xff5e then [(Char.ofNat (n - 0xfee0)).toLower]
  else if n = 0x3002 ∨ n = 0xff61 then ['.']
  else if n = 0xa0 ∨ n = 0x3000 ∨ (0x2000 ≤ n ∧ n ≤ 0x200a) then [' ']
  else [c.toLower]

/-- Whether a label stands for letters beyond ASCII, none of them a control character, if it says so. -/
def isLabel : List Char → Bool
  | 'x' :: 'n' :: '-' :: '-' :: code =>
    (Punycode.decode? code).any fun letters =>
      letters.any (fun c => 128 ≤ c.toNat) && letters.all fun c => c.toNat < 128 || 160 < c.toNat
  | _ => true

/-- A host on the web. -/
def web : List Char → Except UrlError Host
  | '[' :: inner => bracketed inner
  | text =>
    match Percent.decode? text with
    | none => .error .invalidName
    | some decoded =>
      let name := decoded.toList.flatMap folded
      if name.any forbiddenInName || !(splitAt (· = '.') name).all isLabel then .error .invalidName
      else if name.isEmpty then .error .emptyHost
      else if endsInNumber name then
        match ipv4? name with
        | some address => .ok (.ipv4 address)
        | none => .error .invalidIpv4
      else .ok (.name (String.ofList name))

/-- A host of another scheme. -/
def other : List Char → Except UrlError Host
  | '[' :: inner => bracketed inner
  | text =>
    if text.any forbiddenElsewhere then .error .invalidCharacter
    else .ok (.name (String.ofList (Percent.encode Percent.controls text)))

end Host

end EventJournal
