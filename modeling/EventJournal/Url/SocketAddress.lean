import EventJournal.Json.Text
import EventJournal.Text.Radix
import EventJournal.Url.Host

/-!
# Socket addresses

An IP address and a port, such as `127.0.0.1:80` or `[::1]:80`. The text of an IPv6 address leaves out its
first longest run of zeros, if that is longer than one piece, and writes an address of version 4 inside it
in the form of that version.
-/

namespace EventJournal

/-- An IP address with a port. -/
inductive SocketAddress where
  | ipv4 (bytes : List Nat) (port : Nat)
  | ipv6 (pieces : List Nat) (scope : Nat) (port : Nat)
  deriving Repr, DecidableEq, Inhabited

namespace SocketAddress

/-! ## Reading -/

/-- A decimal number below a bound. -/
def number? (bound : Nat) (digits : List Char) : Option Nat :=
  if digits.isEmpty ∨ !digits.all Char.isDigit then none
  else (Text.natIn? 10 digits).filter (· < bound)

/-- The four bytes of an IPv4 address. -/
def bytes? (text : List Char) : Option (List Nat) :=
  let parts := Host.splitAt (· = '.') text
  if parts.length = 4 then parts.mapM Host.byte? else none

/-- An IPv6 address with its scope, which is zero if there is none. -/
def scoped? (text : List Char) : Option (List Nat × Nat) :=
  match Host.splitAt (· = '%') text with
  | [address] => (Host.ipv6? address).map fun pieces => (pieces, 0)
  | [address, scope] => do pure (← Host.ipv6? address, ← number? UInt32.size scope)
  | _ => none

/-- Reads a socket address. -/
def parse? (text : String) : Option SocketAddress :=
  match text.toList with
  | '[' :: rest =>
    match Host.splitAt (· = ']') rest with
    | [inner, ':' :: port] => do
      let (pieces, scope) ← scoped? inner
      pure (.ipv6 pieces scope (← number? UInt16.size port))
    | _ => none
  | text =>
    match Host.splitAt (· = ':') text with
    | [address, port] => do pure (.ipv4 (← bytes? address) (← number? UInt16.size port))
    | _ => none

/-! ## Writing -/

/-- Bytes with points between them. -/
def bytesText (bytes : List Nat) : String := ".".intercalate (bytes.map toString)

/-- Hexadecimal pieces with colons between them. -/
def piecesText (pieces : List Nat) : String :=
  ":".intercalate (pieces.map fun piece => String.ofList (Nat.toDigits 16 piece))

/-- The length of the run of zeros at the front. -/
def zeroRun (pieces : List Nat) : Nat := (pieces.takeWhile (· = 0)).length

/-- Where the first longest run of zeros starts, and its length. -/
def longestZeroRun : List Nat → Nat × Nat
  | [] => (0, 0)
  | piece :: rest =>
    let here := zeroRun (piece :: rest)
    let (start, length) := longestZeroRun rest
    if length ≤ here then (0, here) else (start + 1, length)

/-- The text of an IPv6 address. -/
def ipv6Text (pieces : List Nat) : String :=
  match pieces with
  | [0, 0, 0, 0, 0, 0xffff, high, low] =>
    "::ffff:" ++ bytesText [high / 256, high % 256, low / 256, low % 256]
  | pieces =>
    let (start, length) := longestZeroRun pieces
    if 1 < length then
      piecesText (pieces.take start) ++ "::" ++ piecesText (pieces.drop (start + length))
    else piecesText pieces

/-- The text of a socket address. -/
def text : SocketAddress → String
  | .ipv4 bytes port => bytesText bytes ++ ":" ++ toString port
  | .ipv6 pieces scope port =>
    "[" ++ ipv6Text pieces ++ (if scope = 0 then "" else "%" ++ toString scope) ++ "]:" ++
      toString port

end SocketAddress

end EventJournal
