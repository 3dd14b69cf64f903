/-!
# Percent-encoding

A character that may not stand in a part of an address is written as the bytes of its UTF-8 form, each
as a percent sign and two uppercase hexadecimal digits. Which characters these are depends on the part.

Main statements: `encode_append` and `encode_of_forall_not`, encoding goes character by character and
leaves alone what needs no encoding.
-/

namespace EventJournal.Percent

/-- The uppercase hexadecimal digit of `n < 16`. -/
def digit (n : Nat) : Char := ("0123456789ABCDEF".toList)[n]?.getD '0'

/-- A byte. -/
def encodeByte (byte : UInt8) : List Char :=
  ['%', digit (byte.toNat / 16), digit (byte.toNat % 16)]

/-- A character, encoded if the part demands it. -/
def encodeChar (encoded : Char → Bool) (c : Char) : List Char :=
  if encoded c then (String.utf8EncodeChar c).flatMap encodeByte else [c]

/-- A text. -/
def encode (encoded : Char → Bool) (text : List Char) : List Char :=
  text.flatMap (encodeChar encoded)

/-! ## What each part encodes -/

/-- Control characters and everything outside ASCII. -/
def controls (c : Char) : Bool := c.toNat < 0x20 || 0x7e < c.toNat

/-- In the fragment. -/
def fragment (c : Char) : Bool := controls c || [' ', '"', '<', '>', '\x60'].contains c

/-- In a path that is read. -/
def path (c : Char) : Bool := fragment c || ['#', '?', '\x7b', '\x7d'].contains c

/-- In a segment that is added to a path. -/
def segment (c : Char) : Bool := path c || ['/', '%'].contains c

/-- In a segment that is added to the path of a web address, where a backslash separates too. -/
def webSegment (c : Char) : Bool := segment c || c = '\\'

/-- In a user name or password. -/
def credentials (c : Char) : Bool :=
  path c || ['/', ':', ';', '=', '@', '[', '\\', ']', '^', '|'].contains c

/-- In a query. -/
def query (c : Char) : Bool := controls c || [' ', '"', '#', '<', '>'].contains c

/-- In the query of a web address. -/
def webQuery (c : Char) : Bool := query c || c = '\x27'

/-! ## Decoding -/

/-- The value of a hexadecimal digit. -/
def digitValue? (c : Char) : Option Nat :=
  if '0' ≤ c ∧ c ≤ '9' then some (c.toNat - '0'.toNat)
  else if 'a' ≤ c ∧ c ≤ 'f' then some (c.toNat - 'a'.toNat + 10)
  else if 'A' ≤ c ∧ c ≤ 'F' then some (c.toNat - 'A'.toNat + 10)
  else none

/-- The bytes of a text in which encoded bytes are decoded; a percent sign without two digits stays. -/
def decodeBytes : List Char → List UInt8
  | [] => []
  | '%' :: a :: b :: rest =>
    match digitValue? a, digitValue? b with
    | some high, some low => UInt8.ofNat (16 * high + low) :: decodeBytes rest
    | _, _ => UInt8.ofNat '%'.toNat :: decodeBytes (a :: b :: rest)
  | c :: rest => String.utf8EncodeChar c ++ decodeBytes rest
termination_by text => text.length

/-- The decoded text, if its bytes are UTF-8. -/
def decode? (text : List Char) : Option String := String.fromUTF8? ⟨(decodeBytes text).toArray⟩

/-! ## Laws -/

theorem encode_append (encoded : Char → Bool) (a b : List Char) :
    encode encoded (a ++ b) = encode encoded a ++ encode encoded b := by
  simp [encode]

theorem encode_of_forall_not {encoded : Char → Bool} {text : List Char}
    (h : ∀ c ∈ text, encoded c = false) : encode encoded text = text := by
  induction text with
  | nil => rfl
  | cons c rest ih =>
    have hc := h c List.mem_cons_self
    have hr := ih fun d hd => h d (List.mem_cons_of_mem _ hd)
    simp only [encode, List.flatMap_cons] at *
    simp [encodeChar, hc, hr]

end EventJournal.Percent
