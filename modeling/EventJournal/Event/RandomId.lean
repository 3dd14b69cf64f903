import EventJournal.Event.Id

/-!
# Random ids

An id made of sixteen random bytes, in the form of a universally unique identifier of version 4: thirty-two
hexadecimal digits in five groups, of which one digit is the version and two bits are the variant.

Main statement: `mark_version`, the seventh byte says version 4.
-/

namespace EventJournal

namespace RandomId

/-- Marks the version and the variant in the byte of an index. -/
def mark (index byte : Nat) : Nat :=
  if index = 6 then byte % 16 + 64 else if index = 8 then byte % 64 + 128 else byte

theorem mark_version (byte : Nat) : mark 6 byte / 16 = 4 := by
  simp only [mark, if_true]
  omega

/-- Two hexadecimal digits. -/
def digits (byte : Nat) : List Char := [Nat.digitChar (byte / 16 % 16), Nat.digitChar (byte % 16)]

/-- The digits of marked bytes, with dashes between the groups. -/
def text (bytes : List Nat) : String :=
  String.ofList <| (bytes.mapIdx fun index byte =>
    (if index ∈ [4, 6, 8, 10] then ['-'] else []) ++ digits (mark index byte)).flatten

end RandomId

/-- The id of random bytes. -/
def EventId.ofBytes (bytes : List UInt8) : EventId := ⟨RandomId.text (bytes.map UInt8.toNat)⟩

end EventJournal
