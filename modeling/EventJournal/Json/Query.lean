import EventJournal.Json.Basic

/-!
# Reading values field by field

A lenient way to read an object: a field that is not there reads as null, a reader gives nothing for a
value of another kind, and null may stand for a default.
-/

namespace EventJournal.Json

/-- The value of a field; null if it is not there. -/
def member (value : Json) (field : String) : Json := (value.get? field).getD .null

/-- An integer. -/
def int? : Json → Option Int
  | .int n => some n
  | _ => none

/-- An integer that is not negative. -/
def nat? : Json → Option Nat
  | .int n => if 0 ≤ n then some n.toNat else none
  | _ => none

/-- A boolean. -/
def bool? : Json → Option Bool
  | .bool b => some b
  | _ => none

/-- A word. -/
def int64? (value : Json) : Option Int64 := value.int?.map Int64.ofInt

/-- An unsigned word. -/
def uint64? (value : Json) : Option UInt64 := value.nat?.map UInt64.ofNat

/-- The items of a list; null has none. -/
def items? : Json → Option (List Json)
  | .arr items => some items
  | .null => some []
  | _ => none

/-- The members of an object; null has none. -/
def members? : Json → Option Fields
  | .obj fields => some fields
  | .null => some []
  | _ => none

/-- A value, or nothing for null. -/
def optional (read : Json → Option α) : Json → Option (Option α)
  | .null => some none
  | value => (read value).map some

/-- A value, or a default for null. -/
def orElse (read : Json → Option α) (default : α) : Json → Option α
  | .null => some default
  | value => read value

/-- A list, each item read the same way. -/
def list? (read : Json → Option α) (value : Json) : Option (List α) := do
  (← value.items?).mapM read

/-- Texts as a list. -/
def ofStrings (texts : List String) : Json := .arr (texts.map .str)

/-- A value that may be absent, which is null. -/
def ofOption (write : α → Json) (value : Option α) : Json := value.elim .null write

end EventJournal.Json
