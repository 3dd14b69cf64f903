import EventJournal.Decimal.Scientific
import EventJournal.Json.Basic

/-!
# YAML scalars

A plain scalar stands for null, a boolean, a number, or else for its own text. Hexadecimal and octal
integers carry `0x` and `0o`.

Main statement: `eq_of_resolve`, a scalar that stands for a text stands for its own.
-/

namespace EventJournal.Yaml

/-- The words for null. -/
def isNull (text : String) : Bool := text = "" || text = "~" || text = "null"

/-- The words for booleans. -/
def boolean? : String → Option Bool
  | "true" | "True" | "TRUE" => some true
  | "false" | "False" | "FALSE" => some false
  | _ => none

/-- An integer, in base ten or with the mark of another base. -/
def anyInteger? : List Char → Option Int
  | '0' :: 'x' :: digits => Text.intIn? 16 digits
  | '0' :: 'o' :: digits => Text.intIn? 8 digits
  | text => Text.intIn? 10 text

/-- A floating point number; it has a digit. -/
def float? (text : List Char) : Option String :=
  if text.any Char.isDigit then (Decimal.Scientific.read? text).bind (·.doubleText?) else none

/-- What a plain scalar stands for. -/
def resolve (text : String) : Json :=
  if isNull text then .null
  else
    match boolean? text, anyInteger? text.toList, float? text.toList with
    | some b, _, _ => .bool b
    | none, some n, _ => .int n
    | none, none, some text => .float text
    | none, none, none => .str text

theorem eq_of_resolve {text other : String} (h : resolve text = .str other) : other = text := by
  unfold resolve at h
  split at h
  · cases h
  · split at h <;> cases h
    rfl

end EventJournal.Yaml
