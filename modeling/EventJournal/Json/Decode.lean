import EventJournal.Json.Reader

/-!
# Typed decoding of JSON

A `Decoder α` turns a value into an `α` or says why not. A structure is decoded from an object or
from a list of its fields in declaration order:

* the members of an object are visited in key order, members of other names are ignored, and the
  first one that does not fit is reported; only then is a field that is not there missed, in
  declaration order;
* a list that ends early misses the first field without a default, and one that goes on is too long.

Main statements: `Shape.visit_ok_iff` says when an object is accepted.
-/

namespace EventJournal.Json

/-! ## Failures -/

/-- Why a value does not decode. -/
inductive DecodeError where
  | invalidType (found expected : String)
  | invalidValue (found expected : String)
  | missingField (name : String)
  | unknownVariant (name : String) (known : List String)
  | invalidLength (length : Nat) (expected : String)
  /-- A text in a wrong format. -/
  | invalidText (reason : String)
  /-- A failure in the value of a member. -/
  | inMember (key : String) (error : DecodeError)
  deriving Repr, DecidableEq

/-- The names one may expect, as a phrase. -/
def oneOf : List String → String
  | [] => "there are no variants"
  | [a] => "expected `" ++ a ++ "`"
  | [a, b] => "expected `" ++ a ++ "` or `" ++ b ++ "`"
  | names => "expected one of " ++ ", ".intercalate (names.map fun name => "`" ++ name ++ "`")

/-- The keys that lead to where a failure lies, the outermost first. -/
def DecodeError.path : DecodeError → List String
  | .inMember key error => key :: error.path
  | _ => []

/-- A failure without the keys that lead to it. -/
def DecodeError.core : DecodeError → DecodeError
  | .inMember _ error => error.core
  | error => error

/-- The wording of a decoding failure, wherever it lies. -/
def DecodeError.message : DecodeError → String
  | .invalidType found expected => "invalid type: " ++ found ++ ", expected " ++ expected
  | .invalidValue found expected => "invalid value: " ++ found ++ ", expected " ++ expected
  | .missingField name => "missing field `" ++ name ++ "`"
  | .unknownVariant name known => "unknown variant `" ++ name ++ "`, " ++ oneOf known
  | .invalidLength length expected =>
    "invalid length " ++ toString length ++ ", expected " ++ expected
  | .invalidText reason => reason
  | .inMember _ error => error.message

/-- Reads an `α` from a value. -/
abbrev Decoder (α : Type) := Json → Except DecodeError α

/-- Refuses a value of another type. -/
def refuse (value : Json) (expected : String) : Except DecodeError α :=
  .error (.invalidType value.kind expected)

/-! ## Scalars -/

namespace Decoder

/-- Any value. -/
def any : Decoder Json := .ok

/-- A string. -/
def string : Decoder String
  | .str text => .ok text
  | value => refuse value "a string"

/-- A boolean. -/
def boolean : Decoder Bool
  | .bool b => .ok b
  | value => refuse value "a boolean"

/-- An integer between two bounds. -/
def integer (low high : Int) (expected : String) : Decoder Int
  | .int n => if low ≤ n ∧ n ≤ high then .ok n else .error (.invalidValue (Json.int n).kind expected)
  | value => refuse value expected

/-- A signed 64-bit integer. -/
def int64 : Decoder Int64 := fun value =>
  (integer Int64.minValue.toInt Int64.maxValue.toInt "i64" value).map Int64.ofInt

/-- An unsigned 64-bit integer. -/
def uint64 : Decoder UInt64 := fun value =>
  (integer 0 (UInt64.size - 1) "u64" value).map fun n => UInt64.ofNat n.toNat

/-- An unsigned 32-bit integer. -/
def uint32 : Decoder UInt32 := fun value =>
  (integer 0 (UInt32.size - 1) "u32" value).map fun n => UInt32.ofNat n.toNat

/-- The members of an object. -/
def fields : Decoder Fields
  | .obj fields => .ok fields
  | value => refuse value "a map"

/-- A value that may be null. -/
def option (decode : Decoder α) : Decoder (Option α)
  | .null => .ok none
  | value => (decode value).map some

/-- Each item of a list. -/
def items (decode : Decoder α) : List Json → Except DecodeError (List α)
  | [] => .ok []
  | item :: rest =>
    match decode item with
    | .error error => .error error
    | .ok x => (items decode rest).map (x :: ·)

/-- A list. -/
def list (decode : Decoder α) : Decoder (List α)
  | .arr values => items decode values
  | value => refuse value "a sequence"

/-- Each value of an object. -/
def members (decode : Decoder α) : Fields → Except DecodeError (List (String × α))
  | [] => .ok []
  | (key, value) :: rest =>
    match decode value with
    | .error error => .error error
    | .ok x => (members decode rest).map ((key, x) :: ·)

/-- An object of values of one type. -/
def map (decode : Decoder α) : Decoder (List (String × α))
  | .obj fields => members decode fields
  | value => refuse value "a map"

/-- What a name out of a list stands for. -/
def named (known : List (String × α)) (name : String) : Except DecodeError α :=
  match known.lookup name with
  | some x => .ok x
  | none => .error (.unknownVariant name (known.map Prod.fst))

/-- A name out of a list, as a string. -/
def identifier (known : List (String × α)) : Decoder α
  | .str name => named known name
  | value => refuse value "variant identifier"

/-- A name out of a list, as a string or as an object with the name as its only key. -/
def variant (known : List (String × α)) : Decoder α
  | .str name => named known name
  | .obj [(name, content)] =>
    match named known name, content with
    | .ok x, .null => .ok x
    | .ok _, content => refuse content "unit"
    | .error error, _ => .error error
  | .obj _ => .error (.invalidValue "map" "map with a single key")
  | value => refuse value "string or map"

end Decoder

/-! ## Structures -/

/-- One field of a structure: how its value is checked and whether it may be left out. -/
structure Field where
  name : String
  check : Json → Except DecodeError Unit
  /-- Left out of an object, the field has a default. -/
  optionalInObject : Bool := false
  /-- Left out of a list, the field has a default. -/
  optionalInList : Bool := false

namespace Field

/-- A field that has to be there. -/
def required (name : String) (decode : Decoder α) : Field :=
  { name, check := fun value => (decode value).map fun _ => () }

/-- A field with a default. -/
def defaulted (name : String) (decode : Decoder α) : Field :=
  { name, check := fun value => (decode value).map fun _ => (),
    optionalInObject := true, optionalInList := true }

/-- A field whose absence is a value of its type; a list cannot leave it out. -/
def optional (name : String) (decode : Decoder α) : Field :=
  { name, check := fun value => (decode value).map fun _ => (), optionalInObject := true }

end Field

/-- The shape of a structure: its name in messages and its fields in declaration order. -/
structure Shape where
  name : String
  fields : List Field

namespace Shape

/-- Checks the members of an object in key order; those of other names are ignored. -/
def visit (shape : Shape) : Fields → Except DecodeError Unit
  | [] => .ok ()
  | (key, value) :: rest =>
    match shape.fields.find? (·.name = key) with
    | none => shape.visit rest
    | some field =>
      match field.check value with
      | .error error => .error error
      | .ok () => shape.visit rest

/-- Misses the first field without a default that is not there. -/
def missing (members : Fields) : List Field → Except DecodeError Unit
  | [] => .ok ()
  | field :: rest =>
    if field.optionalInObject || members.contains field.name then missing members rest
    else .error (.missingField field.name)

/-- What a list of this shape is expected to be. -/
def expectation (shape : Shape) : String :=
  "struct " ++ shape.name ++ " with " ++ toString shape.fields.length ++
    (if shape.fields.length = 1 then " element" else " elements")

/-- Pairs the items of a list with the fields in declaration order. -/
def assign (shape : Shape) (given : Nat) : List Field → List Json → Except DecodeError Fields
  | [], [] => .ok []
  | [], _ :: _ => .error (.invalidLength given "fewer elements in array")
  | field :: fields, [] =>
    if field.optionalInList then shape.assign given fields []
    else .error (.invalidLength given shape.expectation)
  | field :: fields, item :: items =>
    match field.check item with
    | .error error => .error error
    | .ok () => (shape.assign given fields items).map ((field.name, item) :: ·)

/-- The members of a structure's value, each checked and none missing. -/
def members (shape : Shape) : Decoder Fields
  | .obj fields =>
    match shape.visit fields with
    | .error error => .error error
    | .ok () => (missing fields shape.fields).map fun _ => fields
  | .arr items => shape.assign items.length shape.fields items
  | value => refuse value ("struct " ++ shape.name)

theorem visit_ok_iff (shape : Shape) (fields : Fields) :
    shape.visit fields = .ok () ↔
      ∀ pair ∈ fields, ∀ field, shape.fields.find? (·.name = pair.1) = some field →
        field.check pair.2 = .ok () := by
  induction fields with
  | nil => simp [visit]
  | cons head rest ih =>
    obtain ⟨key, value⟩ := head
    simp only [visit, List.forall_mem_cons]
    split
    · next h => simp [h, ih]
    · next field h =>
      split
      · next error he => simp [h, he]
      · next he => simp [h, he, ih]

end Shape

/-- The value of a field that is there. -/
def field (members : Fields) (name : String) (decode : Decoder α) : Except DecodeError α :=
  match members.get? name with
  | some value => decode value
  | none => .error (.missingField name)

/-- The value of a field, or its default. -/
def fieldD (members : Fields) (name : String) (decode : Decoder α) (default : α) :
    Except DecodeError α :=
  match members.get? name with
  | some value => decode value
  | none => .ok default

end EventJournal.Json
