import EventJournal.Decimal.Scientific
import EventJournal.Json.Decode

/-!
# How settings are read

Settings are decoded in one of two ways. The strict way takes each value as it is. The coercing way takes
what can stand for a value: a variable of the environment is a text, so texts stand for booleans and
integers, numbers for booleans, and booleans and numbers for texts; the case of a name out of a list does
not matter.

Main statement: `strict_flag_ok`, the coercing way reads a boolean as the strict way does.
-/

namespace EventJournal.Config

open Json (Decoder DecodeError Shape)

/-- How texts, booleans, names out of a list and structures are read. -/
structure Reading where
  text : Decoder String
  flag : Decoder Bool
  /-- A name out of a list; the type they belong to comes first. -/
  variant : {α : Type} → String → List (String × α) → Decoder α
  members : Shape → Decoder Fields

namespace Reading

/-- Each value as it is. -/
def strict : Reading where
  text := Decoder.string
  flag := Decoder.boolean
  variant _ known := Decoder.variant known
  members := Shape.members

/-! ## Coercions -/

/-- How a value is called where another was asked for. -/
def kindOf : Json → String
  | .null => "unit value"
  | .int n => "64-bit integer `" ++ toString n ++ "`"
  | value => value.kind

/-- Refuses a value. -/
def unfit (value : Json) (expected : String) : Except DecodeError α :=
  .error (.invalidType (kindOf value) expected)

/-- A number as the double that its text stands for, in positional text. -/
def floatText (text : String) : String :=
  match Decimal.Scientific.read? text.toList with
  | some number => number.positional
  | none => text

/-- A text, or a boolean or a number in its place. -/
def coerceText : Decoder String
  | .str text => .ok text
  | .bool b => .ok (toString b)
  | .int n => .ok (if Text.isWord n then toString n else Decimal.plain n)
  | .float text => .ok (floatText text)
  | value => unfit value "a string"

/-- The words for yes and no. -/
def word? (text : String) : Option Bool :=
  match text.toLower with
  | "true" | "on" | "yes" => some true
  | "false" | "off" | "no" => some false
  | _ => none

/-- The boolean that a text stands for. -/
def flagText? (text : String) : Option Bool :=
  if text = "1" then some true else if text = "0" then some false else word? text

/-- A boolean, or in its place a word, one of the digits 1 and 0, or a number: zero is no. -/
def coerceFlag : Decoder Bool
  | .bool b => .ok b
  | .int n => .ok (n ≠ 0)
  | .float text => .ok ((Decimal.Scientific.read? text.toList).all (·.digits ≠ 0))
  | .str text =>
    match flagText? text with
    | some b => .ok b
    | none => unfit (.str text) "a boolean"
  | value => unfit value "a boolean"

/-- The integer that a text stands for. -/
def unsignedText? (text : String) : Option Nat :=
  match word? text, text.toList with
  | some b, _ => some b.toNat
  | none, '+' :: digits => Text.natIn? 10 digits
  | none, digits => Text.natIn? 10 digits

/-- An unsigned integer of 32 bits, or in its place a text, a boolean or a rounded number. -/
def coerceUInt32 : Decoder UInt32 := fun value =>
  let bounded (n : Int) : Except DecodeError UInt32 :=
    if n < 0 then unfit value "an unsigned 64 bit or less integer"
    else if n < UInt32.size then .ok (UInt32.ofNat n.toNat)
    else
      .error (.invalidType ("64-bit unsigned integer `" ++ toString n ++ "`")
        "an unsigned 32 bit integer")
  match value with
  | .int n => bounded n
  | .bool b => bounded b.toInt
  | .float text =>
    match Decimal.Scientific.read? text.toList with
    | some number => bounded (max number.round 0)
    | none => unfit value "an unsigned 64 bit integer"
  | .str text =>
    match unsignedText? text with
    | some n => bounded n
    | none => unfit value "an unsigned 64 bit integer"
  | value => unfit value "an unsigned 64 bit integer"

/-- A name out of a list in any case, as a text or as the only key of a table. -/
def coerceVariant {α : Type} (type : String) (known : List (String × α)) : Decoder α := fun value =>
  let find (name : String) : Except DecodeError α :=
    match known.find? fun pair => pair.1.toLower = name.toLower with
    | some (_, x) => .ok x
    | none =>
      .error (.invalidText ("enum " ++ type ++ " does not have variant constructor " ++ name))
  match value with
  | .str name => find name
  | .obj [(name, _)] => find name
  | _ =>
    .error (.invalidText ("value of enum " ++ type ++
      " should be represented by either string or table with exactly one key"))

/-- The members of a structure; a failure in one of them says in which, and items too many do not
count. -/
def coerceMembers (shape : Shape) : Decoder Fields := fun value =>
  let within (field : Json.Field) : Json.Field :=
    { field with check := fun value =>
        match field.check value with
        | .ok () => .ok ()
        | .error error => .error (.inMember field.name error) }
  let shape : Shape := { shape with fields := shape.fields.map within }
  match value with
  | .arr items => shape.members (.arr (items.take shape.fields.length))
  | .obj fields => shape.members (.obj fields)
  | value =>
    let found := if value = .null then kindOf value else value.kind
    .error (.invalidText ("invalid type: " ++ found ++ ", expected struct " ++ shape.name))

/-- Whatever can stand for a value. -/
def coercing : Reading where
  text := coerceText
  flag := coerceFlag
  variant := coerceVariant
  members := coerceMembers

theorem strict_flag_ok {value : Json} {b : Bool} (h : strict.flag value = .ok b) :
    coercing.flag value = .ok b := by
  cases value <;> simp_all [strict, coercing, Decoder.boolean, coerceFlag, Json.refuse]

end Reading

end EventJournal.Config
