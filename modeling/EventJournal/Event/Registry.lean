import EventJournal.Error.Basic
import EventJournal.Event.Marker
import EventJournal.Text.Quoted

/-!
# Registered event types

An event type has a name and a way to read its payload; what it reads is given back in JSON form.
A registry is the set of types a program knows, by name. Describing an event needs its type to be
registered, and so does decoding a record of any type; decoding a record as one type only needs the
names to agree.
-/

namespace EventJournal

/-- A typed event: its name and how a payload of it is read, in JSON form. -/
structure EventType where
  name : String
  decode : Json.Decoder Json

namespace EventType

/-- The type of truncation markers. -/
def truncated : EventType :=
  ⟨StreamTruncated.typeName, fun value => (StreamTruncated.ofJson value).map StreamTruncated.toJson⟩

/-- The type of deletion markers. -/
def deleted : EventType :=
  ⟨StreamDeleted.typeName, fun value => (StreamDeleted.ofJson value).map StreamDeleted.toJson⟩

end EventType

/-- The failure of a payload that does not decode. -/
def StoreError.ofDecode (error : Json.DecodeError) : StoreError := .serialization error.message

/-- The types a program knows. -/
structure Registry where
  types : List EventType

namespace Registry

/-- No types. -/
def empty : Registry := ⟨[]⟩

/-- The registered type of a name. -/
def find? (registry : Registry) (name : String) : Option EventType :=
  registry.types.find? (·.name = name)

/-- Whether a type of this name is registered. -/
def contains (registry : Registry) (name : String) : Bool := (registry.find? name).isSome

/-- Registers a type under its name; a second time changes nothing. -/
def register (registry : Registry) (type : EventType) : Registry :=
  if registry.contains type.name then registry else ⟨registry.types ++ [type]⟩

/-- The registered names, sorted. -/
def typeNames (registry : Registry) : List String :=
  (registry.types.map EventType.name).mergeSort (fun a b => a ≤ b)

/-- The registry as diagnostics show it. -/
def debugText (registry : Registry) : String :=
  "EventTypeRegistry \x7b types: " ++ Text.quotedList registry.typeNames ++ " \x7d"

/-- Describes a typed event, given in JSON form, for appending. -/
def describe (registry : Registry) (type : EventType) (id : EventId) (payload : Json) :
    Outcome Event :=
  if registry.contains type.name then
    .ok { id, typeName := type.name, payload, metadata := .empty }
  else .error (.unknownEventType type.name)

/-- Decodes a record as one type. -/
def decodeAs (type : EventType) (record : Record) : Outcome Json :=
  if record.typeName = type.name then
    match type.decode record.event.payload with
    | .ok value => .ok value
    | .error error => .error (.ofDecode error)
  else .error (.unknownEventType record.typeName)

/-- Decodes a record as whatever type is registered under its name. -/
def decodeAny (registry : Registry) (record : Record) : Outcome (String × Json) :=
  match registry.find? record.typeName with
  | none => .error (.unknownEventType record.typeName)
  | some type =>
    match type.decode record.event.payload with
    | .ok value => .ok (type.name, value)
    | .error error => .error (.ofDecode error)

theorem contains_register (registry : Registry) (type : EventType) :
    (registry.register type).contains type.name = true := by
  unfold register
  split
  · assumption
  · simp [contains, find?, List.find?_append]

end Registry

end EventJournal
