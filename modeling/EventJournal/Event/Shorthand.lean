import EventJournal.Event.Codec
import EventJournal.Json.Query

/-!
# Events and options in short form

A short form of events, records and options for scripts: fields that are left out have defaults.
An event is its id, its type and perhaps a payload and metadata; a record adds perhaps its stream
(`s`), version (0), sequence number (1) and time (the start of 2024). A type filter is a list of types
under `select` or under `exclude`.

Ids made up by a program differ from run to run and are shown alike.
-/

namespace EventJournal

/-! ## Reading -/

/-- A stream by its name. -/
def StreamId.read? (value : Json) : Option StreamId := value.asStr?.map .mk

/-- A version by its number. -/
def StreamVersion.read? (value : Json) : Option StreamVersion := value.int64?.map .mk

/-- A position by its number. -/
def Position.read? (value : Json) : Option Position := value.int64?.map .mk

/-- An instant by its RFC 3339 text. -/
def Timestamp.read? (value : Json) : Option Timestamp := do
  (Timestamp.parse (← value.asStr?)).toOption

/-- A direction by its name. -/
def Direction.read? (value : Json) : Option Direction := (Direction.ofJson value).toOption

/-- The type filter among the fields of an object. -/
def TypeFilter.readIn? (value : Json) : Option (Option TypeFilter) :=
  match value.member "select", value.member "exclude" with
  | .null, .null => some none
  | .null, types => do pure (some (.exclude (← types.list? Json.asStr?)))
  | types, _ => do pure (some (.select (← types.list? Json.asStr?)))

/-- An event. -/
def Event.read? (value : Json) : Option Event := do
  pure {
    id := ⟨← (value.member "id").asStr?⟩
    typeName := ← (value.member "type").asStr?
    payload := value.member "payload"
    metadata := ⟨← (value.member "metadata").members?⟩ }

/-- A record. -/
def Record.read? (value : Json) : Option Record := do
  pure {
    event := ← Event.read? value
    stream := ← (value.member "stream").orElse StreamId.read? ⟨"s"⟩
    version := ← (value.member "version").orElse StreamVersion.read? ⟨0⟩
    sequence := ⟨← (value.member "seq").orElse Json.int64? 1⟩
    recordedAt := ← (value.member "at").orElse Timestamp.read? .start2024 }

/-- The options of a read: forward from the start or backward from the end, if not told otherwise. -/
def ReadOptions.read? (value : Json) : Option ReadOptions := do
  let base := match ← (value.member "direction").orElse Direction.read? .forward with
    | .forward => ReadOptions.forward
    | .backward => ReadOptions.backward
  pure { base with
    position := ← (value.member "from").orElse Position.read? base.position
    maxCount := ← (value.member "max").optional Json.nat?
    filter := ← TypeFilter.readIn? value }

/-- The options of a subscription, from the start if not told otherwise. -/
def SubscribeOptions.read? (value : Json) : Option SubscribeOptions := do
  pure {
    position := ← (value.member "from").orElse Position.read? .start
    filter := ← TypeFilter.readIn? value }

/-! ## Showing -/

/-- Whether a text begins like a random identifier: 36 characters, lowercase hexadecimal digits in
groups of 8, 4, 4, 4 and 12, of version 4 and the usual variant. -/
def beginsGenerated (text : List Char) : Bool :=
  let digit (c : Char) : Bool := c.isDigit || ('a' ≤ c && c ≤ 'f')
  36 ≤ text.length &&
    (text.take 36).zipIdx.all fun (c, i) =>
      if i = 8 ∨ i = 13 ∨ i = 18 ∨ i = 23 then c = '-'
      else if i = 14 then c = '4'
      else if i = 19 then c = '8' ∨ c = '9' ∨ c = 'a' ∨ c = 'b'
      else digit c

/-- A name with the random identifier it begins with, if it does, replaced. -/
def shownName (name : String) : String :=
  if beginsGenerated name.toList then "<generated>" ++ String.ofList (name.toList.drop 36) else name

/-- A record with its id shown, with its time or without. -/
def Record.shown (record : Record) (timed : Bool) : Json :=
  let event := { record.event with id := ⟨shownName record.id.name⟩ }
  match { record with event }.toJson with
  | .obj fields => .obj (if timed then fields else Fields.erase fields "recorded_at")
  | other => other

end EventJournal
