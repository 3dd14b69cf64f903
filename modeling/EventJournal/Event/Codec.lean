import EventJournal.Event.Options
import EventJournal.Json.Decode

/-!
# JSON form of events

Names and numbers are bare values; an event, a record and the extent of a stream are objects. An
event may leave its metadata out, a record leaves out nothing.

-/

namespace EventJournal

/-! ## Names and numbers -/

/-- A word as JSON. -/
def Json.ofInt64 (value : Int64) : Json := .int value.toInt

/-- An unsigned word as JSON. -/
def Json.ofUInt64 (value : UInt64) : Json := .int value.toNat

/-- A stream id is its name. -/
def StreamId.ofJson : Json.Decoder StreamId := fun value => (Json.Decoder.string value).map .mk

/-- An event id is its name. -/
def EventId.ofJson : Json.Decoder EventId := fun value => (Json.Decoder.string value).map .mk

/-- A version is a number. -/
def StreamVersion.ofJson : Json.Decoder StreamVersion := fun value =>
  (Json.Decoder.int64 value).map .mk

/-- A sequence number is a number. -/
def SequenceNumber.ofJson : Json.Decoder SequenceNumber := fun value =>
  (Json.Decoder.int64 value).map .mk

/-- A position is a number. -/
def Position.ofJson : Json.Decoder Position := fun value => (Json.Decoder.int64 value).map .mk

/-- Metadata is an object. -/
def Metadata.ofJson : Json.Decoder Metadata := fun value => (Json.Decoder.fields value).map .mk

/-- A timestamp is RFC 3339 text. -/
def Timestamp.ofJson : Json.Decoder Timestamp
  | .str text =>
    match Timestamp.parse text with
    | .ok time => .ok time
    | .error reason => .error (.invalidText reason.message)
  | value => Json.refuse value "an RFC 3339 formatted date and time string"

/-- A direction is its name. -/
def Direction.ofJson : Json.Decoder Direction :=
  Json.Decoder.variant [("forward", .forward), ("backward", .backward)]

/-! ## Structures -/

/-- An event as JSON. -/
def Event.toJson (event : Event) : Json :=
  .obj [("id", .str event.id.name), ("metadata", .obj event.metadata.fields),
    ("payload", event.payload), ("type_name", .str event.typeName)]

/-- The fields of an event. -/
def Event.shape : Json.Shape :=
  ⟨"EventDescriptor", [.required "id" EventId.ofJson, .required "type_name" Json.Decoder.string,
    .required "payload" Json.Decoder.any, .defaulted "metadata" Metadata.ofJson]⟩

/-- Reads an event. -/
def Event.ofJson : Json.Decoder Event := fun value => do
  let members ← Event.shape.members value
  let id ← Json.field members "id" EventId.ofJson
  let typeName ← Json.field members "type_name" Json.Decoder.string
  let payload ← Json.field members "payload" Json.Decoder.any
  let metadata ← Json.fieldD members "metadata" Metadata.ofJson Metadata.empty
  pure { id, typeName, payload, metadata }

/-- A record as JSON. -/
def Record.toJson (record : Record) : Json :=
  .obj [("id", .str record.event.id.name), ("metadata", .obj record.event.metadata.fields),
    ("payload", record.event.payload), ("recorded_at", .str record.recordedAt.text),
    ("sequence_number", Json.ofInt64 record.sequence.value), ("stream_id", .str record.stream.name),
    ("type_name", .str record.event.typeName), ("version", Json.ofInt64 record.version.value)]

/-- The fields of a record. -/
def Record.shape : Json.Shape :=
  ⟨"RecordedEventDescriptor",
    [.required "id" EventId.ofJson, .required "type_name" Json.Decoder.string,
      .required "payload" Json.Decoder.any, .required "metadata" Metadata.ofJson,
      .required "stream_id" StreamId.ofJson, .required "version" StreamVersion.ofJson,
      .required "sequence_number" SequenceNumber.ofJson,
      .required "recorded_at" Timestamp.ofJson]⟩

/-- Reads a record. -/
def Record.ofJson : Json.Decoder Record := fun value => do
  let members ← Record.shape.members value
  let id ← Json.field members "id" EventId.ofJson
  let typeName ← Json.field members "type_name" Json.Decoder.string
  let payload ← Json.field members "payload" Json.Decoder.any
  let metadata ← Json.field members "metadata" Metadata.ofJson
  let stream ← Json.field members "stream_id" StreamId.ofJson
  let version ← Json.field members "version" StreamVersion.ofJson
  let sequence ← Json.field members "sequence_number" SequenceNumber.ofJson
  let recordedAt ← Json.field members "recorded_at" Timestamp.ofJson
  pure { event := { id, typeName, payload, metadata }, stream, version, sequence, recordedAt }

/-- The extent of a stream as JSON. -/
def StreamBounds.toJson (bounds : StreamBounds) : Json :=
  .obj [("id", .str bounds.id.name), ("initial_version", Json.ofInt64 bounds.initialVersion.value),
    ("version", Json.ofInt64 bounds.version.value)]

/-- The fields of the extent of a stream. -/
def StreamBounds.shape : Json.Shape :=
  ⟨"Stream", [.required "id" StreamId.ofJson, .required "version" StreamVersion.ofJson,
    .required "initial_version" StreamVersion.ofJson]⟩

/-- Reads the extent of a stream. -/
def StreamBounds.ofJson : Json.Decoder StreamBounds := fun value => do
  let members ← StreamBounds.shape.members value
  let id ← Json.field members "id" StreamId.ofJson
  let version ← Json.field members "version" StreamVersion.ofJson
  let initialVersion ← Json.field members "initial_version" StreamVersion.ofJson
  pure { id, version, initialVersion }

end EventJournal
