import EventJournal.Event.Codec

/-!
# Markers

Truncating or deleting a stream leaves a marker in the stream of markers: an event of a type of its
own whose payload names the stream.
-/

namespace EventJournal

/-- The head of a stream was removed. -/
structure StreamTruncated where
  stream : StreamId
  before : Position
  deriving Repr, DecidableEq, Inhabited

/-- A stream was removed. -/
structure StreamDeleted where
  stream : StreamId
  deriving Repr, DecidableEq, Inhabited

namespace StreamTruncated

/-- The type of the marker. -/
def typeName : String := "es.stream.truncated"

/-- The marker as JSON. -/
def toJson (marker : StreamTruncated) : Json :=
  .obj [("before_position", Json.ofInt64 marker.before.value), ("stream_id", .str marker.stream.name)]

/-- The fields of the marker. -/
def shape : Json.Shape :=
  ⟨"StreamTruncatedEvent", [.required "stream_id" StreamId.ofJson,
    .required "before_position" Position.ofJson]⟩

/-- Reads a marker. -/
def ofJson : Json.Decoder StreamTruncated := fun value => do
  let members ← shape.members value
  let stream ← Json.field members "stream_id" StreamId.ofJson
  let before ← Json.field members "before_position" Position.ofJson
  pure { stream, before }

/-- The event that records the marker. -/
def event (marker : StreamTruncated) (id : EventId) : Event :=
  { id, typeName, payload := marker.toJson, metadata := .empty }

end StreamTruncated

namespace StreamDeleted

/-- The type of the marker. -/
def typeName : String := "es.stream.deleted"

/-- The marker as JSON. -/
def toJson (marker : StreamDeleted) : Json := .obj [("stream_id", .str marker.stream.name)]

/-- The fields of the marker. -/
def shape : Json.Shape := ⟨"StreamDeletedEvent", [.required "stream_id" StreamId.ofJson]⟩

/-- Reads a marker. -/
def ofJson : Json.Decoder StreamDeleted := fun value => do
  let members ← shape.members value
  let stream ← Json.field members "stream_id" StreamId.ofJson
  pure { stream }

/-- The event that records the marker. -/
def event (marker : StreamDeleted) (id : EventId) : Event :=
  { id, typeName, payload := marker.toJson, metadata := .empty }

end StreamDeleted

end EventJournal
