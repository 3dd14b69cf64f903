import EventJournal.Event.Id
import EventJournal.Json.Basic
import EventJournal.Time.Timestamp

/-!
# Events and records

A writer hands over an `Event`; a store that accepts it makes a `Record`: the event with its stream,
its version there, its sequence number and the time. A record is made once and never changes.

A `Slice` is an ordered run of records read from one stream, and `StreamBounds` the versions of the
first and the last event of a stream.
-/

namespace EventJournal

/-! ## Metadata -/

/-- Values attached to an event by key. -/
structure Metadata where
  fields : Fields
  deriving Repr, DecidableEq, Inhabited

namespace Metadata

/-- No metadata. -/
def empty : Metadata := ⟨[]⟩

/-- The key of the correlation id. -/
def correlationKey : String := "correlation_id"

/-- The key of the id of the event that caused this one. -/
def causationKey : String := "causation_id"

/-- The value at a key. -/
def get? (metadata : Metadata) (key : String) : Option Json := metadata.fields.get? key

/-- Sets the value at a key. -/
def insert (metadata : Metadata) (key : String) (value : Json) : Metadata :=
  ⟨metadata.fields.insert key value⟩

/-- Removes a key. -/
def erase (metadata : Metadata) (key : String) : Metadata := ⟨metadata.fields.erase key⟩

/-- Sets the correlation id. -/
def withCorrelation (metadata : Metadata) (id : String) : Metadata :=
  metadata.insert correlationKey (.str id)

/-- Sets the id of the causing event. -/
def withCausation (metadata : Metadata) (cause : EventId) : Metadata :=
  metadata.insert causationKey (.str cause.name)

/-- The correlation id, if it is a string. -/
def correlation? (metadata : Metadata) : Option String :=
  (metadata.get? correlationKey).bind Json.asStr?

/-- The id of the causing event, if it is a string. -/
def causation? (metadata : Metadata) : Option String :=
  (metadata.get? causationKey).bind Json.asStr?

/-- Whether there is no key. -/
def isEmpty (metadata : Metadata) : Bool := metadata.fields.isEmpty

end Metadata

/-! ## Events -/

/-- An event that is not appended yet. -/
structure Event where
  id : EventId
  typeName : String
  payload : Json
  metadata : Metadata
  deriving Repr, DecidableEq, Inhabited

/-- An event as a store keeps it. -/
structure Record where
  event : Event
  stream : StreamId
  version : StreamVersion
  sequence : SequenceNumber
  recordedAt : Timestamp
  deriving Repr, DecidableEq, Inhabited

namespace Record

/-- The id of the event. -/
def id (record : Record) : EventId := record.event.id

/-- The type of the event. -/
def typeName (record : Record) : String := record.event.typeName

/-- The position of a record read through `stream`: its sequence number on the global stream, its
version on any other. -/
def positionIn (record : Record) (stream : StreamId) : Position :=
  if stream.isGlobal then record.sequence.position else record.version.position

theorem positionIn_global (record : Record) :
    record.positionIn StreamId.global = record.sequence.position := rfl

theorem positionIn_of_ne_global (record : Record) {stream : StreamId} (h : stream ≠ StreamId.global) :
    record.positionIn stream = record.version.position := by
  simp [positionIn, StreamId.isGlobal, h]

end Record

/-! ## Slices and bounds -/

/-- An ordered run of records read from one stream. -/
structure Slice where
  stream : StreamId
  records : List Record
  deriving Repr, DecidableEq, Inhabited

namespace Slice

/-- The records that satisfy a predicate, in their order. -/
def select (slice : Slice) (keep : Record → Bool) : Slice :=
  { slice with records := slice.records.filter keep }

/-- The same records in reverse order. -/
def reversed (slice : Slice) : Slice := { slice with records := slice.records.reverse }

theorem reversed_reversed (slice : Slice) : slice.reversed.reversed = slice := by
  simp [reversed]

end Slice

/-- The extent of a stream. -/
structure StreamBounds where
  id : StreamId
  /-- The version of the last event. -/
  version : StreamVersion
  /-- The version of the first event still kept. -/
  initialVersion : StreamVersion
  deriving Repr, DecidableEq, Inhabited

end EventJournal
