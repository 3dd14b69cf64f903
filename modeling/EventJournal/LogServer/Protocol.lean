import EventJournal.Error.Basic
import EventJournal.Event.Codec

/-!
# The log server's protocol

A log server counts the events of a stream by revisions, from zero, and all events by commit
positions, from one; both are unsigned words. Revisions stand for versions and commit positions for
sequence numbers, word for word, so that the upper half of the unsigned words stands for negative
numbers.

Main statements: `ServerRecord.toRecord_event`, a record read from the server has the event that was
proposed.
-/

namespace EventJournal

/-- What an append expects of a stream. -/
inductive ExpectedRevision where
  | any
  | noStream
  | exact (revision : UInt64)
  deriving Repr, DecidableEq, Inhabited

namespace ExpectedRevision

/-- The expectation of a version: the initial one means no stream. -/
def ofVersion : Option StreamVersion → ExpectedRevision
  | none => .any
  | some version => if version.isInitial then .noStream else .exact version.value.toUInt64

/-- An expectation as JSON. -/
def toJson : ExpectedRevision → Json
  | any => .obj [("kind", .str "any")]
  | noStream => .obj [("kind", .str "noStream")]
  | exact revision => .obj [("kind", .str "exact"), ("revision", Json.ofUInt64 revision)]

/-- The kinds of expectations. -/
inductive Kind where
  | any
  | noStream
  | exact
  deriving Repr, DecidableEq

/-- The kinds by name. -/
def kinds : List (String × Kind) := [("any", .any), ("noStream", .noStream), ("exact", .exact)]

/-- What an expectation is called in messages. -/
def expectation : String := "adjacently tagged enum ExpectedRevision"

/-- The content of a kind that has none: it may be null. -/
def plain (value : ExpectedRevision) (variant : String) : Json.Decoder ExpectedRevision
  | .null => .ok value
  | other => Json.refuse other ("unit variant ExpectedRevision::" ++ variant)

/-- The expectation of a kind with content. -/
def ofContent : Kind → Json.Decoder ExpectedRevision
  | .any => plain .any "Any"
  | .noStream => plain .noStream "NoStream"
  | .exact => fun revision => (Json.Decoder.uint64 revision).map .exact

/-- The expectation of a kind without content; an exact one has to have some. -/
def ofKind : Kind → Except Json.DecodeError ExpectedRevision
  | .any => .ok .any
  | .noStream => .ok .noStream
  | .exact => .error (.missingField "revision")

/-- Reads an expectation from an object. -/
def ofMembers (fields : Fields) : Except Json.DecodeError ExpectedRevision :=
  match Fields.get? fields "kind" with
  | none => .error (.missingField "kind")
  | some kind => do
    let kind ← Json.Decoder.variant kinds kind
    match Fields.get? fields "revision" with
    | none => ofKind kind
    | some revision => ofContent kind revision

/-- Reads an expectation from a list of a kind and its content. What goes beyond them is refused after they
were read. -/
def ofItems : List Json → Except Json.DecodeError ExpectedRevision
  | [] => .error (.invalidLength 0 expectation)
  | kind :: items => do
    let kind ← Json.Decoder.identifier kinds kind
    match items with
    | [] => .error (.invalidLength 1 expectation)
    | content :: more =>
      let expected ← ofContent kind content
      if more.isEmpty then pure expected
      else .error (.invalidLength (more.length + 2) "fewer elements in array")

/-- Reads an expectation. -/
def ofJson : Json.Decoder ExpectedRevision
  | .obj fields => ofMembers fields
  | .arr items => ofItems items
  | value => Json.refuse value expectation

end ExpectedRevision

/-! ## Events and records on the wire -/

/-- An event proposed for appending. -/
structure ProposedEvent where
  eventId : String
  eventType : String
  data : Json
  metadata : Fields
  deriving Repr, DecidableEq, Inhabited

namespace ProposedEvent

/-- The proposal of an event. -/
def ofEvent (event : Event) : ProposedEvent :=
  { eventId := event.id.name, eventType := event.typeName, data := event.payload,
    metadata := event.metadata.fields }

/-- A proposal as JSON. -/
def toJson (proposed : ProposedEvent) : Json :=
  .obj [("data", proposed.data), ("eventId", .str proposed.eventId),
    ("eventType", .str proposed.eventType), ("metadata", .obj proposed.metadata)]

/-- The fields of a proposal. -/
def shape : Json.Shape :=
  ⟨"ProposedEvent", [.required "eventId" Json.Decoder.string,
    .required "eventType" Json.Decoder.string, .required "data" Json.Decoder.any,
    .defaulted "metadata" Json.Decoder.fields]⟩

/-- Reads a proposal. -/
def ofJson : Json.Decoder ProposedEvent := fun value => do
  let members ← shape.members value
  let eventId ← Json.field members "eventId" Json.Decoder.string
  let eventType ← Json.field members "eventType" Json.Decoder.string
  let data ← Json.field members "data" Json.Decoder.any
  let metadata ← Json.fieldD members "metadata" Json.Decoder.fields []
  pure { eventId, eventType, data, metadata }

end ProposedEvent

/-- A record as the server keeps it. -/
structure ServerRecord where
  eventId : String
  eventType : String
  stream : String
  revision : UInt64
  commitPosition : UInt64
  data : Json
  metadata : Fields
  created : Timestamp
  deriving Repr, DecidableEq, Inhabited

namespace ServerRecord

/-- The record of the journal that a server's record stands for. -/
def toRecord (record : ServerRecord) : Record :=
  { event :=
      { id := ⟨record.eventId⟩, typeName := record.eventType, payload := record.data,
        metadata := ⟨record.metadata⟩ },
    stream := ⟨record.stream⟩,
    version := ⟨record.revision.toInt64⟩,
    sequence := ⟨record.commitPosition.toInt64⟩,
    recordedAt := record.created }

/-- The server's record of a proposal. -/
def ofProposed (proposed : ProposedEvent) (stream : String) (revision commitPosition : UInt64)
    (created : Timestamp) : ServerRecord :=
  { eventId := proposed.eventId, eventType := proposed.eventType, stream, revision, commitPosition,
    data := proposed.data, metadata := proposed.metadata, created }

/-- A server's record as JSON. -/
def toJson (record : ServerRecord) : Json :=
  .obj [("commitPosition", Json.ofUInt64 record.commitPosition),
    ("created", .str record.created.text), ("data", record.data),
    ("eventId", .str record.eventId), ("eventType", .str record.eventType),
    ("metadata", .obj record.metadata), ("revision", Json.ofUInt64 record.revision),
    ("stream", .str record.stream)]

/-- The fields of a server's record. -/
def shape : Json.Shape :=
  ⟨"ServerRecord", [.required "eventId" Json.Decoder.string,
    .required "eventType" Json.Decoder.string, .required "stream" Json.Decoder.string,
    .required "revision" Json.Decoder.uint64, .required "commitPosition" Json.Decoder.uint64,
    .required "data" Json.Decoder.any, .defaulted "metadata" Json.Decoder.fields,
    .required "created" Timestamp.ofJson]⟩

/-- Reads a server's record. -/
def ofJson : Json.Decoder ServerRecord := fun value => do
  let members ← shape.members value
  let eventId ← Json.field members "eventId" Json.Decoder.string
  let eventType ← Json.field members "eventType" Json.Decoder.string
  let stream ← Json.field members "stream" Json.Decoder.string
  let revision ← Json.field members "revision" Json.Decoder.uint64
  let commitPosition ← Json.field members "commitPosition" Json.Decoder.uint64
  let data ← Json.field members "data" Json.Decoder.any
  let metadata ← Json.fieldD members "metadata" Json.Decoder.fields []
  let created ← Json.field members "created" Timestamp.ofJson
  pure { eventId, eventType, stream, revision, commitPosition, data, metadata, created }

theorem toRecord_event (event : Event) (stream : String) (revision commit : UInt64)
    (created : Timestamp) :
    (ofProposed (.ofEvent event) stream revision commit created).toRecord.event = event := by
  cases event
  rfl

end ServerRecord

/-! ## Requests and answers -/

/-- What an append came to. -/
inductive AppendResult where
  | success (records : List ServerRecord)
  | wrongVersion (actual : Option UInt64)
  | duplicate (eventId : String)
  deriving Repr, DecidableEq, Inhabited

/-- A read of a stream by revisions, or of the whole log by commit positions. -/
structure ReadRequest where
  direction : Direction
  /-- The record here is not read. -/
  cursor : Position
  limit : Option Nat
  deriving Repr, DecidableEq, Inhabited

namespace ReadRequest

/-- Forward from a cursor. -/
def forward (cursor : Position) : ReadRequest := ⟨.forward, cursor, none⟩

/-- The first record. -/
def first : ReadRequest := ⟨.forward, .start, some 1⟩

/-- The last record. -/
def last : ReadRequest := ⟨.backward, .last, some 1⟩

/-- A request as JSON; a limit that is absent is left out. -/
def toJson (request : ReadRequest) : Json :=
  .obj ([("direction", .str request.direction.text), ("from", Json.ofInt64 request.cursor.value)] ++
    (request.limit.map fun count => ("limit", Json.int count)).toList)

end ReadRequest

/-- What the journal needs of a log server, over a state `σ` of the server or of the way to it. -/
structure LogClient (σ : Type) where
  append : StreamId → ExpectedRevision → List ProposedEvent → σ → Outcome AppendResult × σ
  /-- Reads a stream; `none` when there is no such stream. -/
  readStream : StreamId → ReadRequest → σ → Outcome (Option (List ServerRecord)) × σ
  readAll : ReadRequest → σ → Outcome (List ServerRecord) × σ
  /-- Drops the records below a revision. -/
  truncate : StreamId → UInt64 → σ → Outcome Unit × σ
  /-- Removes a stream; says whether there was one. -/
  delete : StreamId → σ → Outcome Bool × σ

end EventJournal
