import EventJournal.LogServer.Protocol
import EventJournal.Store.Basic
import EventJournal.Event.Marker

/-!
# A store over a log server

The operations of a store, each by a few requests to a log server. The server has no type filter, so
filtering happens here, and a limit is sent only when there is no filter. A failure of a request is
wrapped with the operation and the stream.

An empty batch sends nothing; only its expected version is compared with the extent of the stream.
Truncation and deletion append their marker by a request of its own.
-/

namespace EventJournal.LogServer

/-- The name of this kind of store. -/
def backend : String := "log_server"

/-- Reads the records of a stream or of the whole log; `none` when there is no such stream. -/
def readRecords (client : LogClient σ) (stream : StreamId) (request : ReadRequest) (state : σ) :
    Outcome (Option (List Record)) × σ :=
  if stream.isGlobal then
    let (outcome, state) := client.readAll request state
    (outcome.map fun records => some (records.map ServerRecord.toRecord), state)
  else
    let (outcome, state) := client.readStream stream request state
    (outcome.map fun records => records.map (·.map ServerRecord.toRecord), state)

/-- The same as an answer of the store, with its failure wrapped. -/
def readFor (client : LogClient σ) (operation : String) (stream : StreamId) (request : ReadRequest)
    (state : σ) : Answer σ (Option (List Record)) :=
  let (outcome, state) := readRecords client stream request state
  ⟨outcome.context operation stream, state, []⟩

/-- The position of the last record of a stream; the start if it has none. -/
def headPosition (client : LogClient σ) (stream : StreamId) (state : σ) : Outcome Position × σ :=
  let (outcome, state) := readRecords client stream .last state
  (outcome.map fun records =>
    ((records.bind List.head?).map (·.positionIn stream)).getD .start, state)

/-- The extent of a stream, from its first and its last record. -/
def bounds (client : LogClient σ) (stream : StreamId) (state : σ) : Answer σ StreamBounds :=
  (readFor client "get_stream" stream .first state).andThen fun first state =>
    (readFor client "get_stream" stream .last state).andThen fun last state =>
      match first.bind List.head?, last.bind List.head? with
      | some first, some last =>
        .unchanged state
          ⟨stream, ⟨(last.positionIn stream).value⟩, ⟨(first.positionIn stream).value⟩⟩
      | _, _ => .refused state (.streamNotFound stream)

/-- Compares an expected version with the extent of a stream. -/
def checkBounds (client : LogClient σ) (stream : StreamId) (expected : StreamVersion) (state : σ) :
    Answer σ Unit :=
  let answer := bounds client stream state
  let actual : Outcome StreamVersion := match answer.outcome with
    | .ok bounds => .ok bounds.version
    | .error error => if error.isStreamNotFound then .ok .initial else .error error
  { answer with outcome := actual.bind (checkExpected stream (some expected)) }

/-- Sends a batch and reads the server's verdict. -/
def send (client : LogClient σ) (stream : StreamId) (events : List Event)
    (expected : Option StreamVersion) (state : σ) : Answer σ (List Record) :=
  let (outcome, state) :=
    client.append stream (.ofVersion expected) (events.map ProposedEvent.ofEvent) state
  match outcome with
  | .error error => .refused state (error.withContext "append_to_stream" stream)
  | .ok (.success records) =>
    ⟨.ok (records.map ServerRecord.toRecord), state, [Sample.appended backend records.length]⟩
  | .ok (.wrongVersion actual) =>
    let actual := (actual.map fun revision => (⟨revision.toInt64⟩ : StreamVersion)).getD .initial
    ⟨.error (.concurrency stream (expected.getD .initial) actual), state, [Sample.conflict backend]⟩
  | .ok (.duplicate id) => .refused state (.duplicateEventId ⟨id⟩)

/-- Appends a batch as one unit. -/
def append (client : LogClient σ) (stream : StreamId) (events : List Event)
    (expected : Option StreamVersion) (state : σ) : Answer σ (List Record) :=
  match ensureWritable stream "append to" with
  | .error error => .refused state error
  | .ok () =>
    match checkUnique events with
    | .error error => .refused state error
    | .ok () =>
      if events.isEmpty then
        match expected with
        | none => .unchanged state []
        | some version => (checkBounds client stream version state).map fun _ => []
      else send client stream events expected state

/-- Reads a stream that exists, or the whole log. -/
def read (client : LogClient σ) (stream : StreamId) (options : ReadOptions) (state : σ) :
    Answer σ Slice :=
  let request : ReadRequest :=
    ⟨options.direction, options.position, if options.filter.isNone then options.maxCount else none⟩
  (readFor client "read_from_stream" stream request state).andThen fun records state =>
    match records with
    | none => .refused state (.streamNotFound stream)
    | some records =>
      .unchanged state
        ⟨stream, options.limit (records.filter fun record => options.admitsType record.typeName)⟩

/-- The revision a truncation keeps from: never below the first. -/
def cutRevision (before : Position) : UInt64 :=
  if before.value ≤ 0 then 0 else before.value.toUInt64

/-- Removes the records of a stream below a version, then appends a marker. -/
def truncate (client : LogClient σ) (stream : StreamId) (before : Position) (fresh : EventId)
    (state : σ) : Answer σ Unit :=
  match ensureRemovable stream "truncate" with
  | .error error => .refused state error
  | .ok () =>
    match client.truncate stream (cutRevision before) state with
    | (.error error, state) => .refused state (error.withContext "truncate_stream" stream)
    | (.ok (), state) =>
      (append client .markers [StreamTruncated.event ⟨stream, before⟩ fresh] none state).map
        fun _ => ()

/-- Removes a stream, then appends a marker if there was one. -/
def delete (client : LogClient σ) (stream : StreamId) (fresh : EventId) (state : σ) :
    Answer σ Unit :=
  match ensureRemovable stream "delete" with
  | .error error => .refused state error
  | .ok () =>
    match client.delete stream state with
    | (.error error, state) => .refused state (error.withContext "delete_stream" stream)
    | (.ok false, state) => .unchanged state ()
    | (.ok true, state) =>
      (append client .markers [StreamDeleted.event ⟨stream⟩ fresh] none state).map fun _ => ()

/-- Whether a stream exists; the whole log does when it has a record. -/
def exists? (client : LogClient σ) (stream : StreamId) (state : σ) : Answer σ Bool :=
  (readFor client "stream_exists" stream .first state).map fun records =>
    match records with
    | some records => if stream.isGlobal then !records.isEmpty else true
    | none => false

/-- A log server cannot be cleared. -/
def clear (state : σ) : Answer σ Unit := .refused state (.notImplemented backend "clear")

/-- The operations, with an id for the marker they may leave. -/
def store (client : LogClient σ) (fresh : EventId) : Store σ where
  name := backend
  append := append client
  read := read client
  truncate stream before := truncate client stream before fresh
  delete stream := delete client stream fresh
  exists? := exists? client
  bounds := bounds client
  clear := clear

end EventJournal.LogServer
