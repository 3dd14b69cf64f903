import EventJournal.LogServer.Protocol

/-!
# A model log server

A log server as a value: the next revision of every stream, the records in commit order, the ids in
use and the last commit position. A record is created as many seconds after the start of 2024 as its
commit position says.

Reads go strictly beyond their cursor. Truncation and deletion free the ids they remove; a truncated
stream keeps its next revision.
-/

namespace EventJournal

/-- The state of the server. -/
structure LogModel where
  /-- The next revision of every stream that exists. -/
  heads : List (StreamId × Nat)
  /-- The records, in commit order. -/
  records : List ServerRecord
  /-- The ids in use. -/
  ids : List String
  lastCommit : Nat
  deriving Repr, DecidableEq, Inhabited

namespace LogModel

/-- A server without streams. -/
def empty : LogModel := ⟨[], [], [], 0⟩

/-- The next revision of a stream, if it exists. -/
def head? (server : LogModel) (stream : StreamId) : Option Nat := server.heads.lookup stream

/-- Whether a stream of a given head is as an append expects it. -/
def meets (expected : ExpectedRevision) (head : Option Nat) : Bool :=
  match expected, head with
  | .any, _ => true
  | .noStream, head => head.isNone
  | .exact revision, some (next + 1) => revision.toNat = next
  | .exact _, _ => false

/-- The revision of the last event of a stream of a given head. -/
def lastRevision (head : Option Nat) : Option UInt64 :=
  match head with
  | some (next + 1) => some (UInt64.ofNat next)
  | _ => none

/-- The records of a batch, from a revision and a last commit position on. -/
def recordBatch (stream : StreamId) : List ProposedEvent → Nat → Nat → List ServerRecord
  | [], _, _ => []
  | event :: rest, revision, commit =>
    .ofProposed event stream.name (UInt64.ofNat revision) (UInt64.ofNat (commit + 1))
        (Timestamp.start2024.addSeconds (commit + 1 : Nat)) ::
      recordBatch stream rest (revision + 1) (commit + 1)

/-- Appends a batch if the stream is as expected and no id is in use. -/
def append (server : LogModel) (stream : StreamId) (expected : ExpectedRevision)
    (events : List ProposedEvent) : AppendResult × LogModel :=
  let head := server.head? stream
  if !meets expected head then (.wrongVersion (lastRevision head), server)
  else match events.find? fun event => server.ids.contains event.eventId with
    | some event => (.duplicate event.eventId, server)
    | none =>
      let records := recordBatch stream events (head.getD 0) server.lastCommit
      (.success records,
        { heads :=
            (stream, head.getD 0 + events.length) :: server.heads.filter (·.1 ≠ stream),
          records := server.records ++ records,
          ids := server.ids ++ events.map ProposedEvent.eventId,
          lastCommit := server.lastCommit + events.length })

/-- The records of a read, given the number that counts them. -/
def select (records : List ServerRecord) (number : ServerRecord → UInt64) (request : ReadRequest) :
    List ServerRecord :=
  let beyond := match request.direction with
    | .forward => records.filter fun record => request.cursor.toInt < (number record).toNat
    | .backward =>
      (records.filter fun record => ((number record).toNat : Int) < request.cursor.toInt).reverse
  match request.limit with
  | some count => beyond.take count
  | none => beyond

/-- Reads a stream by revisions; `none` when there is no such stream. -/
def readStream (server : LogModel) (stream : StreamId) (request : ReadRequest) :
    Option (List ServerRecord) :=
  (server.head? stream).map fun _ =>
    select (server.records.filter (·.stream = stream.name)) ServerRecord.revision request

/-- Reads the whole log by commit positions. -/
def readAll (server : LogModel) (request : ReadRequest) : List ServerRecord :=
  select server.records ServerRecord.commitPosition request

/-- Removes records and frees their ids. -/
def removeWhere (server : LogModel) (gone : ServerRecord → Bool) : LogModel :=
  { server with
    records := server.records.filter (fun record => !gone record),
    ids := server.ids.filter (fun id => !(server.records.filter gone).any (·.eventId = id)) }

/-- Drops the records of a stream below a revision. -/
def truncate (server : LogModel) (stream : StreamId) (before : UInt64) : Outcome Unit × LogModel :=
  match server.head? stream with
  | none => (.error (.streamNotFound stream), server)
  | some _ =>
    (.ok (), server.removeWhere fun record =>
      record.stream = stream.name && record.revision < before)

/-- Removes a stream; says whether there was one. -/
def delete (server : LogModel) (stream : StreamId) : Bool × LogModel :=
  match server.head? stream with
  | none => (false, server)
  | some _ =>
    let kept := server.removeWhere (·.stream = stream.name)
    (true, { kept with heads := kept.heads.filter (·.1 ≠ stream) })

/-- The model as a log server. -/
def client : LogClient LogModel where
  append stream expected events server :=
    let (result, server) := server.append stream expected events
    (.ok result, server)
  readStream stream request server := (.ok (server.readStream stream request), server)
  readAll request server := (.ok (server.readAll request), server)
  truncate stream before server := server.truncate stream before
  delete stream server :=
    let (existed, server) := server.delete stream
    (.ok existed, server)

end LogModel

end EventJournal
