import EventJournal.Event.Options
import EventJournal.Metrics

/-!
# What every store does

A store keeps the records of many streams. An operation on a store of state `σ` gives an `Answer`: its
outcome, the state after it and the samples it reported. `Store σ` is the record of a store's
operations.

The checks here are the same in every store: the global stream cannot be written, the stream of
markers cannot be removed, a batch must not use an id twice, and an expected version must be the one
the stream has. `selectRecords` is the rule of reads.
-/

namespace EventJournal

/-- What an operation gives: its outcome, the state after it, the samples it reported. -/
structure Answer (σ α : Type) where
  outcome : Outcome α
  state : σ
  samples : MetricLog

namespace Answer

/-- An operation that fails and changes nothing. -/
def refused (state : σ) (error : StoreError) : Answer σ α := ⟨.error error, state, []⟩

/-- An operation that succeeds and changes nothing. -/
def unchanged (state : σ) (value : α) : Answer σ α := ⟨.ok value, state, []⟩

/-- The same with another value. -/
def map (answer : Answer σ α) (f : α → β) : Answer σ β :=
  { answer with outcome := answer.outcome.map f }

/-- Wraps the failure of an operation with its name and stream. -/
def context (answer : Answer σ α) (operation : String) (stream : StreamId) : Answer σ α :=
  { answer with outcome := answer.outcome.context operation stream }

/-- Goes on after a success; a failure ends the operation with what was done so far. -/
def andThen (answer : Answer σ α) (next : α → σ → Answer σ β) : Answer σ β :=
  match answer.outcome with
  | .error error => ⟨.error error, answer.state, answer.samples⟩
  | .ok value =>
    let after := next value answer.state
    { after with samples := answer.samples ++ after.samples }

end Answer

/-- The operations of a store of state `σ`. -/
structure Store (σ : Type) where
  name : String
  append : StreamId → List Event → Option StreamVersion → σ → Answer σ (List Record)
  read : StreamId → ReadOptions → σ → Answer σ Slice
  truncate : StreamId → Position → σ → Answer σ Unit
  delete : StreamId → σ → Answer σ Unit
  exists? : StreamId → σ → Answer σ Bool
  bounds : StreamId → σ → Answer σ StreamBounds
  clear : σ → Answer σ Unit

/-! ## Checks -/

/-- Refuses writes to the global stream. -/
def ensureWritable (stream : StreamId) (operation : String) : Outcome Unit :=
  if stream.isGlobal then .error (.globalNotWritable operation) else .ok ()

/-- Refuses to remove the global stream and the stream of markers. -/
def ensureRemovable (stream : StreamId) (operation : String) : Outcome Unit :=
  if stream.isGlobal then .error (.globalNotWritable operation)
  else if stream.isMarkers then .error (.internalProtected operation stream)
  else .ok ()

/-- Compares an expected version, if there is one, with the actual version. -/
def checkExpected (stream : StreamId) (expected : Option StreamVersion) (actual : StreamVersion) :
    Outcome Unit :=
  match expected with
  | some version =>
    if version = actual then .ok () else .error (.concurrency stream version actual)
  | none => .ok ()

/-- The first id of a list that occurs earlier in it, given the ids before. -/
def firstRepeated (seen : List EventId) : List EventId → Option EventId
  | [] => none
  | id :: rest => if id ∈ seen then some id else firstRepeated (id :: seen) rest

/-- Refuses a batch that uses an id twice. -/
def checkUnique (events : List Event) : Outcome Unit :=
  match firstRepeated [] (events.map Event.id) with
  | some id => .error (.duplicateEventId id)
  | none => .ok ()

/-! ## Reads -/

/-- Whether a read of `stream` admits a record. -/
def ReadOptions.admits (options : ReadOptions) (stream : StreamId) (record : Record) : Bool :=
  options.admitsPosition (record.positionIn stream) && options.admitsType record.typeName

/-- The records of a read among records in sequence order: those admitted, in the direction of the
read, up to the greatest count. -/
def selectRecords (stream : StreamId) (records : List Record) (options : ReadOptions) : List Record :=
  let ordered := match options.direction with
    | .forward => records
    | .backward => records.reverse
  options.limit (ordered.filter (options.admits stream))

/-- Whether a subscription or a read of `stream` concerns a record: the global stream has all. -/
def StreamId.concerns (stream : StreamId) (record : Record) : Bool :=
  stream.isGlobal || record.stream = stream

end EventJournal
