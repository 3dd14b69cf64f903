import EventJournal.Store.Basic
import EventJournal.Event.Marker
import EventJournal.Feed.Pump

/-!
# The store in memory

The reference store: all records in sequence order, the version of every stream, the ids in use and
the next sequence number. Each operation is one atomic step; what it appends goes to the subscribers
in the same step, so they see records in sequence order.

An append is decided by the first of these that applies: the stream is global; an id occurs twice in
the batch; the version is not the expected one; the batch is empty; an id is in use. Truncation and
deletion free the ids they remove and leave a marker; a truncated stream keeps its version.

The moment of an append and the id of a marker come from outside, as arguments.

Main statements: `MemoryStore.append_error_state` and `MemoryStore.append_ok`, an append changes
nothing or adds exactly the records it gives.
-/

namespace EventJournal

/-- The state of the store. -/
structure MemoryStore where
  /-- Every record, in sequence order. -/
  records : List Record
  /-- The version of every stream that exists. -/
  versions : List (StreamId × StreamVersion)
  /-- The ids in use. -/
  ids : List EventId
  nextSequence : SequenceNumber
  subscribers : Subscribers
  deriving Repr, DecidableEq, Inhabited

namespace MemoryStore

/-- The name of this kind of store. -/
def backend : String := "memory"

/-- A store without records. -/
def empty : MemoryStore := ⟨[], [], [], .first, .empty⟩

/-- The version of a stream, if it exists. -/
def version? (store : MemoryStore) (stream : StreamId) : Option StreamVersion :=
  store.versions.lookup stream

/-- The version of a stream; one that does not exist has the initial version. -/
def versionOf (store : MemoryStore) (stream : StreamId) : StreamVersion :=
  (store.version? stream).getD .initial

/-- The records of a stream. -/
def recordsOf (store : MemoryStore) (stream : StreamId) : List Record :=
  store.records.filter (·.stream = stream)

/-- The records that a read of `stream` looks at. -/
def readable (store : MemoryStore) (stream : StreamId) : List Record :=
  store.records.filter stream.concerns

/-- Sets the version of a stream. -/
def setVersion (versions : List (StreamId × StreamVersion)) (stream : StreamId)
    (version : StreamVersion) : List (StreamId × StreamVersion) :=
  (stream, version) :: versions.filter (·.1 ≠ stream)

/-! ## Appending -/

/-- The records of a batch, from a version and a sequence number on, and the version and the sequence
number after it. -/
def recordBatch (stream : StreamId) (now : Timestamp) :
    List Event → StreamVersion → SequenceNumber → List Record × StreamVersion × SequenceNumber
  | [], version, sequence => ([], version, sequence)
  | event :: rest, version, sequence =>
    let record : Record :=
      { event, stream, version := version.next, sequence, recordedAt := now }
    let (records, lastVersion, nextSequence) := recordBatch stream now rest version.next sequence.next
    (record :: records, lastVersion, nextSequence)

/-- The first event of a batch whose id is in use. -/
def duplicate? (store : MemoryStore) (events : List Event) : Option Event :=
  events.find? fun event => store.ids.contains event.id

/-- Adds a batch to a stream and queues it for the subscribers. -/
def add (store : MemoryStore) (stream : StreamId) (now : Timestamp) (events : List Event) :
    Answer MemoryStore (List Record) :=
  let (records, version, sequence) :=
    recordBatch stream now events (store.versionOf stream) store.nextSequence
  let (subscribers, samples) := store.subscribers.dispatch records
  { outcome := .ok records,
    state :=
      { records := store.records ++ records,
        versions := setVersion store.versions stream version,
        ids := store.ids ++ records.map Record.id,
        nextSequence := sequence,
        subscribers },
    samples := Sample.appended backend records.length :: samples }

/-- Appends a batch to a stream that may be written. -/
def appendChecked (store : MemoryStore) (stream : StreamId) (now : Timestamp) (events : List Event)
    (expected : Option StreamVersion) : Answer MemoryStore (List Record) :=
  match checkUnique events with
  | .error error => .refused store error
  | .ok () =>
    match checkExpected stream expected (store.versionOf stream) with
    | .error error => ⟨.error error, store, [Sample.conflict backend]⟩
    | .ok () =>
      if events.isEmpty then .unchanged store []
      else match store.duplicate? events with
        | some event => .refused store (.duplicateEventId event.id)
        | none => store.add stream now events

/-- Appends a batch as one unit. -/
def append (store : MemoryStore) (stream : StreamId) (now : Timestamp) (events : List Event)
    (expected : Option StreamVersion) : Answer MemoryStore (List Record) :=
  match ensureWritable stream "append to" with
  | .error error => .refused store error
  | .ok () => store.appendChecked stream now events expected

/-! ## Removing -/

/-- Removes the records that satisfy a predicate and frees their ids. -/
def removeWhere (store : MemoryStore) (gone : Record → Bool) : MemoryStore :=
  { store with
    records := store.records.filter (fun record => !gone record),
    ids := store.ids.filter (fun id => !(store.records.filter gone).any (·.id = id)) }

/-- The store without the records of a stream below a version; the stream keeps its version. -/
def withoutHead (store : MemoryStore) (stream : StreamId) (before : Position) : MemoryStore :=
  store.removeWhere fun record => record.stream = stream && record.version.position < before

/-- The store without a stream. -/
def withoutStream (store : MemoryStore) (stream : StreamId) : MemoryStore :=
  let kept := store.removeWhere (·.stream = stream)
  { kept with versions := kept.versions.filter (·.1 ≠ stream) }

/-- Leaves a marker. -/
def mark (store : MemoryStore) (now : Timestamp) (marker : Event) : Answer MemoryStore Unit :=
  (store.appendChecked .markers now [marker] none).map fun _ => ()

/-- Removes the records of a stream below a version and leaves a marker. -/
def truncate (store : MemoryStore) (stream : StreamId) (before : Position) (now : Timestamp)
    (fresh : EventId) : Answer MemoryStore Unit :=
  match ensureRemovable stream "truncate" with
  | .error error => .refused store error
  | .ok () =>
    match store.version? stream with
    | none => .refused store (.streamNotFound stream)
    | some _ =>
      (store.withoutHead stream before).mark now (StreamTruncated.event ⟨stream, before⟩ fresh)

/-- Removes a stream and leaves a marker; there is nothing to do for one that does not exist. -/
def delete (store : MemoryStore) (stream : StreamId) (now : Timestamp) (fresh : EventId) :
    Answer MemoryStore Unit :=
  match ensureRemovable stream "delete" with
  | .error error => .refused store error
  | .ok () =>
    match store.version? stream with
    | none => .unchanged store ()
    | some _ => (store.withoutStream stream).mark now (StreamDeleted.event ⟨stream⟩ fresh)

/-- Removes everything; sequence numbers start anew, and the subscribers are told. -/
def clear (store : MemoryStore) : Answer MemoryStore Unit :=
  ⟨.ok (), { empty with subscribers := store.subscribers.resetAll }, []⟩

/-! ## Reading -/

/-- Reads a stream that exists, or the global stream. -/
def read (store : MemoryStore) (stream : StreamId) (options : ReadOptions) : Outcome Slice :=
  if stream.isGlobal || (store.version? stream).isSome then
    .ok ⟨stream, selectRecords stream (store.readable stream) options⟩
  else .error (.streamNotFound stream)

/-- Whether a stream exists; the global one does when there is a record. -/
def exists? (store : MemoryStore) (stream : StreamId) : Bool :=
  if stream.isGlobal then !store.records.isEmpty else (store.version? stream).isSome

/-- The extent of a stream that has records. -/
def bounds (store : MemoryStore) (stream : StreamId) : Outcome StreamBounds :=
  if stream.isGlobal then
    match store.records.head?, store.records.getLast? with
    | some first, some last => .ok ⟨stream, ⟨last.sequence.value⟩, ⟨first.sequence.value⟩⟩
    | _, _ => .error (.streamNotFound stream)
  else match (store.recordsOf stream).head? with
    | some first => .ok ⟨stream, store.versionOf stream, first.version⟩
    | none => .error (.streamNotFound stream)

/-- The operations at a moment, with an id for the marker they may leave. -/
def store (now : Timestamp) (fresh : EventId) : Store MemoryStore where
  name := backend
  append stream events expected store := store.append stream now events expected
  read stream options store := ⟨store.read stream options, store, []⟩
  truncate stream before store := store.truncate stream before now fresh
  delete stream store := store.delete stream now fresh
  exists? stream store := .unchanged store (store.exists? stream)
  bounds stream store := ⟨store.bounds stream, store, []⟩
  clear := clear

/-! ## Subscribing -/

/-- The records a subscription starts with. -/
def backlog (store : MemoryStore) (stream : StreamId) (options : SubscribeOptions) : List Record :=
  match options.backlogStart with
  | some position =>
    selectRecords stream (store.readable stream) { ReadOptions.forward with position }
  | none => []

/-- Opens a subscription: registration and backlog are one step, so no append falls between them. -/
def subscribe (store : MemoryStore) (stream : StreamId) (options : SubscribeOptions) :
    MemoryStore × Channel × Pump × MetricLog :=
  let (number, subscribers, samples) := store.subscribers.register stream
  let channel := Channel.create stream options
  ({ store with subscribers }, channel, .create channel (store.backlog stream options) number,
    samples ++ [Sample.subscriptionOpened])

/-! ## What an append does -/

theorem append_error_state {store : MemoryStore} {stream : StreamId} {now : Timestamp}
    {events : List Event} {expected : Option StreamVersion} {error : StoreError}
    (h : (store.append stream now events expected).outcome = .error error) :
    (store.append stream now events expected).state = store := by
  unfold append at *
  split
  · rfl
  · rename_i hw
    rw [hw] at h
    simp only [appendChecked] at *
    split
    · rfl
    · rename_i hu
      rw [hu] at h
      simp only at h
      split
      · rfl
      · rename_i he
        rw [he] at h
        simp only at h
        split
        · rfl
        · rename_i hne
          rw [if_neg hne] at h
          split
          · rfl
          · rename_i hd
            rw [hd] at h
            simp [add] at h

theorem append_ok {store : MemoryStore} {stream : StreamId} {now : Timestamp}
    {events : List Event} {expected : Option StreamVersion} {records : List Record}
    (h : (store.append stream now events expected).outcome = .ok records) :
    (store.append stream now events expected).state.records = store.records ++ records := by
  unfold append at *
  split
  · rename_i hw
    simp [hw, Answer.refused] at h
  · rename_i hw
    rw [hw] at h
    simp only [appendChecked] at *
    split
    · rename_i hu
      simp [hu, Answer.refused] at h
    · rename_i hu
      rw [hu] at h
      simp only at h
      split
      · rename_i he
        simp [he] at h
      · rename_i he
        rw [he] at h
        simp only at h
        split
        · rename_i hne
          rw [if_pos hne] at h
          simp [Answer.unchanged] at h
          simp [Answer.unchanged, h]
        · rename_i hne
          rw [if_neg hne] at h
          split
          · rename_i hd
            simp [hd, Answer.refused] at h
          · rename_i hd
            rw [hd] at h
            simp only [add] at h ⊢
            injection h with h
            rw [h]

end MemoryStore

end EventJournal
