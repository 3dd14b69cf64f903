import Mathlib.Data.List.Find
import EventJournal.Proofs.Store.Soundness

/-!
# Streams are independent

Writers of different streams share the ids in use and the counter of sequence numbers, and nothing else. So as
long as they use different ids they do not notice each other: whatever way their appends are interleaved, each
gets the outcomes that it would get alone. The interleaving shows only in sequence numbers and in the order of
the global stream.

* `Alike` — two stores that a writer of one stream cannot tell apart, as far as ids of its own go.
* `Alike.append` and `alike_append` — what the writer's own appends and those of others do to it.
* `alike_run` and `alike_alone` — a run is alike to the run of one writer alone.
* `appends_interleave` — the main statement, for every store.
-/

namespace EventJournal

/-! ## What does not depend on other streams -/

/-- The record up to its sequence number and its moment. -/
def Record.unplaced (record : Record) : Record :=
  { record with sequence := default, recordedAt := default }

/-- The slice up to the sequence numbers and the moments of its records. -/
def Slice.unplaced (slice : Slice) : Slice :=
  { slice with records := slice.records.map Record.unplaced }

/-- A read of any stream but the global one looks neither at sequence numbers nor at moments. -/
theorem map_unplaced_selectRecords {stream : StreamId} (h : stream ≠ .global) (records : List Record)
    (options : ReadOptions) :
    (selectRecords stream records options).map Record.unplaced
      = selectRecords stream (records.map Record.unplaced) options := by
  have hadmits : options.admits stream ∘ Record.unplaced = options.admits stream := by
    funext record
    simp only [Function.comp_apply, ReadOptions.admits, Record.positionIn_of_ne_global _ h]
    rfl
  have hlimit (items : List Record) :
      (options.limit items).map Record.unplaced = options.limit (items.map Record.unplaced) := by
    unfold ReadOptions.limit
    cases options.maxCount with
    | none => rfl
    | some count => exact List.map_take
  unfold selectRecords
  cases options.direction with
  | forward => simp only [hlimit, List.filter_map, hadmits]
  | backward => simp only [hlimit, ← List.map_reverse, List.filter_map, hadmits]

/-! ## Sending batches -/

/-- A batch as its writer wants it appended. -/
structure Batch where
  events : List Event
  expected : Option StreamVersion
  deriving Repr, DecidableEq, Inhabited

/-- A batch that arrives for a stream at a moment. -/
structure Submission where
  stream : StreamId
  batch : Batch
  now : Timestamp
  deriving Repr, DecidableEq, Inhabited

/-- The append of a submission. -/
def Submission.write (sent : Submission) : MemoryStore.Write :=
  .append sent.stream sent.batch.events sent.batch.expected sent.now

/-- What the store answers. -/
def Submission.outcome (sent : Submission) (store : MemoryStore) : Outcome (List Record) :=
  (store.append sent.stream sent.now sent.batch.events sent.batch.expected).outcome

/-- The batch arrives for a stream at no particular moment. -/
def Batch.sentTo (batch : Batch) (stream : StreamId) : Submission := ⟨stream, batch, default⟩

/-- The batches for a stream among submissions. -/
def sequencesOf (submissions : List Submission) (stream : StreamId) : List Batch :=
  (submissions.filter (·.stream = stream)).map Submission.batch

/-- An id is used by the batches for a stream. -/
def Uses (sequences : StreamId → List Batch) (stream : StreamId) (id : EventId) : Prop :=
  ∃ batch ∈ sequences stream, ∃ event ∈ batch.events, event.id = id

/-- No id is used for two streams. -/
def Unshared (sequences : StreamId → List Batch) : Prop :=
  ∀ id stream other, Uses sequences stream id → Uses sequences other id → other = stream

/-- An id is a stream's own: no other stream uses it. -/
def Owns (sequences : StreamId → List Batch) (stream : StreamId) (id : EventId) : Prop :=
  ∀ other, Uses sequences other id → other = stream

/-- The submissions are an interleaving of one sequence of batches for each stream: they keep each sequence in
its order. -/
def Interleaves (submissions : List Submission) (sequences : StreamId → List Batch) : Prop :=
  ∀ stream, sequencesOf submissions stream = sequences stream

/-- What is sent uses ids for its stream. -/
theorem Interleaves.uses {submissions : List Submission} {sequences : StreamId → List Batch}
    (h : Interleaves submissions sequences) {sent : Submission} (hsent : sent ∈ submissions)
    {event : Event} (hevent : event ∈ sent.batch.events) : Uses sequences sent.stream event.id := by
  refine ⟨sent.batch, ?_, event, hevent, rfl⟩
  rw [← h sent.stream]
  exact List.mem_map_of_mem (List.mem_filter.mpr ⟨hsent, decide_eq_true rfl⟩)

theorem interleaves_sequencesOf (submissions : List Submission) :
    Interleaves submissions (sequencesOf submissions) :=
  fun _ => rfl

/-- Submissions keep the streams apart if no two for different streams use one id. -/
theorem unshared_sequencesOf {submissions : List Submission}
    (h : ∀ sent ∈ submissions, ∀ other ∈ submissions, ∀ event ∈ sent.batch.events,
      event.id ∈ other.batch.events.map Event.id → other.stream = sent.stream) :
    Unshared (sequencesOf submissions) := by
  rintro id stream other ⟨batch, hbatch, event, hevent, rfl⟩ ⟨batch', hbatch', event', hevent', hid⟩
  obtain ⟨sent, hsent, rfl⟩ := List.mem_map.mp hbatch
  obtain ⟨sent', hsent', rfl⟩ := List.mem_map.mp hbatch'
  obtain ⟨hsent, hstream⟩ := List.mem_filter.mp hsent
  obtain ⟨hsent', hstream'⟩ := List.mem_filter.mp hsent'
  have hsame := h sent hsent sent' hsent' event hevent (List.mem_map.mpr ⟨event', hevent', hid⟩)
  rw [← of_decide_eq_true hstream, ← of_decide_eq_true hstream', hsame]

/-- The ids of what is sent are own ids of its stream, and of no other. -/
theorem Interleaves.owns_iff {submissions : List Submission} {sequences : StreamId → List Batch}
    (h : Interleaves submissions sequences) (unshared : Unshared sequences) (stream : StreamId) :
    ∀ sent ∈ submissions, ∀ event ∈ sent.batch.events,
      Owns sequences stream event.id ↔ sent.stream = stream := by
  intro sent hsent event hevent
  have huses := h.uses hsent hevent
  constructor
  · intro hown
    exact hown sent.stream huses
  · rintro rfl other hother
    exact unshared _ _ _ huses hother

theorem SequenceNumber.plus_plus (sequence : SequenceNumber) (count more : Nat) :
    (sequence.plus count).plus more = sequence.plus (count + more) := by
  rw [plus, plus, plus, Int64.ofNat_add, Int64.add_assoc]

namespace MemoryStore

/-- The outcomes of the submissions for a stream, in order, up to sequence numbers and moments. -/
def outcomesOf (stream : StreamId) : List Submission → MemoryStore → List (Outcome (List Record))
  | [], _ => []
  | sent :: rest, store =>
    if sent.stream = stream then
      (sent.outcome store).map (·.map Record.unplaced) :: outcomesOf stream rest (sent.write.after store)
    else outcomesOf stream rest (sent.write.after store)

/-! ## What a writer can tell -/

/-- A writer of the stream who uses only ids of its own cannot tell the stores apart. -/
structure Alike (stream : StreamId) (own : EventId → Prop) (store other : MemoryStore) : Prop where
  version : store.version? stream = other.version? stream
  ids : ∀ id, own id → (id ∈ store.ids ↔ id ∈ other.ids)
  records : (store.recordsOf stream).map Record.unplaced = (other.recordsOf stream).map Record.unplaced

variable {stream : StreamId} {own : EventId → Prop} {store other third : MemoryStore}

theorem Alike.refl (stream : StreamId) (own : EventId → Prop) (store : MemoryStore) :
    Alike stream own store store :=
  ⟨rfl, fun _ _ => Iff.rfl, rfl⟩

theorem Alike.symm (h : Alike stream own store other) : Alike stream own other store :=
  ⟨h.version.symm, fun id hid => (h.ids id hid).symm, h.records.symm⟩

theorem Alike.trans (h : Alike stream own store other) (h' : Alike stream own other third) :
    Alike stream own store third :=
  ⟨h.version.trans h'.version, fun id hid => (h.ids id hid).trans (h'.ids id hid),
    h.records.trans h'.records⟩

theorem Alike.versionOf (h : Alike stream own store other) :
    store.versionOf stream = other.versionOf stream := by
  rw [MemoryStore.versionOf, h.version]
  rfl

/-- A batch gets the same records, but for sequence numbers and moments. -/
theorem Alike.batch (h : Alike stream own store other) (now moment : Timestamp) (events : List Event) :
    (store.batch stream now events).map Record.unplaced
      = (other.batch stream moment events).map Record.unplaced := by
  refine List.ext_getElem? fun place => ?_
  simp only [MemoryStore.batch, h.versionOf, List.getElem?_map, List.getElem?_mapIdx, Option.map_map]
  rfl

theorem Alike.duplicate? (h : Alike stream own store other) {events : List Event}
    (mine : ∀ event ∈ events, own event.id) : store.duplicate? events = other.duplicate? events := by
  refine List.find?_congr fun event hevent => ?_
  rw [Bool.eq_iff_iff, List.contains_iff_mem, List.contains_iff_mem]
  exact h.ids event.id (mine event hevent)

theorem Alike.add (h : Alike stream own store other) (now moment : Timestamp) (events : List Event) :
    Alike stream own (store.add stream now events).state (other.add stream moment events).state where
  version := by
    rw [version?_add, version?_add, if_pos rfl, if_pos rfl, h.versionOf]
  ids id hid := by
    simp only [add_eq, List.mem_append, map_id_batch, h.ids id hid]
  records := by
    rw [recordsOf_add, recordsOf_add, if_pos rfl, if_pos rfl, List.map_append, List.map_append,
      h.records, h.batch now moment]

/-- Appends of its own, at any moments, have the same outcome, and it still cannot tell the stores apart. -/
theorem Alike.append (h : Alike stream own store other) {events : List Event}
    (mine : ∀ event ∈ events, own event.id) (expected : Option StreamVersion)
    (now moment : Timestamp) :
    (store.append stream now events expected).outcome.map (·.map Record.unplaced)
        = (other.append stream moment events expected).outcome.map (·.map Record.unplaced) ∧
      Alike stream own (store.append stream now events expected).state
        (other.append stream moment events expected).state := by
  by_cases hglobal : stream = .global
  · rw [append_of_global _ _ _ _ hglobal, append_of_global _ _ _ _ hglobal]
    exact ⟨rfl, h⟩
  rw [append_of_ne_global _ _ _ _ hglobal, append_of_ne_global _ _ _ _ hglobal]
  unfold appendChecked
  -- each check asks for what is the same in both stores
  rw [h.versionOf, h.duplicate? mine]
  cases checkUnique events with
  | error error => exact ⟨rfl, h⟩
  | ok _ =>
    cases checkExpected stream expected (other.versionOf stream) with
    | error error => exact ⟨rfl, h⟩
    | ok _ =>
      by_cases hempty : events.isEmpty
      · simp only [hempty, if_true]
        exact ⟨rfl, h⟩
      · simp only [hempty]
        cases other.duplicate? events with
        | some event => exact ⟨rfl, h⟩
        | none =>
          constructor
          · show (store.add stream now events).outcome.map _
              = (other.add stream moment events).outcome.map _
            rw [add_eq, add_eq]
            exact congrArg Except.ok (h.batch now moment events)
          · exact h.add now moment events

/-- It does not notice an append to another stream that leaves its ids alone. -/
theorem alike_append (store : MemoryStore) {target : StreamId} (other : target ≠ stream)
    {events : List Event} (foreign : ∀ event ∈ events, ¬ own event.id)
    (expected : Option StreamVersion) (now : Timestamp) :
    Alike stream own (store.append target now events expected).state store := by
  by_cases hglobal : target = .global
  · rw [append_of_global _ _ _ _ hglobal]
    exact .refl ..
  rw [append_of_ne_global _ _ _ _ hglobal]
  rcases store.appendChecked_cases now events expected hglobal with hsame | ⟨-, hadded⟩
  · rw [hsame]
    exact .refl ..
  · rw [hadded]
    constructor
    case version => rw [version?_add, if_neg other.symm]
    case ids =>
      intro id hid
      have hnew : id ∉ events.map Event.id := by
        intro hmem
        obtain ⟨event, hevent, rfl⟩ := List.mem_map.mp hmem
        exact foreign event hevent hid
      simp only [add_eq, map_id_batch, List.mem_append, hnew, or_false]
    case records => rw [recordsOf_add, if_neg other.symm, List.append_nil]

/-! ## Runs -/

/-- A run is to the writer of a stream what the run of its own batches alone would be. -/
theorem alike_run (h : Alike stream own store other) (submissions : List Submission)
    (mine : ∀ sent ∈ submissions, ∀ event ∈ sent.batch.events,
      own event.id ↔ sent.stream = stream) :
    let alone := (sequencesOf submissions stream).map (·.sentTo stream)
    outcomesOf stream submissions store = outcomesOf stream alone other ∧
      Alike stream own (store.run (submissions.map Submission.write))
        (other.run (alone.map Submission.write)) := by
  induction submissions generalizing store other with
  | nil => exact ⟨rfl, h⟩
  | cons sent rest ih =>
    have hrest : ∀ later ∈ rest, ∀ event ∈ later.batch.events,
        own event.id ↔ later.stream = stream :=
      fun later hlater => mine later (List.mem_cons_of_mem _ hlater)
    have hsent := mine sent List.mem_cons_self
    by_cases hstream : sent.stream = stream
    · -- both runs go on by the same batch
      subst hstream
      obtain ⟨houtcome, halike⟩ :=
        h.append (fun event hevent => (hsent event hevent).mpr rfl) sent.batch.expected sent.now default
      obtain ⟨houtcomes, hrun⟩ := ih halike hrest
      have hown : (sent.batch.sentTo sent.stream).stream = sent.stream := rfl
      simp only [sequencesOf, List.filter_cons, decide_true, if_true, List.map_cons]
      refine ⟨?_, hrun⟩
      rw [outcomesOf, if_pos rfl, outcomesOf, if_pos hown]
      exact congr (congrArg List.cons houtcome) houtcomes
    · -- only the run of all goes on
      have hforeign : ∀ event ∈ sent.batch.events, ¬ own event.id :=
        fun event hevent hown => hstream ((hsent event hevent).mp hown)
      have halike := (store.alike_append hstream hforeign sent.batch.expected sent.now).trans h
      obtain ⟨houtcomes, hrun⟩ := ih halike hrest
      simp only [sequencesOf, List.filter_cons, hstream, decide_false, Bool.false_eq_true, if_false]
      refine ⟨?_, hrun⟩
      rw [outcomesOf, if_neg hstream]
      exact houtcomes

/-! ## The counter -/

/-- The store has so many records more, numbered one after another. -/
structure Counted (store : MemoryStore) (count : Nat) (after : MemoryStore) : Prop where
  sequences : after.records.map Record.sequence
    = store.records.map Record.sequence ++ (List.range count).map store.nextSequence.plus
  nextSequence : after.nextSequence = store.nextSequence.plus count

theorem Counted.refl (store : MemoryStore) : Counted store 0 store :=
  ⟨(List.append_nil _).symm, (SequenceNumber.plus_zero _).symm⟩

theorem Counted.trans {count more : Nat} (h : Counted store count other)
    (h' : Counted other more third) : Counted store (count + more) third where
  sequences := by
    have hplus : other.nextSequence.plus = store.nextSequence.plus ∘ (count + ·) := by
      funext place
      rw [h.nextSequence, Function.comp_apply, SequenceNumber.plus_plus]
    rw [h'.sequences, h.sequences, hplus, List.append_assoc, List.range_add, List.map_append,
      List.map_map]
  nextSequence := by
    rw [h'.nextSequence, h.nextSequence, SequenceNumber.plus_plus]

theorem counted_append (store : MemoryStore) (target : StreamId) (now : Timestamp)
    (events : List Event) (expected : Option StreamVersion) :
    ∃ count, Counted store count (store.append target now events expected).state := by
  by_cases hglobal : target = .global
  · rw [append_of_global _ _ _ _ hglobal]
    exact ⟨0, .refl store⟩
  rw [append_of_ne_global _ _ _ _ hglobal]
  rcases store.appendChecked_cases now events expected hglobal with hsame | ⟨-, hadded⟩
  · rw [hsame]
    exact ⟨0, .refl store⟩
  · rw [hadded, add_eq]
    refine ⟨events.length, ?_, rfl⟩
    rw [List.map_append]
    congr 1
    refine List.ext_getElem? fun place => ?_
    by_cases hplace : place < events.length <;> simp [MemoryStore.batch, hplace]

theorem counted_run (store : MemoryStore) (submissions : List Submission) :
    ∃ count, Counted store count (store.run (submissions.map Submission.write)) := by
  induction submissions generalizing store with
  | nil => exact ⟨0, .refl store⟩
  | cons sent rest ih =>
    obtain ⟨count, hsent⟩ :=
      store.counted_append sent.stream sent.now sent.batch.events sent.batch.expected
    obtain ⟨more, hrest⟩ := ih (sent.write.after store)
    exact ⟨count + more, hsent.trans hrest⟩

/-- Stores with equally many records more have the same numbers in the same places. -/
theorem Counted.congr {count more : Nat} (h : Counted store count other)
    (h' : Counted store more third) (length : other.records.length = third.records.length) :
    other.records.map Record.sequence = third.records.map Record.sequence ∧
      other.nextSequence = third.nextSequence := by
  have hcount := congrArg List.length h.sequences
  have hmore := congrArg List.length h'.sequences
  simp only [List.length_map, List.length_append, List.length_range] at hcount hmore
  have heq : count = more := by omega
  rw [h.sequences, h'.sequences, h.nextSequence, h'.nextSequence, heq]
  exact ⟨rfl, rfl⟩

/-! ## Interleavings -/

/-- Stores that nobody can tell apart have the same records in some order. -/
theorem perm_of_alike {owns : StreamId → EventId → Prop}
    (h : ∀ stream, Alike stream (owns stream) store other) :
    (store.records.map Record.unplaced).Perm (other.records.map Record.unplaced) := by
  -- of each record, both stores have as many as the record's own stream has
  have hcount (record : Record) (any : MemoryStore) :
      (any.records.map Record.unplaced).count record
        = ((any.recordsOf record.stream).map Record.unplaced).count record := by
    rw [recordsOf, ← List.count_filter (p := fun other : Record => other.stream = record.stream)
      (decide_eq_true rfl), List.filter_map]
    rfl
  refine List.perm_iff_count.mpr fun record => ?_
  rw [hcount, hcount, (h record.stream).records]

/-- A regular stream that a writer cannot tell apart reads the same. -/
theorem Alike.read (h : Alike stream own store other) (regular : stream ≠ .global)
    (options : ReadOptions) :
    (store.read stream options).map Slice.unplaced = (other.read stream options).map Slice.unplaced := by
  have hselected : (selectRecords stream (store.readable stream) options).map Record.unplaced
      = (selectRecords stream (other.readable stream) options).map Record.unplaced := by
    rw [map_unplaced_selectRecords regular, map_unplaced_selectRecords regular,
      readable_of_ne_global store regular, readable_of_ne_global other regular, h.records]
  unfold MemoryStore.read
  rw [h.version]
  split
  · exact congrArg (fun records => Except.ok (⟨stream, records⟩ : Slice)) hselected
  · rfl

/-- Whatever the interleaving is, the writer of a stream gets what it would get alone. -/
theorem alike_alone (store : MemoryStore) {sequences : StreamId → List Batch}
    (unshared : Unshared sequences) {submissions : List Submission}
    (h : Interleaves submissions sequences) (stream : StreamId) :
    let alone := (sequences stream).map (·.sentTo stream)
    outcomesOf stream submissions store = outcomesOf stream alone store ∧
      Alike stream (Owns sequences stream) (store.run (submissions.map Submission.write))
        (store.run (alone.map Submission.write)) := by
  have hrun := alike_run (.refl stream (Owns sequences stream) store) submissions
    (h.owns_iff unshared stream)
  simp only [h stream] at hrun
  exact hrun

/-- **Interleavings**: given batches for any number of streams such that no id is used for two of them, and two
interleavings that keep the order within each stream, at whatever moments. From any store on, the batches of
each stream get the same outcomes, the same errors or the same records up to sequence numbers and moments; all
streams have the same versions, the same ids are in use, and every stream but the global one reads the same,
whatever the options. The global stream has the same sequence numbers in the same places and the same records,
in some order. -/
theorem appends_interleave (store : MemoryStore) {sequences : StreamId → List Batch}
    (unshared : Unshared sequences) {one two : List Submission} (first : Interleaves one sequences)
    (second : Interleaves two sequences) :
    let left := store.run (one.map Submission.write)
    let right := store.run (two.map Submission.write)
    (∀ stream, outcomesOf stream one store = outcomesOf stream two store) ∧
      (∀ stream, left.version? stream = right.version? stream) ∧
      (∀ id, id ∈ left.ids ↔ id ∈ right.ids) ∧
      (∀ stream options, stream ≠ .global →
        (left.read stream options).map Slice.unplaced
          = (right.read stream options).map Slice.unplaced) ∧
      (left.records.map Record.unplaced).Perm (right.records.map Record.unplaced) ∧
      left.records.map Record.sequence = right.records.map Record.sequence ∧
      left.nextSequence = right.nextSequence := by
  intro left right
  have halike (stream : StreamId) : Alike stream (Owns sequences stream) left right :=
    (store.alike_alone unshared first stream).2.trans (store.alike_alone unshared second stream).2.symm
  have hperm := perm_of_alike halike
  obtain ⟨count, hleft⟩ := store.counted_run one
  obtain ⟨more, hright⟩ := store.counted_run two
  have hlength : left.records.length = right.records.length := by simpa using hperm.length_eq
  refine ⟨?_, fun stream => (halike stream).version, ?_, ?_, hperm, hleft.congr hright hlength⟩
  · intro stream
    rw [(store.alike_alone unshared first stream).1, (store.alike_alone unshared second stream).1]
  · intro id
    -- whoever uses the id sees the same of it; if nobody does, anybody may look
    by_cases hused : ∃ stream, Uses sequences stream id
    · obtain ⟨stream, hused⟩ := hused
      exact (halike stream).ids id fun other hother => unshared id stream other hused hother
    · exact (halike .markers).ids id fun other hother => absurd ⟨other, hother⟩ hused
  · intro stream options regular
    exact (halike stream).read regular options

/-- Two writers and one who has the wrong stream; each of the two is refused once. -/
def arrived : List Submission :=
  [⟨⟨"a"⟩, ⟨[⟨⟨"3"⟩, "t", .null, .empty⟩], some ⟨0⟩⟩, default⟩,
    ⟨⟨"b"⟩, ⟨[⟨⟨"4"⟩, "t", .null, .empty⟩, ⟨⟨"5"⟩, "t", .null, .empty⟩], none⟩, default⟩,
    ⟨.global, ⟨[⟨⟨"6"⟩, "t", .null, .empty⟩], none⟩, default⟩,
    ⟨⟨"a"⟩, ⟨[⟨⟨"7"⟩, "t", .null, .empty⟩], some ⟨0⟩⟩, default⟩,
    ⟨⟨"b"⟩, ⟨[⟨⟨"2"⟩, "t", .null, .empty⟩], none⟩, default⟩]

/-- The same, in another order. -/
def arrivedLate : List Submission :=
  [⟨.global, ⟨[⟨⟨"6"⟩, "t", .null, .empty⟩], none⟩, default⟩,
    ⟨⟨"b"⟩, ⟨[⟨⟨"4"⟩, "t", .null, .empty⟩, ⟨⟨"5"⟩, "t", .null, .empty⟩], none⟩, default⟩,
    ⟨⟨"b"⟩, ⟨[⟨⟨"2"⟩, "t", .null, .empty⟩], none⟩, default⟩,
    ⟨⟨"a"⟩, ⟨[⟨⟨"3"⟩, "t", .null, .empty⟩], some ⟨0⟩⟩, default⟩,
    ⟨⟨"a"⟩, ⟨[⟨⟨"7"⟩, "t", .null, .empty⟩], some ⟨0⟩⟩, default⟩]

/-- A store to which they arrive. -/
def stockedTwice : MemoryStore :=
  empty.run [.append ⟨"a"⟩ [⟨⟨"1"⟩, "t", .null, .empty⟩] none default,
    .append ⟨"b"⟩ [⟨⟨"2"⟩, "t", .null, .empty⟩] none default]

theorem appends_interleave_sample :
    Unshared (sequencesOf arrived) ∧ Interleaves arrived (sequencesOf arrived) ∧
      Interleaves arrivedLate (sequencesOf arrived) ∧
      (outcomesOf ⟨"a"⟩ arrivedLate stockedTwice).map (·.map List.length)
        = [.ok 1, .error (.concurrency ⟨"a"⟩ ⟨0⟩ ⟨1⟩)] ∧
      (outcomesOf ⟨"b"⟩ arrivedLate stockedTwice).map (·.map List.length)
        = [.ok 2, .error (.duplicateEventId ⟨"2"⟩)] ∧
      (stockedTwice.run (arrived.map Submission.write)).records.map Record.id
        ≠ (stockedTwice.run (arrivedLate.map Submission.write)).records.map Record.id := by
  have hunshared : Unshared (sequencesOf arrived) := unshared_sequencesOf (by decide)
  have hfirst : Interleaves arrived (sequencesOf arrived) := interleaves_sequencesOf arrived
  have hsecond : Interleaves arrivedLate (sequencesOf arrived) := by
    intro stream
    by_cases hglobal : stream = .global
    · rw [hglobal]
      rfl
    by_cases ha : stream = ⟨"a"⟩
    · rw [ha]
      rfl
    by_cases hb : stream = ⟨"b"⟩
    · rw [hb]
      rfl
    simp [sequencesOf, arrived, arrivedLate, Ne.symm hglobal, Ne.symm ha, Ne.symm hb]
  have houtcomes := (appends_interleave stockedTwice hunshared hfirst hsecond).1
  refine ⟨hunshared, hfirst, hsecond, ?_, ?_, by decide⟩
  · rw [← houtcomes]
    decide
  · rw [← houtcomes]
    decide

end MemoryStore

end EventJournal
