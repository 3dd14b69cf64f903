import EventJournal.Proofs.Feed.Wired

/-!
# How an append is decided

An append is decided by the first of six rules that applies. `Decided` has one constructor for each, and
each says of the rules before it that they do not apply; with the outcome it says what becomes of the
store, its subscribers included.

* `firstRepeated_eq_some` and `duplicate?_eq_some` — which event a duplicate is reported for.
* `Extended` — the store with exactly one batch more, and the subscribers who were told of it.
* `append_decided` — the main statement, for every store that can be reached.
-/

namespace EventJournal

/-! ## Which event is reported -/

/-- The id reported is the first one that was seen before. -/
theorem firstRepeated_eq_some {seen ids : List EventId} {id : EventId}
    (h : firstRepeated seen ids = some id) :
    ∃ earlier later, ids = earlier ++ id :: later ∧ earlier.Nodup ∧
      (∀ other ∈ earlier, other ∉ seen) ∧ (id ∈ seen ∨ id ∈ earlier) := by
  induction ids generalizing seen with
  | nil => cases h
  | cons next rest ih =>
    by_cases hseen : next ∈ seen
    · rw [firstRepeated, if_pos hseen] at h
      cases h
      exact ⟨[], rest, rfl, .nil, fun _ hmem => absurd hmem List.not_mem_nil, .inl hseen⟩
    · rw [firstRepeated, if_neg hseen] at h
      obtain ⟨earlier, later, rfl, hdistinct, hfresh, hid⟩ := ih h
      refine ⟨next :: earlier, later, rfl, ?_, ?_, ?_⟩
      · refine List.nodup_cons.mpr ⟨fun hmem => ?_, hdistinct⟩
        exact hfresh next hmem List.mem_cons_self
      · intro other hother
        rcases List.mem_cons.mp hother with rfl | hmem
        · exact hseen
        · exact fun hother => hfresh other hmem (List.mem_cons_of_mem _ hother)
      · rcases hid with hid | hid
        · rcases List.mem_cons.mp hid with rfl | hid
          · exact .inr List.mem_cons_self
          · exact .inl hid
        · exact .inr (List.mem_cons_of_mem _ hid)

/-- A subscriber after the records of a batch were queued, in their order: it gets them, once, if it is
registered for the stream of the batch or for the global one. -/
def Subscriber.told (subscriber : Subscriber) (stream : StreamId) (fresh : List Record) :
    Subscriber :=
  if subscriber.registered ∧ (subscriber.stream = .global ∨ subscriber.stream = stream) then
    { subscriber with queue := subscriber.queue ++ fresh.map .record }
  else subscriber

/-- Telling a subscriber of the records of one stream queues all of them or none. -/
theorem Subscriber.tell_of_stream {stream : StreamId} {fresh : List Record}
    (h : ∀ record ∈ fresh, record.stream = stream) (subscriber : Subscriber) :
    subscriber.tell (fresh.map .record) = subscriber.told stream fresh := by
  rw [tell, subscriber.filter_concerned_records, wanted, told]
  by_cases hmeant : subscriber.stream = .global ∨ subscriber.stream = stream
  · have hall : fresh.filter subscriber.stream.concerns = fresh := by
      refine List.filter_eq_self.mpr fun record hrecord => ?_
      rw [StreamId.concerns, h record hrecord, Bool.or_eq_true, decide_eq_true_iff]
      exact hmeant.imp StreamId.isGlobal_iff.mpr Eq.symm
    rw [hall]
    simp only [hmeant, and_true]
  · have hnone : fresh.filter subscriber.stream.concerns = [] := by
      refine List.filter_eq_nil_iff.mpr fun record hrecord => ?_
      rw [StreamId.concerns, h record hrecord, Bool.or_eq_true, decide_eq_true_iff]
      exact fun hconcerns => hmeant (hconcerns.imp StreamId.isGlobal_iff.mp Eq.symm)
    rw [hnone, List.map_nil, List.append_nil, ite_self, if_neg fun hall => hmeant hall.2]

namespace MemoryStore

/-- The event reported is the first one whose id is in use. -/
theorem duplicate?_eq_some {store : MemoryStore} {events : List Event} {event : Event}
    (h : store.duplicate? events = some event) :
    ∃ earlier later, events = earlier ++ event :: later ∧ event.id ∈ store.ids ∧
      ∀ other ∈ earlier, other.id ∉ store.ids := by
  obtain ⟨hevent, earlier, later, hsplit, hearlier⟩ := List.find?_eq_some_iff_append.mp h
  refine ⟨earlier, later, hsplit, by simpa using hevent, fun other hother => ?_⟩
  simpa using hearlier other hother

/-! ## The store with one batch more -/

/-- Some record of the store has an id. -/
def Holds (store : MemoryStore) (id : EventId) : Prop :=
  ∃ record ∈ store.records, record.id = id

/-- A store became another one by appending a batch to a stream, with these records. -/
structure Extended (store : MemoryStore) (stream : StreamId) (now : Timestamp) (events : List Event)
    (fresh : List Record) (after : MemoryStore) : Prop where
  /-- There is one record for each event, in their order. -/
  one : fresh.length = events.length
  numbered : ∀ (place : Nat) (event : Event), events[place]? = some event →
    fresh[place]? = some
      ({ event, stream, version := (store.versionOf stream).plus (place + 1),
         sequence := store.nextSequence.plus place, recordedAt := now } : Record)
  records : after.records = store.records ++ fresh
  ids : ∀ id, id ∈ after.ids ↔ id ∈ store.ids ∨ ∃ event ∈ events, event.id = id
  version : after.version? stream = some ((store.versionOf stream).plus events.length)
  others : ∀ other, other ≠ stream → after.version? other = store.version? other
  nextSequence : after.nextSequence = store.nextSequence.plus events.length
  told : after.subscribers.table = store.subscribers.table.map (·.told stream fresh)

theorem extended_add {store : MemoryStore} (stream : StreamId) (now : Timestamp)
    (events : List Event)
    (listening : ∀ subscriber ∈ store.subscribers.table,
      subscriber.listening = subscriber.registered) :
    Extended store stream now events (store.batch stream now events)
      (store.add stream now events).state where
  one := length_batch ..
  numbered place event hevent := by
    rw [batch, List.getElem?_mapIdx, hevent]
    rfl
  records := by rw [add_eq]
  ids id := by
    rw [add_eq, map_id_batch, List.mem_append, List.mem_map]
  version := by rw [version?_add, if_pos rfl]
  others other hother := by rw [version?_add, if_neg hother]
  nextSequence := by rw [add_eq]
  told := by
    rw [add_eq]
    refine List.map_congr_left fun subscriber hsubscriber => ?_
    rw [Subscriber.deliver_eq_tell (listening subscriber hsubscriber)]
    exact Subscriber.tell_of_stream (fun record => stream_of_mem_batch) subscriber

/-! ## The rules -/

/-- What an append gives and what becomes of the store. The rules are in the order of their precedence. -/
inductive Decided (store : MemoryStore) (stream : StreamId) (now : Timestamp) (events : List Event)
    (expected : Option StreamVersion) : Outcome (List Record) → MemoryStore → Prop where
  /-- The global stream is not writable. -/
  | notWritable (isGlobal : stream = .global) :
      Decided store stream now events expected (.error (.globalNotWritable "append to")) store
  /-- The event is the first one whose id occurs earlier in the batch. -/
  | repeated {earlier later : List Event} {event : Event} (writable : stream ≠ .global)
      (split : events = earlier ++ event :: later) (distinct : (earlier.map Event.id).Nodup)
      (again : event.id ∈ earlier.map Event.id) :
      Decided store stream now events expected (.error (.duplicateEventId event.id)) store
  /-- The stream does not have the version that is expected. -/
  | conflict {version : StreamVersion} (writable : stream ≠ .global)
      (distinct : (events.map Event.id).Nodup) (given : expected = some version)
      (differs : version ≠ store.versionOf stream) :
      Decided store stream now events expected
        (.error (.concurrency stream version (store.versionOf stream))) store
  /-- There is nothing to append. -/
  | nothing (writable : stream ≠ .global)
      (agrees : ∀ version ∈ expected, version = store.versionOf stream) (none : events = []) :
      Decided store stream now events expected (.ok []) store
  /-- The event is the first one whose id a record of the store has. -/
  | stored {earlier later : List Event} {event : Event} (writable : stream ≠ .global)
      (distinct : (events.map Event.id).Nodup)
      (agrees : ∀ version ∈ expected, version = store.versionOf stream)
      (split : events = earlier ++ event :: later) (holds : store.Holds event.id)
      (before : ∀ other ∈ earlier, ¬ store.Holds other.id) :
      Decided store stream now events expected (.error (.duplicateEventId event.id)) store
  /-- The batch is appended. -/
  | added {fresh : List Record} {after : MemoryStore} (writable : stream ≠ .global)
      (distinct : (events.map Event.id).Nodup)
      (agrees : ∀ version ∈ expected, version = store.versionOf stream) (some : events ≠ [])
      (unused : ∀ event ∈ events, ¬ store.Holds event.id)
      (extended : Extended store stream now events fresh after) :
      Decided store stream now events expected (.ok fresh) after

/-- A batch with events that is accepted is appended. -/
theorem Decided.extended {store after : MemoryStore} {stream : StreamId} {now : Timestamp}
    {events : List Event} {expected : Option StreamVersion} {fresh : List Record}
    (h : Decided store stream now events expected (.ok fresh) after) (hsome : events ≠ []) :
    stream ≠ .global ∧ Extended store stream now events fresh after := by
  cases h with
  | nothing writable agrees none => exact absurd none hsome
  | added writable distinct agrees some unused extended => exact ⟨writable, extended⟩

theorem checkExpected_eq_ok_iff {stream : StreamId} {expected : Option StreamVersion}
    {actual : StreamVersion} :
    checkExpected stream expected actual = .ok () ↔ ∀ version ∈ expected, version = actual := by
  cases expected with
  | none => exact ⟨fun _ => nofun, fun _ => rfl⟩
  | some version =>
    rw [checkExpected]
    split
    · rename_i heq
      refine ⟨fun _ other hother => ?_, fun _ => rfl⟩
      cases hother
      exact heq
    · rename_i hne
      exact ⟨nofun, fun h => absurd (h version rfl) hne⟩

theorem checkExpected_eq_error {stream : StreamId} {expected : Option StreamVersion}
    {actual : StreamVersion} {error : StoreError}
    (h : checkExpected stream expected actual = .error error) :
    ∃ version, expected = some version ∧ version ≠ actual ∧
      error = .concurrency stream version actual := by
  cases expected with
  | none => cases h
  | some version =>
    rw [checkExpected] at h
    split at h
    · cases h
    · rename_i hne
      cases h
      exact ⟨version, rfl, hne, rfl⟩

theorem checkUnique_eq_error {events : List Event} {error : StoreError}
    (h : checkUnique events = .error error) :
    ∃ earlier event later, events = earlier ++ event :: later ∧
      (earlier.map Event.id).Nodup ∧ event.id ∈ earlier.map Event.id ∧
      error = .duplicateEventId event.id := by
  unfold checkUnique at h
  split at h
  · rename_i id hid
    cases h
    obtain ⟨ids, rest, hsplit, hdistinct, -, hagain⟩ := firstRepeated_eq_some hid
    obtain ⟨earlier, others, rfl, rfl, hothers⟩ := List.map_eq_append_iff.mp hsplit
    obtain ⟨event, later, rfl, rfl, rfl⟩ := List.map_eq_cons_iff.mp hothers
    exact ⟨earlier, event, later, rfl, hdistinct, hagain.resolve_left List.not_mem_nil, rfl⟩
  · cases h

theorem Indexed.holds_iff {store : MemoryStore} (h : Indexed store) (id : EventId) :
    store.Holds id ↔ id ∈ store.ids :=
  (h.ids id).symm

/-- An append to a store whose ids and subscribers are in order is decided by the rules. -/
theorem decided_append {store : MemoryStore} (indexed : Indexed store)
    (listening : ∀ subscriber ∈ store.subscribers.table,
      subscriber.listening = subscriber.registered)
    (stream : StreamId) (now : Timestamp) (events : List Event)
    (expected : Option StreamVersion) :
    Decided store stream now events expected (store.append stream now events expected).outcome
      (store.append stream now events expected).state := by
  -- the rules in their order; each case carries what the ones before it have excluded
  by_cases hglobal : stream = .global
  · rw [append_of_global store now events expected hglobal]
    exact .notWritable hglobal
  rw [append_of_ne_global store now events expected hglobal, appendChecked]
  cases hunique : checkUnique events with
  | error error =>
    obtain ⟨earlier, event, later, hsplit, hdistinct, hagain, rfl⟩ := checkUnique_eq_error hunique
    exact .repeated hglobal hsplit hdistinct hagain
  | ok _ =>
    have hdistinct := checkUnique_eq_ok_iff.mp hunique
    cases hexpected : checkExpected stream expected (store.versionOf stream) with
    | error error =>
      obtain ⟨version, hgiven, hdiffers, rfl⟩ := checkExpected_eq_error hexpected
      exact .conflict hglobal hdistinct hgiven hdiffers
    | ok _ =>
      have hagrees := checkExpected_eq_ok_iff.mp hexpected
      by_cases hempty : events = []
      · subst hempty
        exact .nothing hglobal hagrees rfl
      have hsome : events.isEmpty = false := List.isEmpty_eq_false_iff.mpr hempty
      simp only [hsome, Bool.false_eq_true, if_false]
      cases hduplicate : store.duplicate? events with
      | some event =>
        obtain ⟨earlier, later, hsplit, hused, hbefore⟩ := duplicate?_eq_some hduplicate
        exact .stored hglobal hdistinct hagrees hsplit ((indexed.holds_iff _).mpr hused)
          fun other hother hholds => hbefore other hother ((indexed.holds_iff _).mp hholds)
      | none =>
        have hunused := duplicate?_eq_none_iff.mp hduplicate
        have houtcome : (store.add stream now events).outcome
            = .ok (store.batch stream now events) := by rw [add_eq]
        show Decided store stream now events expected (store.add stream now events).outcome
          (store.add stream now events).state
        rw [houtcome]
        exact .added hglobal hdistinct hagrees hempty
          (fun event hevent hholds => hunused event hevent ((indexed.holds_iff _).mp hholds))
          (extended_add stream now events listening)

/-- What a read finds after a batch was appended: what it found before, and then the batch. -/
theorem Sound.read_extended {store after : MemoryStore} (sound : Sound after) {stream : StreamId}
    {now : Timestamp} {events : List Event} {fresh : List Record} (writable : stream ≠ .global)
    (extended : Extended store stream now events fresh after) :
    after.read stream .forward = .ok ⟨stream, store.recordsOf stream ++ fresh⟩ ∧
      after.read .global .forward = .ok ⟨.global, store.records ++ fresh⟩ := by
  have hstream : ∀ record ∈ fresh, record.stream = stream := by
    intro record hrecord
    obtain ⟨place, hplace, rfl⟩ := List.mem_iff_getElem.mp hrecord
    have hevent := List.getElem?_eq_getElem (extended.one ▸ hplace)
    have hnumbered := extended.numbered place _ hevent
    rw [List.getElem?_eq_getElem hplace, Option.some_inj] at hnumbered
    rw [hnumbered]
  refine ⟨?_, ?_⟩
  · rw [sound.read_forward (.inr (by rw [extended.version]; rfl)),
      readable_of_ne_global after writable, recordsOf, extended.records, List.filter_append]
    congr 3
    exact List.filter_eq_self.mpr fun record hrecord => decide_eq_true (hstream record hrecord)
  · rw [sound.read_forward (.inl rfl), readable_global, extended.records]

/-- An append keeps a store sound as long as the sequence numbers do not run out. -/
theorem Sound.append {store : MemoryStore} (h : Sound store) (stream : StreamId) (now : Timestamp)
    (events : List Event) (expected : Option StreamVersion)
    (room : store.nextSequence.toInt + events.length ≤ Int64.maxValue.toInt) :
    Sound (store.append stream now events expected).state := by
  by_cases hglobal : stream = .global
  · rw [append_of_global store now events expected hglobal]
    exact h
  · rw [append_of_ne_global store now events expected hglobal]
    rcases store.appendChecked_cases now events expected hglobal with hsame | ⟨hadm, hadd⟩
    · rw [hsame]
      exact h
    · rw [hadd]
      exact h.add hadm room

/-- The numbers of an appended batch, as long as the sequence numbers do not run out. -/
theorem Extended.numbers {store after : MemoryStore} {stream : StreamId} {now : Timestamp}
    {events : List Event} {fresh : List Record}
    (extended : Extended store stream now events fresh after) (sound : Sound store)
    (room : store.nextSequence.toInt + events.length ≤ Int64.maxValue.toInt)
    {place : Nat} {record : Record} (hrecord : fresh[place]? = some record) :
    record.version.toInt = (store.versionOf stream).toInt + 1 + place ∧
      record.sequence.toInt = store.nextSequence.toInt + place := by
  have hplace : place < events.length := by
    rw [← extended.one]
    exact (List.getElem?_eq_some_iff.mp hrecord).1
  have hnumbered := extended.numbered place _ (List.getElem?_eq_getElem hplace)
  rw [hrecord, Option.some_inj] at hnumbered
  have hversion := sound.versionOf_bounds stream
  rw [hnumbered]
  show ((store.versionOf stream).plus (place + 1)).toInt = _ ∧
    (store.nextSequence.plus place).toInt = _
  rw [StreamVersion.toInt_plus (by omega), SequenceNumber.toInt_plus (by omega)]
  omega

/-- **How an append is decided**: an append to any store that can be reached is decided by the first
rule that applies. Where a batch is appended and sequence numbers are left, its records are numbered one
by one from the version and the next sequence number on, and reads from the start end with them. -/
theorem append_decided (actions : List Journal.Action) (stream : StreamId) (now : Timestamp)
    (events : List Event) (expected : Option StreamVersion) :
    let store := (Journal.empty.run actions).store
    let answer := store.append stream now events expected
    Decided store stream now events expected answer.outcome answer.state ∧
      (((Journal.empty.appended actions).length + events.length : Int) < Int64.maxValue.toInt →
        ∀ fresh, events ≠ [] → answer.outcome = .ok fresh →
          answer.state.read stream .forward = .ok ⟨stream, store.recordsOf stream ++ fresh⟩ ∧
          answer.state.read .global .forward = .ok ⟨.global, store.records ++ fresh⟩ ∧
          ∀ (place : Nat) (record : Record), fresh[place]? = some record →
            record.version.toInt = (store.versionOf stream).toInt + 1 + place ∧
            record.sequence.toInt = store.nextSequence.toInt + place) := by
  intro store answer
  have indexed : Indexed store := Journal.indexed_run (Indexed.empty .empty) actions
  have wired := Journal.Wired.empty.run actions
  have decided : Decided store stream now events expected answer.outcome answer.state :=
    decided_append indexed wired.listening_eq_registered stream now events expected
  refine ⟨decided, fun few fresh hsome hok => ?_⟩
  obtain ⟨hsound, hnext⟩ := Journal.sound_run_empty actions (by omega)
  have hroom : store.nextSequence.toInt + events.length ≤ Int64.maxValue.toInt := by
    have hle : store.nextSequence.toInt ≤ (Journal.empty.appended actions).length + 1 := hnext
    omega
  rw [hok] at decided
  obtain ⟨writable, extended⟩ := decided.extended hsome
  have hafter := hsound.append stream now events expected hroom
  obtain ⟨hread, hglobal⟩ := hafter.read_extended writable extended
  exact ⟨hread, hglobal, fun place record => extended.numbers hsound hroom⟩

/-- A store with an event and a subscriber, and a batch that fits. -/
def sampleActions : List Journal.Action :=
  [.subscribe .global .all,
    .write (.append ⟨"a"⟩ [⟨⟨"1"⟩, "t", .null, .empty⟩] none default)]

def sampleBatch : List Event := [⟨⟨"2"⟩, "t", .null, .empty⟩, ⟨⟨"3"⟩, "t", .null, .empty⟩]

theorem append_decided_sample :
    ((Journal.empty.appended sampleActions).length + sampleBatch.length : Int)
        < Int64.maxValue.toInt ∧ sampleBatch ≠ [] ∧
      ∃ fresh, ((Journal.empty.run sampleActions).store.append ⟨"a"⟩ default sampleBatch
          (some ⟨0⟩)).outcome = .ok fresh ∧
        ((Journal.empty.run sampleActions).store.append ⟨"a"⟩ default sampleBatch
            (some ⟨0⟩)).state.read ⟨"a"⟩ .forward
          = .ok ⟨⟨"a"⟩, (Journal.empty.run sampleActions).store.recordsOf ⟨"a"⟩ ++ fresh⟩ :=
  have few : ((Journal.empty.appended sampleActions).length + sampleBatch.length : Int)
      < Int64.maxValue.toInt := by decide
  have accepted : ((Journal.empty.run sampleActions).store.append ⟨"a"⟩ default sampleBatch
      (some ⟨0⟩)).outcome = .ok _ := rfl
  ⟨few, by decide, _, accepted,
    ((append_decided sampleActions ⟨"a"⟩ default sampleBatch (some ⟨0⟩)).2 few _ (by decide)
      accepted).1⟩

end MemoryStore

end EventJournal
