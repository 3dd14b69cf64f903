import EventJournal.Proofs.Store.Numbering

/-!
# Writes and runs

A write is a call that may change the store: an append, a truncation, a deletion or a clear, with its
arguments. A run is a list of writes made one after another, whether they succeed or not.

Every write but a clear first keeps a part of the store and then, perhaps, appends a batch to its
target: the stream written to, or the stream of markers. `Write.after_cases` says this once, and the
invariants of the store are proved from it:

* `appendChecked_cases` — an append that passed the first check changes nothing or adds a batch that is
  `Admissible`.
* `Write.kept_cases` — a write keeps the whole store, the store without the head of a stream, or the
  store without a stream.
-/

namespace EventJournal

namespace MemoryStore

/-- A stream that can be truncated or deleted: it exists and is neither the global stream nor that of
markers. -/
def Removable (store : MemoryStore) (stream : StreamId) : Prop :=
  stream ≠ .global ∧ stream ≠ .markers ∧ (store.version? stream).isSome

instance (store : MemoryStore) (stream : StreamId) : Decidable (store.Removable stream) :=
  inferInstanceAs (Decidable (_ ∧ _ ∧ _))

/-- A call that may change the store. -/
inductive Write where
  | append (stream : StreamId) (events : List Event) (expected : Option StreamVersion)
      (now : Timestamp)
  | truncate (stream : StreamId) (before : Position) (now : Timestamp) (fresh : EventId)
  | delete (stream : StreamId) (now : Timestamp) (fresh : EventId)
  | clear
  deriving Repr, DecidableEq, Inhabited

namespace Write

/-- The store after a write, whatever its outcome. -/
def after (write : Write) (store : MemoryStore) : MemoryStore :=
  match write with
  | append stream events expected now => (store.append stream now events expected).state
  | truncate stream before now fresh => (store.truncate stream before now fresh).state
  | delete stream now fresh => (store.delete stream now fresh).state
  | clear => store.clear.state

/-- The stream that a write appends to. -/
def target : Write → StreamId
  | append stream _ _ _ => stream
  | _ => .markers

/-- The records that a write appends: those its target has beyond the ones it had. -/
def appended (write : Write) (store : MemoryStore) : List Record :=
  ((write.after store).recordsOf write.target).drop (store.recordsOf write.target).length

/-- What is left of the store before a write appends. -/
def kept (write : Write) (store : MemoryStore) : MemoryStore :=
  match write with
  | append _ _ _ _ => store
  | truncate stream before _ _ =>
    if store.Removable stream then store.withoutHead stream before else store
  | delete stream _ _ =>
    if store.Removable stream then store.withoutStream stream else store
  | clear => store.clear.state

end Write

/-- The store after a list of writes. -/
def run (store : MemoryStore) : List Write → MemoryStore
  | [] => store
  | write :: rest => (write.after store).run rest

/-- The records ever appended by a list of writes. -/
def appendedBy : List Write → MemoryStore → List Record
  | [], _ => []
  | write :: rest, store => write.appended store ++ appendedBy rest (write.after store)

theorem run_append (store : MemoryStore) (earlier later : List Write) :
    store.run (earlier ++ later) = (store.run earlier).run later := by
  induction earlier generalizing store with
  | nil => rfl
  | cons write rest ih => exact ih (write.after store)

theorem appendedBy_append (store : MemoryStore) (earlier later : List Write) :
    appendedBy (earlier ++ later) store
      = appendedBy earlier store ++ appendedBy later (store.run earlier) := by
  induction earlier generalizing store with
  | nil => rfl
  | cons write rest ih =>
    rw [List.cons_append, appendedBy, appendedBy, ih, List.append_assoc]
    rfl

/-! ## The checks of an append -/

theorem firstRepeated_eq_none_iff {seen ids : List EventId} :
    firstRepeated seen ids = none ↔ ids.Nodup ∧ ∀ id ∈ ids, id ∉ seen := by
  induction ids generalizing seen with
  | nil => simp [firstRepeated]
  | cons id rest ih =>
    by_cases h : id ∈ seen
    · simp [firstRepeated, h]
    · -- the rest must avoid what was seen, and the head on top of it
      rw [firstRepeated, if_neg h, ih, List.nodup_cons]
      constructor
      · rintro ⟨hnodup, hseen⟩
        refine ⟨⟨fun hmem => hseen id hmem List.mem_cons_self, hnodup⟩, ?_⟩
        intro other hother
        rcases List.mem_cons.mp hother with rfl | hrest
        · exact h
        · exact fun hmem => hseen other hrest (List.mem_cons_of_mem _ hmem)
      · rintro ⟨⟨hid, hnodup⟩, hseen⟩
        refine ⟨hnodup, fun other hother hmem => ?_⟩
        rcases List.mem_cons.mp hmem with rfl | hmem
        · exact hid hother
        · exact hseen other (List.mem_cons_of_mem _ hother) hmem

theorem checkUnique_eq_ok_iff {events : List Event} :
    checkUnique events = .ok () ↔ (events.map Event.id).Nodup := by
  unfold checkUnique
  cases h : firstRepeated [] (events.map Event.id) with
  | some id =>
    refine ⟨nofun, fun hnodup => ?_⟩
    rw [firstRepeated_eq_none_iff.mpr ⟨hnodup, by simp⟩] at h
    cases h
  | none => exact ⟨fun _ => (firstRepeated_eq_none_iff.mp h).1, fun _ => rfl⟩

theorem duplicate?_eq_none_iff {store : MemoryStore} {events : List Event} :
    store.duplicate? events = none ↔ ∀ event ∈ events, event.id ∉ store.ids := by
  simp [duplicate?]

theorem ensureRemovable_eq_ok_iff {stream : StreamId} {operation : String} :
    ensureRemovable stream operation = .ok () ↔ stream ≠ .global ∧ stream ≠ .markers := by
  unfold ensureRemovable
  split
  · rename_i h
    simp [StreamId.isGlobal_iff.mp h]
  · rename_i h
    have hglobal : stream ≠ .global := fun heq => h (StreamId.isGlobal_iff.mpr heq)
    split
    · rename_i h
      simp [StreamId.isMarkers_iff.mp h]
    · rename_i h
      exact ⟨fun _ => ⟨hglobal, fun heq => h (StreamId.isMarkers_iff.mpr heq)⟩, fun _ => rfl⟩

/-- A batch that may be added to a stream: the stream can be written, the batch is not empty, its ids
are distinct and none of them is in use. -/
structure Admissible (store : MemoryStore) (stream : StreamId) (events : List Event) : Prop where
  writable : stream ≠ .global
  nonempty : events ≠ []
  distinct : (events.map Event.id).Nodup
  unused : ∀ event ∈ events, event.id ∉ store.ids

/-- An append that passed the first check changes nothing or adds an admissible batch. -/
theorem appendChecked_cases (store : MemoryStore) {stream : StreamId} (now : Timestamp)
    (events : List Event) (expected : Option StreamVersion) (writable : stream ≠ .global) :
    (store.appendChecked stream now events expected).state = store ∨
      Admissible store stream events ∧
        store.appendChecked stream now events expected = store.add stream now events := by
  -- the checks in the order in which they are made
  cases hunique : checkUnique events with
  | error error => left; simp [appendChecked, hunique, Answer.refused]
  | ok _ =>
    cases hexpected : checkExpected stream expected (store.versionOf stream) with
    | error error => left; simp [appendChecked, hunique, hexpected]
    | ok _ =>
      by_cases hempty : events = []
      · subst hempty
        left; simp [appendChecked, hunique, hexpected, Answer.unchanged]
      · cases hduplicate : store.duplicate? events with
        | some event =>
          left; simp [appendChecked, hunique, hexpected, hempty, hduplicate, Answer.refused]
        | none =>
          right
          refine ⟨⟨writable, hempty, checkUnique_eq_ok_iff.mp hunique,
            duplicate?_eq_none_iff.mp hduplicate⟩, ?_⟩
          simp [appendChecked, hunique, hexpected, hempty, hduplicate]

/-! ## Adding a batch -/

theorem add_eq (store : MemoryStore) (stream : StreamId) (now : Timestamp) (events : List Event) :
    store.add stream now events =
      { outcome := .ok (store.batch stream now events),
        state :=
          { records := store.records ++ store.batch stream now events,
            versions := setVersion store.versions stream
              ((store.versionOf stream).plus events.length),
            ids := store.ids ++ (store.batch stream now events).map Record.id,
            nextSequence := store.nextSequence.plus events.length,
            subscribers := (store.subscribers.dispatch (store.batch stream now events)).1 },
        samples := Sample.appended backend (store.batch stream now events).length ::
          (store.subscribers.dispatch (store.batch stream now events)).2 } := by
  simp only [add, recordBatch_eq]
  rfl

theorem length_batch (store : MemoryStore) (stream : StreamId) (now : Timestamp)
    (events : List Event) : (store.batch stream now events).length = events.length := by
  simp [batch]

theorem mem_batch {store : MemoryStore} {stream : StreamId} {now : Timestamp}
    {events : List Event} {record : Record} (h : record ∈ store.batch stream now events) :
    ∃ place event, events[place]? = some event ∧
      record = { event, stream, version := (store.versionOf stream).plus (place + 1),
                 sequence := store.nextSequence.plus place, recordedAt := now } := by
  obtain ⟨place, hplace⟩ := List.mem_iff_getElem?.mp h
  rw [batch, List.getElem?_mapIdx] at hplace
  obtain ⟨event, hevent, rfl⟩ := Option.map_eq_some_iff.mp hplace
  exact ⟨place, event, hevent, rfl⟩

theorem stream_of_mem_batch {store : MemoryStore} {stream : StreamId} {now : Timestamp}
    {events : List Event} {record : Record} (h : record ∈ store.batch stream now events) :
    record.stream = stream := by
  obtain ⟨place, event, -, rfl⟩ := mem_batch h
  rfl

theorem map_id_batch (store : MemoryStore) (stream : StreamId) (now : Timestamp)
    (events : List Event) :
    (store.batch stream now events).map Record.id = events.map Event.id := by
  refine List.ext_getElem? fun place => ?_
  simp [batch, Record.id, Function.comp_def]

/-! ## Versions of streams -/

theorem lookup_filter_ne {α : Type} (entries : List (StreamId × α)) (stream other : StreamId) :
    (entries.filter (·.1 ≠ stream)).lookup other
      = if other = stream then none else entries.lookup other := by
  induction entries with
  | nil => simp
  | cons entry rest ih =>
    obtain ⟨name, value⟩ := entry
    by_cases hname : name = stream
    · rw [List.filter_cons_of_neg (by simpa using hname), ih, List.lookup_cons]
      by_cases h : other = stream
      · rw [if_pos h, if_pos h]
      · rw [if_neg h, if_neg h, beq_false_of_ne (fun heq => h (heq.trans hname))]
    · rw [List.filter_cons_of_pos (by simpa using hname), List.lookup_cons, List.lookup_cons, ih]
      by_cases h : other = name
      · subst h
        simp [hname]
      · rw [beq_false_of_ne h]

theorem lookup_setVersion (versions : List (StreamId × StreamVersion)) (stream other : StreamId)
    (version : StreamVersion) :
    (setVersion versions stream version).lookup other
      = if other = stream then some version else versions.lookup other := by
  rw [setVersion, List.lookup_cons, lookup_filter_ne]
  by_cases h : other = stream
  · simp [h]
  · rw [beq_false_of_ne h, if_neg h, if_neg h]

theorem version?_add (store : MemoryStore) (stream other : StreamId) (now : Timestamp)
    (events : List Event) :
    (store.add stream now events).state.version? other
      = if other = stream then some ((store.versionOf stream).plus events.length)
        else store.version? other := by
  rw [add_eq]
  exact lookup_setVersion ..

theorem version?_withoutStream (store : MemoryStore) (stream other : StreamId) :
    (store.withoutStream stream).version? other
      = if other = stream then none else store.version? other :=
  lookup_filter_ne ..

/-! ## Records of streams -/

theorem mem_recordsOf {store : MemoryStore} {stream : StreamId} {record : Record} :
    record ∈ store.recordsOf stream ↔ record ∈ store.records ∧ record.stream = stream := by
  simp [recordsOf]

theorem recordsOf_add (store : MemoryStore) (stream other : StreamId) (now : Timestamp)
    (events : List Event) :
    (store.add stream now events).state.recordsOf other
      = store.recordsOf other
        ++ if other = stream then store.batch stream now events else [] := by
  rw [add_eq]
  show List.filter _ (store.records ++ _) = _
  rw [List.filter_append]
  congr 1
  split
  · rename_i h
    refine List.filter_eq_self.mpr fun record hrecord => ?_
    simpa [h] using stream_of_mem_batch hrecord
  · rename_i h
    refine List.filter_eq_nil_iff.mpr fun record hrecord => ?_
    rw [stream_of_mem_batch hrecord]
    simpa using Ne.symm h

theorem recordsOf_removeWhere (store : MemoryStore) (stream : StreamId) (gone : Record → Bool) :
    (store.removeWhere gone).recordsOf stream
      = (store.recordsOf stream).filter fun record => !gone record := by
  simp only [recordsOf, removeWhere, List.filter_filter, Bool.and_comm]

theorem recordsOf_withoutHead (store : MemoryStore) (stream other : StreamId) (before : Position) :
    (store.withoutHead stream before).recordsOf other
      = if other = stream then
          (store.recordsOf stream).filter fun record => !decide (record.version.position < before)
        else store.recordsOf other := by
  rw [withoutHead, recordsOf_removeWhere]
  split
  · rename_i h
    subst h
    refine List.filter_congr fun record hrecord => ?_
    have : record.stream = other := (mem_recordsOf.mp hrecord).2
    simp [this]
  · rename_i h
    refine List.filter_eq_self.mpr fun record hrecord => ?_
    have : record.stream = other := (mem_recordsOf.mp hrecord).2
    simp [this, h]

theorem recordsOf_withoutStream (store : MemoryStore) (stream other : StreamId) :
    (store.withoutStream stream).recordsOf other
      = if other = stream then [] else store.recordsOf other := by
  show (store.removeWhere _).recordsOf other = _
  rw [recordsOf_removeWhere]
  split
  · rename_i h
    refine List.filter_eq_nil_iff.mpr fun record hrecord => ?_
    have : record.stream = other := (mem_recordsOf.mp hrecord).2
    simp [this, h]
  · rename_i h
    refine List.filter_eq_self.mpr fun record hrecord => ?_
    have : record.stream = other := (mem_recordsOf.mp hrecord).2
    simp [this, h]

/-! ## What a write does -/

theorem append_of_global (store : MemoryStore) {stream : StreamId} (now : Timestamp)
    (events : List Event) (expected : Option StreamVersion) (h : stream = .global) :
    store.append stream now events expected
      = .refused store (.globalNotWritable "append to") := by
  simp [append, ensureWritable, StreamId.isGlobal, h]

theorem append_of_ne_global (store : MemoryStore) {stream : StreamId} (now : Timestamp)
    (events : List Event) (expected : Option StreamVersion) (h : stream ≠ .global) :
    store.append stream now events expected
      = store.appendChecked stream now events expected := by
  simp [append, ensureWritable, StreamId.isGlobal, h]

/-- A removal is refused, or finds nothing to remove, unless the stream is removable. -/
theorem removal_state (store : MemoryStore) (stream : StreamId) (operation : String)
    (missing found : Answer MemoryStore Unit) (hmissing : missing.state = store) :
    (match ensureRemovable stream operation with
      | .error error => .refused store error
      | .ok () =>
        match store.version? stream with
        | none => missing
        | some _ => found : Answer MemoryStore Unit).state
      = if store.Removable stream then found.state else store := by
  split
  · rename_i hr
    have hnot : ¬ store.Removable stream := by
      intro h
      rw [ensureRemovable_eq_ok_iff.mpr ⟨h.1, h.2.1⟩] at hr
      cases hr
    rw [if_neg hnot]
    rfl
  · rename_i hr
    obtain ⟨hglobal, hmarkers⟩ := ensureRemovable_eq_ok_iff.mp hr
    cases hversion : store.version? stream with
    | none =>
      have hnot : ¬ store.Removable stream := by
        intro h
        have hsome := h.2.2
        rw [hversion] at hsome
        cases hsome
      rw [if_neg hnot]
      exact hmissing
    | some version => rw [if_pos ⟨hglobal, hmarkers, by rw [hversion]; rfl⟩]

theorem truncate_state (store : MemoryStore) (stream : StreamId) (before : Position)
    (now : Timestamp) (fresh : EventId) :
    (store.truncate stream before now fresh).state =
      if store.Removable stream then
        ((store.withoutHead stream before).mark now
          (StreamTruncated.event ⟨stream, before⟩ fresh)).state
      else store :=
  store.removal_state stream "truncate" (.refused store (.streamNotFound stream)) _ rfl

theorem delete_state (store : MemoryStore) (stream : StreamId) (now : Timestamp)
    (fresh : EventId) :
    (store.delete stream now fresh).state =
      if store.Removable stream then
        ((store.withoutStream stream).mark now (StreamDeleted.event ⟨stream⟩ fresh)).state
      else store :=
  store.removal_state stream "delete" (.unchanged store ()) _ rfl

/-- A removal stops at what it keeps, or adds its marker to that. -/
theorem marked_cases {store removed kept after : MemoryStore} {stream : StreamId} {now : Timestamp}
    {marker : Event} (hkept : kept = if store.Removable stream then removed else store)
    (h : after = if store.Removable stream then (removed.mark now marker).state else store) :
    after = kept ∨ ∃ now events, Admissible kept .markers events ∧
      after = (kept.add .markers now events).state := by
  by_cases hr : store.Removable stream
  · rw [if_pos hr] at hkept h
    subst hkept
    change after = (kept.appendChecked .markers now [marker] none).state at h
    rcases kept.appendChecked_cases now [marker] none StreamId.markers_ne_global with hs | ⟨ha, hs⟩
    · exact .inl (h.trans hs)
    · exact .inr ⟨now, [marker], ha, h.trans (by rw [hs])⟩
  · rw [if_neg hr] at hkept h
    exact .inl (h.trans hkept.symm)

namespace Write

/-- A write keeps the whole store, the store without the head of a stream, or the store without a
stream. -/
theorem kept_cases (write : Write) (store : MemoryStore) (h : write ≠ .clear) :
    write.kept store = store ∨
      ∃ stream, store.Removable stream ∧
        ((∃ before, write.kept store = store.withoutHead stream before) ∨
          write.kept store = store.withoutStream stream) := by
  cases write with
  | append stream events expected now => exact .inl rfl
  | truncate stream before now fresh =>
    by_cases hr : store.Removable stream
    · exact .inr ⟨stream, hr, .inl ⟨before, if_pos hr⟩⟩
    · exact .inl (if_neg hr)
  | delete stream now fresh =>
    by_cases hr : store.Removable stream
    · exact .inr ⟨stream, hr, .inr (if_pos hr)⟩
    · exact .inl (if_neg hr)
  | clear => exact absurd rfl h

theorem recordsOf_kept_markers (write : Write) (store : MemoryStore) (h : write ≠ .clear) :
    (write.kept store).recordsOf .markers = store.recordsOf .markers := by
  rcases write.kept_cases store h with hk | ⟨stream, hr, ⟨before, hk⟩ | hk⟩
  · rw [hk]
  · rw [hk, recordsOf_withoutHead, if_neg (Ne.symm hr.2.1)]
  · rw [hk, recordsOf_withoutStream, if_neg (Ne.symm hr.2.1)]

/-- A write leaves its target alone before it appends. -/
theorem recordsOf_kept_target (write : Write) (store : MemoryStore) (h : write ≠ .clear) :
    (write.kept store).recordsOf write.target = store.recordsOf write.target := by
  cases write with
  | append stream events expected now => rfl
  | truncate stream before now fresh => exact recordsOf_kept_markers _ store h
  | delete stream now fresh => exact recordsOf_kept_markers _ store h
  | clear => exact absurd rfl h

/-- A write stops at what it keeps, or adds an admissible batch to it. -/
theorem after_eq (write : Write) (store : MemoryStore) (h : write ≠ .clear) :
    write.after store = write.kept store ∨
      ∃ now events, Admissible (write.kept store) write.target events ∧
        write.after store = ((write.kept store).add write.target now events).state := by
  cases write with
  | clear => exact absurd rfl h
  | append stream events expected now =>
    show (store.append stream now events expected).state = store ∨
      ∃ now' events', Admissible store stream events' ∧
        (store.append stream now events expected).state = (store.add stream now' events').state
    by_cases hglobal : stream = .global
    · rw [append_of_global store now events expected hglobal]
      exact .inl rfl
    · rw [append_of_ne_global store now events expected hglobal]
      rcases store.appendChecked_cases now events expected hglobal with hs | ⟨ha, hs⟩
      · exact .inl hs
      · exact .inr ⟨now, events, ha, by rw [hs]⟩
  | truncate stream before now fresh => exact marked_cases rfl (store.truncate_state ..)
  | delete stream now fresh => exact marked_cases rfl (store.delete_state ..)

/-- What a write appends when it adds a batch. -/
theorem appended_of_add {write : Write} {store : MemoryStore} (h : write ≠ .clear) {now : Timestamp}
    {events : List Event}
    (hadd : write.after store = ((write.kept store).add write.target now events).state) :
    write.appended store = (write.kept store).batch write.target now events := by
  rw [appended, hadd, recordsOf_add, if_pos rfl, recordsOf_kept_target write store h, List.drop_left]

/-- **What a write does**: it stops at what it keeps and appends nothing, or adds an admissible batch
to what it keeps. -/
theorem after_cases (write : Write) (store : MemoryStore) (h : write ≠ .clear) :
    (write.after store = write.kept store ∧ write.appended store = []) ∨
      ∃ now events, Admissible (write.kept store) write.target events ∧
        write.after store = ((write.kept store).add write.target now events).state ∧
        write.appended store = (write.kept store).batch write.target now events := by
  rcases write.after_eq store h with ha | ⟨now, events, hadm, ha⟩
  · refine .inl ⟨ha, ?_⟩
    rw [appended, ha, recordsOf_kept_target write store h, List.drop_length]
  · exact .inr ⟨now, events, hadm, ha, appended_of_add h ha⟩

theorem appended_clear (store : MemoryStore) : Write.clear.appended store = [] :=
  List.drop_nil

/-- A write keeps records in their places and appends after them. -/
theorem records_after (write : Write) (store : MemoryStore) (h : write ≠ .clear) :
    (write.after store).records = (write.kept store).records ++ write.appended store := by
  rcases write.after_cases store h with ⟨ha, hn⟩ | ⟨now, events, -, ha, hb⟩
  · rw [ha, hn, List.append_nil]
  · rw [ha, hb, add_eq]

theorem records_kept_sublist (write : Write) (store : MemoryStore) (h : write ≠ .clear) :
    (write.kept store).records.Sublist store.records := by
  rcases write.kept_cases store h with hk | ⟨stream, -, ⟨before, hk⟩ | hk⟩
  · simp only [hk, List.Sublist.refl]
  · rw [hk]
    exact List.filter_sublist
  · rw [hk]
    exact List.filter_sublist

theorem nextSequence_kept (write : Write) (store : MemoryStore) (h : write ≠ .clear) :
    (write.kept store).nextSequence = store.nextSequence := by
  rcases write.kept_cases store h with hk | ⟨stream, -, ⟨before, hk⟩ | hk⟩ <;> rw [hk] <;> rfl

theorem subscribers_kept (write : Write) (store : MemoryStore) (h : write ≠ .clear) :
    (write.kept store).subscribers = store.subscribers := by
  rcases write.kept_cases store h with hk | ⟨stream, -, ⟨before, hk⟩ | hk⟩ <;> rw [hk] <;> rfl

end Write

end MemoryStore

end EventJournal
