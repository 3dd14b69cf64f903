import EventJournal.Proofs.Feed.Decision
import EventJournal.Proofs.Store.AuditTrail

/-!
# What a removal takes, and what it leaves alone

A truncation and a deletion each touch four things: the records, the ids in use, the versions of the
streams and, for the marker, the next sequence number. What they do to each of them is told here, for any
position to truncate before, a negative one and the last one included.

* `MemoryStore.append_ok_iff` — which batches can be appended, and as which records.
* `MemoryStore.Cut` — a store without some records of one stream; `Cut.marked`, what becomes of it when a
  marker is left.
* `MemoryStore.Erased` — the whole effect of a removal: what went, what was freed, what stayed.
* `MemoryStore.removal_effect` — the main statement.
-/

namespace EventJournal

namespace MemoryStore

/-! ## What can be appended -/

/-- A batch is appended when the stream can be written and has the expected version, if there is one, and the
ids of the batch are distinct and none of them is in use. -/
theorem append_ok_iff {store : MemoryStore} {stream : StreamId} {now : Timestamp} {events : List Event}
    {expected : Option StreamVersion} {records : List Record} :
    (store.append stream now events expected).outcome = .ok records ↔
      stream ≠ .global ∧ (events.map Event.id).Nodup ∧
        (∀ version ∈ expected, version = store.versionOf stream) ∧
        (∀ event ∈ events, event.id ∉ store.ids) ∧ records = store.batch stream now events := by
  by_cases hglobal : stream = .global
  · rw [append_of_global store now events expected hglobal]
    simp [Answer.refused, hglobal]
  rw [append_of_ne_global store now events expected hglobal, ← checkUnique_eq_ok_iff,
    ← checkExpected_eq_ok_iff, ← duplicate?_eq_none_iff]
  -- the checks in the order in which they are made
  cases hunique : checkUnique events with
  | error error => simp [appendChecked, hunique, Answer.refused]
  | ok _ =>
    cases hexpected : checkExpected stream expected (store.versionOf stream) with
    | error error => simp [appendChecked, hunique, hexpected]
    | ok _ =>
      by_cases hempty : events = []
      · subst hempty
        simp [appendChecked, hunique, hexpected, Answer.unchanged, hglobal, duplicate?, batch, eq_comm]
      · cases hduplicate : store.duplicate? events with
        | some event =>
          simp [appendChecked, hunique, hexpected, hempty, hduplicate, Answer.refused]
        | none =>
          have houtcome : (store.appendChecked stream now events expected).outcome
              = .ok (store.batch stream now events) := by
            simp [appendChecked, hunique, hexpected, hempty, hduplicate, add_eq]
          rw [houtcome]
          simp only [Except.ok.injEq, hglobal, ne_eq, not_false_eq_true, true_and]
          exact eq_comm

/-- An event may be appended to a stream, whatever its version. -/
def Appendable (store : MemoryStore) (stream : StreamId) (event : Event) : Prop :=
  ∀ now, ∃ records, (store.append stream now [event] none).outcome = .ok records

theorem appendable_iff {store : MemoryStore} {stream : StreamId} {event : Event} :
    store.Appendable stream event ↔ stream ≠ .global ∧ event.id ∉ store.ids := by
  constructor
  · intro h
    obtain ⟨records, hrecords⟩ := h default
    obtain ⟨hglobal, -, -, hunused, -⟩ := append_ok_iff.mp hrecords
    exact ⟨hglobal, hunused event List.mem_cons_self⟩
  · rintro ⟨hglobal, hunused⟩ now
    refine ⟨_, append_ok_iff.mpr ⟨hglobal, List.nodup_singleton _, nofun, ?_, rfl⟩⟩
    intro other hother
    rw [List.mem_singleton.mp hother]
    exact hunused

/-! ## Cutting records out -/

/-- A store without the records of one stream that a predicate picks out. Their ids are free. -/
structure Cut (store removed : MemoryStore) (stream : StreamId) (gone : Record → Bool) : Prop where
  records : removed.records
    = store.records.filter fun record => !(decide (record.stream = stream) && gone record)
  ids : ∀ id, id ∈ removed.ids ↔
    id ∈ store.ids ∧ ∀ record ∈ store.recordsOf stream, gone record = true → record.id ≠ id
  versions : ∀ other, other ≠ stream → removed.version? other = store.version? other
  next : removed.nextSequence = store.nextSequence

section

variable {store removed : MemoryStore} {stream : StreamId} {gone : Record → Bool}

theorem mem_ids_removeWhere (store : MemoryStore) (stream : StreamId) (gone : Record → Bool)
    (id : EventId) :
    id ∈ (store.removeWhere fun record => decide (record.stream = stream) && gone record).ids ↔
      id ∈ store.ids ∧ ∀ record ∈ store.recordsOf stream, gone record = true → record.id ≠ id := by
  simp only [removeWhere, List.mem_filter, Bool.not_eq_eq_eq_not, Bool.not_true, List.any_eq_false,
    decide_eq_true_eq, Bool.and_eq_true, mem_recordsOf]
  refine and_congr_right fun _ => ⟨?_, ?_⟩
  · rintro h record ⟨hrecord, hstream⟩ hgone
    exact h record ⟨hrecord, hstream, hgone⟩
  · rintro h record ⟨hrecord, hstream, hgone⟩
    exact h record ⟨hrecord, hstream⟩ hgone

theorem cut_withoutHead (store : MemoryStore) (stream : StreamId) (before : Position) :
    Cut store (store.withoutHead stream before) stream fun record => record.version.position < before where
  records := rfl
  ids := store.mem_ids_removeWhere stream _
  versions _ _ := rfl
  next := rfl

theorem cut_withoutStream (store : MemoryStore) (stream : StreamId) :
    Cut store (store.withoutStream stream) stream fun _ => true where
  records := by simp [withoutStream, removeWhere]
  ids id := by
    have hgone : (fun record : Record => decide (record.stream = stream))
        = fun record => decide (record.stream = stream) && true := by simp
    show id ∈ (store.removeWhere fun record => decide (record.stream = stream)).ids ↔ _
    rw [hgone]
    exact store.mem_ids_removeWhere stream (fun _ => true) id
  versions other hother := by rw [version?_withoutStream, if_neg hother]
  next := rfl

/-! ## The effect of a removal -/

/-- The records of one stream that a predicate picks out were removed, and a marker was left. -/
structure Erased (store after : MemoryStore) (stream : StreamId) (gone : Record → Bool)
    (marker : Record) : Prop where
  /-- All other records stand where they stood, unaltered, and the marker after them. -/
  records : after.records
    = (store.records.filter fun record => !(decide (record.stream = stream) && gone record)) ++ [marker]
  own : after.recordsOf stream = (store.recordsOf stream).filter fun record => !gone record
  /-- The ids of the removed records are free, and no others. -/
  ids : ∀ id, id ∈ after.ids ↔ id = marker.id ∨
    id ∈ store.ids ∧ ∀ record ∈ store.recordsOf stream, gone record = true → record.id ≠ id
  /-- So an event of one of these ids can be appended again, and no other that could not before. -/
  appendable : ∀ target event, after.Appendable target event ↔ event.id ≠ marker.id ∧
    (store.Appendable target event ∨ target ≠ .global ∧
      ∃ record ∈ store.recordsOf stream, gone record = true ∧ record.id = event.id)
  /-- No other stream notices, the one of markers apart. -/
  others : ∀ other, other ≠ stream → other ≠ .markers →
    after.recordsOf other = store.recordsOf other ∧ after.version? other = store.version? other ∧
      (other ≠ .global → ∀ options, after.read other options = store.read other options)
  /-- The marker is numbered like any record appended to its stream. -/
  marked : marker.stream = .markers ∧ marker.version = (store.versionOf .markers).next ∧
    marker.sequence = store.nextSequence
  next : after.nextSequence = store.nextSequence.next

/-- A store without some records of a stream, with a marker. -/
theorem Cut.marked (cut : Cut store removed stream gone) (other : stream ≠ .markers) (now : Timestamp)
    (marker : Event) :
    Erased store (removed.add .markers now [marker]).state stream gone
      { event := marker, stream := .markers, version := (store.versionOf .markers).next,
        sequence := store.nextSequence, recordedAt := now } := by
  have hversion : removed.versionOf .markers = store.versionOf .markers := by
    rw [versionOf, versionOf, cut.versions .markers other.symm]
  have hbatch : removed.batch .markers now [marker]
      = [{ event := marker, stream := .markers, version := (store.versionOf .markers).next,
           sequence := store.nextSequence, recordedAt := now }] := by
    rw [batch, hversion, cut.next, List.mapIdx_singleton, SequenceNumber.plus_zero]
    rfl
  have hrecords : ∀ name, removed.recordsOf name
      = (store.recordsOf name).filter fun record => !(decide (record.stream = stream) && gone record) := by
    intro name
    rw [recordsOf, recordsOf, cut.records, List.filter_filter, List.filter_filter]
    exact List.filter_congr fun record _ => Bool.and_comm ..
  have hids : ∀ id, id ∈ (removed.add .markers now [marker]).state.ids ↔ id = marker.id ∨
      id ∈ store.ids ∧ ∀ record ∈ store.recordsOf stream, gone record = true → record.id ≠ id := by
    intro id
    rw [add_eq, hbatch, ← cut.ids, List.mem_append]
    show _ ∨ id ∈ [marker.id] ↔ _
    rw [List.mem_singleton, or_comm]
  have hothers : ∀ name, name ≠ stream → name ≠ .markers →
      (removed.add .markers now [marker]).state.recordsOf name = store.recordsOf name ∧
        (removed.add .markers now [marker]).state.version? name = store.version? name := by
    intro name hstream hmarkers
    rw [recordsOf_add, if_neg hmarkers, List.append_nil, hrecords, version?_add, if_neg hmarkers,
      cut.versions name hstream]
    refine ⟨List.filter_eq_self.mpr fun record hrecord => ?_, rfl⟩
    rw [(mem_recordsOf.mp hrecord).2, decide_eq_false hstream]
    rfl
  constructor
  case records => rw [add_eq, cut.records, hbatch]
  case own =>
    rw [recordsOf_add, if_neg other, List.append_nil, hrecords]
    refine List.filter_congr fun record hrecord => ?_
    rw [(mem_recordsOf.mp hrecord).2, decide_eq_true rfl, Bool.true_and]
  case ids => exact hids
  case appendable =>
    intro target event
    rw [appendable_iff, appendable_iff, hids]
    show _ ↔ event.id ≠ marker.id ∧ _
    by_cases hused : event.id ∈ store.ids <;> by_cases hglobal : target = .global <;>
      simp [hused, hglobal]
  case others =>
    intro name hstream hmarkers
    obtain ⟨hown, hversion⟩ := hothers name hstream hmarkers
    refine ⟨hown, hversion, fun hglobal options => ?_⟩
    rw [MemoryStore.read, MemoryStore.read, readable_of_ne_global _ hglobal,
      readable_of_ne_global _ hglobal, hown, hversion]
  case marked => exact ⟨rfl, rfl, rfl⟩
  case next =>
    rw [add_eq, cut.next]
    exact (SequenceNumber.plus_succ ..).trans (SequenceNumber.plus_zero _)

/-- If the id of the marker is not in use, it is left; that does not concern the version of the stream. -/
theorem Cut.mark (cut : Cut store removed stream gone) (other : stream ≠ .markers) (now : Timestamp)
    (marker : Event) (unused : marker.id ∉ store.ids) :
    (∃ left, left.event = marker ∧ Erased store (removed.mark now marker).state stream gone left) ∧
      (removed.mark now marker).state.version? stream = removed.version? stream := by
  -- what is removed frees ids and takes none
  have hunused : marker.id ∉ removed.ids := fun hused => unused ((cut.ids marker.id).mp hused).1
  rcases removed.mark_cases now marker with ⟨hused, -⟩ | ⟨-, -, hadded⟩
  · exact absurd hused hunused
  · rw [hadded, version?_add, if_neg other]
    exact ⟨⟨_, rfl, cut.marked other now marker⟩, rfl⟩

end

section

variable {store : MemoryStore} {stream : StreamId} {fresh : EventId}

/-- What a truncation removes, and that the stream goes on as it would have. -/
theorem truncate_erased (removable : store.Removable stream) (unused : fresh ∉ store.ids)
    (before : Position) (now : Timestamp) :
    let truncated := (store.truncate stream before now fresh).state
    (∃ marker, marker.event = StreamTruncated.event ⟨stream, before⟩ fresh ∧
        Erased store truncated stream (fun record => record.version.position < before) marker) ∧
      truncated.version? stream = store.version? stream := by
  intro truncated
  show (∃ marker, _ ∧ Erased store (store.truncate stream before now fresh).state stream _ marker) ∧
    (store.truncate stream before now fresh).state.version? stream = _
  rw [truncate_of_removable removable]
  exact (store.cut_withoutHead stream before).mark removable.2.1 now
    (StreamTruncated.event ⟨stream, before⟩ fresh) unused

/-- What a deletion removes, and that nothing of the stream is left. -/
theorem delete_erased (removable : store.Removable stream) (unused : fresh ∉ store.ids)
    (now : Timestamp) :
    let deleted := (store.delete stream now fresh).state
    (∃ marker, marker.event = StreamDeleted.event ⟨stream⟩ fresh ∧
        Erased store deleted stream (fun _ => true) marker) ∧
      deleted.recordsOf stream = [] ∧ deleted.version? stream = none := by
  intro deleted
  show (∃ marker, _ ∧ Erased store (store.delete stream now fresh).state stream _ marker) ∧
    (store.delete stream now fresh).state.recordsOf stream = [] ∧
    (store.delete stream now fresh).state.version? stream = none
  rw [delete_of_removable removable]
  obtain ⟨⟨marker, hmarker, herased⟩, hversion⟩ :=
    (store.cut_withoutStream stream).mark removable.2.1 now
      (StreamDeleted.event ⟨stream⟩ fresh) unused
  refine ⟨⟨marker, hmarker, herased⟩, ?_, ?_⟩
  · rw [herased.own]
    exact List.filter_eq_nil_iff.mpr fun _ _ => nofun
  · rw [hversion, version?_withoutStream, if_pos rfl]

theorem removable_iff :
    store.Removable stream ↔ stream ≠ .global ∧ stream ≠ .markers ∧ store.exists? stream = true := by
  refine and_congr_right fun hglobal => and_congr_right fun _ => ?_
  rw [exists?, if_neg fun h => hglobal (StreamId.isGlobal_iff.mp h)]

theorem truncate_ok_iff (unused : fresh ∉ store.ids) (before : Position) (now : Timestamp) :
    (store.truncate stream before now fresh).outcome = .ok () ↔ store.Removable stream := by
  by_cases hremovable : store.Removable stream
  · exact iff_of_true (removal_succeeds hremovable unused before now).1 hremovable
  · obtain ⟨error, hrefused⟩ := truncate_of_not_removable hremovable before now fresh
    rw [hrefused]
    exact iff_of_false nofun hremovable

/-- A deletion is refused for nothing but the name of the stream. -/
theorem delete_ok_iff (unused : fresh ∉ store.ids) (now : Timestamp) :
    (store.delete stream now fresh).outcome = .ok () ↔ stream ≠ .global ∧ stream ≠ .markers := by
  cases hallowed : ensureRemovable stream "delete" with
  | error error =>
    refine iff_of_false ?_ fun h => ?_
    · simp [delete, hallowed, Answer.refused]
    · rw [ensureRemovable_eq_ok_iff.mpr h] at hallowed
      cases hallowed
  | ok done =>
    have hnames := ensureRemovable_eq_ok_iff.mp hallowed
    refine iff_of_true ?_ hnames
    cases hversion : store.version? stream with
    | none => simp only [delete, hallowed, hversion, Answer.unchanged]
    | some version =>
      exact (removal_succeeds ⟨hnames.1, hnames.2, by rw [hversion]; rfl⟩ unused .start now).2

/-- A removal that fails, or has nothing to remove, changes nothing. -/
theorem removal_of_not_removable (h : ¬ store.Removable stream) (before : Position) (now : Timestamp)
    (fresh : EventId) :
    (store.truncate stream before now fresh).state = store ∧
      (store.delete stream now fresh).state = store := by
  constructor
  · obtain ⟨error, hrefused⟩ := truncate_of_not_removable h before now fresh
    rw [hrefused]
    rfl
  · rcases delete_of_not_removable h now fresh with ⟨error, hrefused⟩ | ⟨-, hunchanged⟩
    · rw [hrefused]
      rfl
    · rw [hunchanged]
      rfl

end

end MemoryStore

/-! ## The sequence numbers given -/

namespace Journal

/-- The records appended since the last clear, given those before an action. -/
def issuedIn (journal : Journal) (issued : List Record) (action : Action) : List Record :=
  if action = .write .clear then []
  else issued ++ (journal.news action).filterMap LiveMessage.record?

/-- The records appended since the last clear, in order; `issued` are those before. -/
def issued (journal : Journal) (issued : List Record) : List Action → List Record
  | [] => issued
  | action :: rest => (journal.step action).issued (journal.issuedIn issued action) rest

/-- The next sequence number is greater than all that were given since the last clear, as long as they do
not run out. -/
theorem issued_step {journal : Journal} (sound : journal.store.Sound) {earlier : List Record}
    (below : ∀ record ∈ earlier, record.sequence < journal.store.nextSequence) (action : Action)
    (room : journal.store.nextSequence.toInt
      + ((journal.news action).filterMap LiveMessage.record?).length ≤ Int64.maxValue.toInt) :
    ∀ record ∈ journal.issuedIn earlier action,
      record.sequence < (journal.step action).store.nextSequence := by
  intro record hrecord
  unfold issuedIn at hrecord
  split at hrecord
  · cases hrecord
  rename_i hclear
  rcases journal.store_step action with ⟨write, rfl⟩ | ⟨hnews, subscribers, hstore⟩
  · have hnews : (journal.news (.write write)).filterMap LiveMessage.record?
        = write.appended journal.store := filterMap_news write journal.store
    have hwrite : write ≠ .clear := fun heq => hclear (congrArg Action.write heq)
    rw [hnews] at room hrecord
    rcases List.mem_append.mp hrecord with hold | hnew
    · have hlt := below record hold
      have hnext := MemoryStore.Sound.nextSequence_after write hwrite room
      show record.sequence < (write.after journal.store).nextSequence
      rw [SequenceNumber.lt_iff_toInt] at hlt ⊢
      omega
    · exact (sound.appended_ordered write room).2 record hnew
  · rw [hnews, List.filterMap_nil, List.append_nil] at hrecord
    rw [hstore]
    exact below record hrecord

theorem issued_run {journal : Journal} (sound : journal.store.Sound) {earlier : List Record}
    (below : ∀ record ∈ earlier, record.sequence < journal.store.nextSequence)
    (actions : List Action) (count : Nat) (hcount : journal.store.nextSequence.toInt ≤ count + 1)
    (few : (count : Int) + (journal.appended actions).length < Int64.maxValue.toInt) :
    ∀ record ∈ journal.issued earlier actions,
      record.sequence < (journal.run actions).store.nextSequence := by
  induction actions generalizing journal earlier count with
  | nil => exact below
  | cons action rest ih =>
    rw [appended_cons, List.length_append, Int.natCast_add] at few
    obtain ⟨hsound, hnext⟩ := sound_step sound action (by omega)
    exact ih hsound (issued_step sound below action (by omega))
      (count + ((journal.news action).filterMap LiveMessage.record?).length) (by omega) (by omega)

end Journal

namespace MemoryStore

/-- A removal does not set the next sequence number back. -/
theorem nextSequence_le_removal {store : MemoryStore} {fresh : EventId} (unused : fresh ∉ store.ids)
    (room : store.nextSequence.toInt < Int64.maxValue.toInt) (stream : StreamId) (before : Position)
    (now : Timestamp) :
    store.nextSequence ≤ (store.truncate stream before now fresh).state.nextSequence ∧
      store.nextSequence ≤ (store.delete stream now fresh).state.nextSequence := by
  simp only [SequenceNumber.le_iff_toInt]
  by_cases hremovable : store.Removable stream
  · obtain ⟨⟨_, -, htruncated⟩, -⟩ := truncate_erased hremovable unused before now
    obtain ⟨⟨_, -, hdeleted⟩, -⟩ := delete_erased hremovable unused now
    rw [htruncated.next, hdeleted.next, SequenceNumber.toInt_next room]
    omega
  · obtain ⟨htruncated, hdeleted⟩ := removal_of_not_removable hremovable before now fresh
    rw [htruncated, hdeleted]
    exact ⟨Int.le_refl _, Int.le_refl _⟩

/-- The records that a stream gets are numbered from its version on. -/
theorem version_of_append_ok {store : MemoryStore} {stream : StreamId} {now : Timestamp}
    {events : List Event} {expected : Option StreamVersion} {records : List Record}
    (h : (store.append stream now events expected).outcome = .ok records) {place : Nat}
    {record : Record} (hrecord : records[place]? = some record) :
    record.version = (store.versionOf stream).plus (place + 1) := by
  obtain ⟨-, -, -, -, rfl⟩ := append_ok_iff.mp h
  rw [batch, List.getElem?_mapIdx] at hrecord
  obtain ⟨event, -, rfl⟩ := Option.map_eq_some_iff.mp hrecord
  rfl

/-- **The effect of a removal**: in any store that can be reached, a truncation succeeds exactly for a stream
that exists and is neither the global one nor that of markers, whatever the position, and a deletion for
one that is neither of these. A truncation takes the records below the position, and the stream goes on with
the next version; a deletion takes all of a stream that exists, and changes nothing for one that does not.
`Erased` tells what this frees and leaves alone. A removal that fails changes nothing, and no removal gives a
sequence number a second time. -/
theorem removal_effect (actions : List Journal.Action) (stream : StreamId) (before : Position)
    (now : Timestamp) (fresh : EventId) (unused : fresh ∉ (Journal.empty.run actions).store.ids) :
    let store := (Journal.empty.run actions).store
    let truncated := store.truncate stream before now fresh
    let deleted := store.delete stream now fresh
    (truncated.outcome = .ok () ↔
        stream ≠ .global ∧ stream ≠ .markers ∧ store.exists? stream = true) ∧
      (truncated.outcome = .ok () →
        (∃ marker, marker.event = StreamTruncated.event ⟨stream, before⟩ fresh ∧
          Erased store truncated.state stream (fun record => record.version.position < before) marker) ∧
        truncated.state.version? stream = store.version? stream ∧
        ∀ moment events expected records,
          (truncated.state.append stream moment events expected).outcome = .ok records →
            ∀ (place : Nat) (record : Record), records[place]? = some record →
              record.version = (store.versionOf stream).plus (place + 1)) ∧
      (truncated.outcome ≠ .ok () → truncated.state = store) ∧
      (deleted.outcome = .ok () ↔ stream ≠ .global ∧ stream ≠ .markers) ∧
      (deleted.outcome = .ok () → store.exists? stream = true →
        (∃ marker, marker.event = StreamDeleted.event ⟨stream⟩ fresh ∧
          Erased store deleted.state stream (fun _ => true) marker) ∧
        deleted.state.recordsOf stream = [] ∧ deleted.state.version? stream = none) ∧
      (deleted.outcome = .ok () → store.exists? stream = false → deleted.state = store) ∧
      (deleted.outcome ≠ .ok () → deleted.state = store) ∧
      (((Journal.empty.appended actions).length + 1 : Int) < Int64.maxValue.toInt →
        ∀ record ∈ Journal.empty.issued [] actions, record.sequence < store.nextSequence ∧
          record.sequence < truncated.state.nextSequence ∧
          record.sequence < deleted.state.nextSequence) := by
  intro store truncated deleted
  have htruncated : truncated.outcome = .ok () ↔ store.Removable stream :=
    truncate_ok_iff unused before now
  have hdeleted : deleted.outcome = .ok () ↔ stream ≠ .global ∧ stream ≠ .markers :=
    delete_ok_iff unused now
  have hkept : ¬ store.Removable stream → truncated.state = store ∧ deleted.state = store :=
    fun hremovable => removal_of_not_removable hremovable before now fresh
  refine ⟨htruncated.trans removable_iff, ?_, ?_, hdeleted, ?_, ?_, ?_, ?_⟩
  · intro hok
    obtain ⟨herased, hversion⟩ := truncate_erased (htruncated.mp hok) unused before now
    refine ⟨herased, hversion, fun moment events expected records happended place record hrecord => ?_⟩
    rw [version_of_append_ok happended hrecord, versionOf, hversion]
    rfl
  · exact fun herror => (hkept (mt htruncated.mpr herror)).1
  · intro hok hexists
    have hnames := hdeleted.mp hok
    exact delete_erased (removable_iff.mpr ⟨hnames.1, hnames.2, hexists⟩) unused now
  · intro _ hmissing
    refine (hkept fun hremovable => ?_).2
    rw [hremovable.exists?] at hmissing
    cases hmissing
  · intro herror
    refine (hkept fun hremovable => herror (hdeleted.mpr ?_)).2
    exact ⟨hremovable.1, hremovable.2.1⟩
  · intro few record hrecord
    obtain ⟨-, hnext⟩ := Journal.sound_run_empty actions (by omega)
    have hempty : Journal.empty.store.Sound := Sound.empty .empty
    have hroom : store.nextSequence.toInt < Int64.maxValue.toInt := by
      have hle : store.nextSequence.toInt ≤ (Journal.empty.appended actions).length + 1 := hnext
      omega
    have hnone : ∀ record ∈ ([] : List Record), record.sequence < Journal.empty.store.nextSequence :=
      List.forall_mem_nil _
    have hbelow : record.sequence < store.nextSequence :=
      Journal.issued_run hempty hnone actions 0 (by decide) (by omega) record hrecord
    obtain ⟨hletruncated, hledeleted⟩ := nextSequence_le_removal unused hroom stream before now
    exact ⟨hbelow, Int64.lt_of_lt_of_le hbelow hletruncated, Int64.lt_of_lt_of_le hbelow hledeleted⟩

/-- Two streams, one of them with three events. -/
def stockedActions : List Journal.Action :=
  [.write (.append ⟨"a"⟩ [⟨⟨"1"⟩, "t", .null, .empty⟩, ⟨⟨"2"⟩, "t", .null, .empty⟩,
      ⟨⟨"3"⟩, "t", .null, .empty⟩] none default),
    .write (.append ⟨"b"⟩ [⟨⟨"4"⟩, "t", .null, .empty⟩] none default)]

theorem removal_effect_sample :
    (⟨"m"⟩ : EventId) ∉ (Journal.empty.run stockedActions).store.ids ∧
      ((Journal.empty.run stockedActions).store.truncate ⟨"a"⟩ ⟨2⟩ default ⟨"m"⟩).outcome = .ok () ∧
      (((Journal.empty.run stockedActions).store.truncate ⟨"a"⟩ ⟨2⟩ default ⟨"m"⟩).state.recordsOf
          ⟨"a"⟩).map Record.id = [⟨"3"⟩] ∧
      ((Journal.empty.run stockedActions).store.truncate ⟨"a"⟩ ⟨2⟩ default ⟨"m"⟩).state.version? ⟨"a"⟩
        = some ⟨2⟩ ∧
      ((Journal.empty.run stockedActions).store.delete ⟨"a"⟩ default ⟨"m"⟩).state.version? ⟨"a"⟩
        = none ∧
      ∀ record ∈ Journal.empty.issued [] stockedActions,
        record.sequence < (Journal.empty.run stockedActions).store.nextSequence :=
  have unused : (⟨"m"⟩ : EventId) ∉ (Journal.empty.run stockedActions).store.ids := by decide
  have few : ((Journal.empty.appended stockedActions).length + 1 : Int) < Int64.maxValue.toInt := by
    decide
  have effect := removal_effect stockedActions ⟨"a"⟩ ⟨2⟩ default ⟨"m"⟩ unused
  have truncated := effect.1.mpr ⟨by decide, by decide, by decide⟩
  have deleted := effect.2.2.2.1.mpr ⟨by decide, by decide⟩
  ⟨unused, truncated, by decide, (effect.2.1 truncated).2.1,
    (effect.2.2.2.2.1 deleted (by decide)).2.2,
    fun record hrecord => (effect.2.2.2.2.2.2.2 few record hrecord).1⟩

end MemoryStore

end EventJournal
