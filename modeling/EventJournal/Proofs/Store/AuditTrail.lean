import EventJournal.Proofs.Event.Codec
import EventJournal.Proofs.Feed.Journal

/-!
# The trail of removals

Every truncation and every deletion that takes effect leaves a marker. So the stream of markers, as long as
nobody else appends to it, tells exactly which removals succeeded since the last clear, in their order.

* `Marker.ofRecord?` — the marker that a record carries, by its type.
* `MemoryStore.Write.removal?` — the marker that a call owes, told by its outcome alone.
* `MemoryStore.Audited` — the stream of markers agrees with a trail. `Audited.write`: every write keeps it so.
* `Journal.markers_eq_removals` — the main statement.
-/

namespace EventJournal

/-! ## Markers -/

/-- What a marker says. -/
inductive Marker where
  | truncated (marker : StreamTruncated)
  | deleted (marker : StreamDeleted)
  deriving Repr, DecidableEq, Inhabited

namespace Marker

/-- The event that records a marker. -/
def event : Marker → EventId → Event
  | truncated marker, id => marker.event id
  | deleted marker, id => marker.event id

/-- The marker that a record carries, by its type; none if it is of another type or does not decode. -/
def ofRecord? (record : Record) : Option Marker :=
  if record.typeName = StreamTruncated.typeName then
    (StreamTruncated.ofJson record.event.payload).toOption.map truncated
  else if record.typeName = StreamDeleted.typeName then
    (StreamDeleted.ofJson record.event.payload).toOption.map deleted
  else none

/-- A record of a marker carries this marker, whatever names and positions are in it. -/
theorem ofRecord?_event {marker : Marker} {id : EventId} {record : Record}
    (h : record.event = marker.event id) : ofRecord? record = some marker := by
  unfold ofRecord? Record.typeName
  rw [h]
  cases marker with
  | truncated marker =>
    have htype : (event (truncated marker) id).typeName = StreamTruncated.typeName := rfl
    rw [if_pos htype]
    show (StreamTruncated.ofJson marker.toJson).toOption.map truncated = _
    rw [marker.ofJson_toJson]
    rfl
  | deleted marker =>
    have htype : (event (deleted marker) id).typeName = StreamDeleted.typeName := rfl
    have hother : StreamDeleted.typeName ≠ StreamTruncated.typeName := by decide
    rw [htype, if_neg hother, if_pos rfl]
    show (StreamDeleted.ofJson marker.toJson).toOption.map deleted = _
    rw [marker.ofJson_toJson]
    rfl

end Marker

namespace MemoryStore

/-! ## What a call owes -/

/-- The marker that a call owes: a truncation that succeeded owes one, and a deletion that succeeded on a
stream that existed. -/
def Write.removal? (write : Write) (store : MemoryStore) : Option Marker :=
  match write with
  | truncate stream before now fresh =>
    if (store.truncate stream before now fresh).outcome = .ok () then
      some (.truncated ⟨stream, before⟩)
    else none
  | delete stream now fresh =>
    if (store.delete stream now fresh).outcome = .ok () ∧ store.exists? stream = true then
      some (.deleted ⟨stream⟩)
    else none
  | _ => none

/-- The markers owed after a write, given those owed before it: a clear forgets them. -/
def Write.owed (write : Write) (store : MemoryStore) (trail : List Marker) : List Marker :=
  if write = .clear then [] else trail ++ (write.removal? store).toList

/-- The write is not an append to the stream of markers. -/
def Write.LeavesMarkers : Write → Prop
  | append stream _ _ _ => stream ≠ .markers
  | _ => True

instance (write : Write) : Decidable write.LeavesMarkers :=
  match write with
  | .append stream _ _ _ => inferInstanceAs (Decidable (stream ≠ .markers))
  | .truncate _ _ _ _ => isTrue trivial
  | .delete _ _ _ => isTrue trivial
  | .clear => isTrue trivial

/-! ## Removing -/

section

variable {store : MemoryStore} {stream : StreamId}

theorem truncate_of_removable (h : store.Removable stream) (before : Position) (now : Timestamp)
    (fresh : EventId) :
    store.truncate stream before now fresh
      = (store.withoutHead stream before).mark now (StreamTruncated.event ⟨stream, before⟩ fresh) := by
  obtain ⟨hglobal, hmarkers, hversion⟩ := h
  obtain ⟨version, hversion⟩ := Option.isSome_iff_exists.mp hversion
  have hremovable : ensureRemovable stream "truncate" = .ok () :=
    ensureRemovable_eq_ok_iff.mpr ⟨hglobal, hmarkers⟩
  simp only [truncate, hremovable, hversion]

theorem truncate_of_not_removable (h : ¬ store.Removable stream) (before : Position)
    (now : Timestamp) (fresh : EventId) :
    ∃ error, store.truncate stream before now fresh = .refused store error := by
  unfold truncate
  cases hremovable : ensureRemovable stream "truncate" with
  | error error => exact ⟨error, rfl⟩
  | ok done =>
    obtain ⟨hglobal, hmarkers⟩ := ensureRemovable_eq_ok_iff.mp hremovable
    cases hversion : store.version? stream with
    | none => exact ⟨_, rfl⟩
    | some version => exact absurd ⟨hglobal, hmarkers, by rw [hversion]; rfl⟩ h

theorem delete_of_removable (h : store.Removable stream) (now : Timestamp) (fresh : EventId) :
    store.delete stream now fresh
      = (store.withoutStream stream).mark now (StreamDeleted.event ⟨stream⟩ fresh) := by
  obtain ⟨hglobal, hmarkers, hversion⟩ := h
  obtain ⟨version, hversion⟩ := Option.isSome_iff_exists.mp hversion
  have hremovable : ensureRemovable stream "delete" = .ok () :=
    ensureRemovable_eq_ok_iff.mpr ⟨hglobal, hmarkers⟩
  simp only [delete, hremovable, hversion]

/-- A deletion that removes nothing is refused, or there is no such stream. -/
theorem delete_of_not_removable (h : ¬ store.Removable stream) (now : Timestamp) (fresh : EventId) :
    (∃ error, store.delete stream now fresh = .refused store error) ∨
      store.exists? stream = false ∧ store.delete stream now fresh = .unchanged store () := by
  unfold delete
  cases hremovable : ensureRemovable stream "delete" with
  | error error => exact .inl ⟨error, rfl⟩
  | ok done =>
    obtain ⟨hglobal, hmarkers⟩ := ensureRemovable_eq_ok_iff.mp hremovable
    cases hversion : store.version? stream with
    | none =>
      right
      rw [exists?, if_neg fun h => hglobal (StreamId.isGlobal_iff.mp h), hversion]
      exact ⟨rfl, rfl⟩
    | some version => exact absurd ⟨hglobal, hmarkers, by rw [hversion]; rfl⟩ h

theorem Removable.exists? (h : store.Removable stream) : store.exists? stream = true := by
  rw [MemoryStore.exists?, if_neg fun hglobal => h.1 (StreamId.isGlobal_iff.mp hglobal)]
  exact h.2.2

end

/-! ## Leaving a marker -/

/-- A marker whose id is in use is refused; any other is appended. -/
theorem mark_cases (store : MemoryStore) (now : Timestamp) (marker : Event) :
    (marker.id ∈ store.ids ∧
      store.mark now marker = .refused store (.duplicateEventId marker.id)) ∨
    (marker.id ∉ store.ids ∧ (store.mark now marker).outcome = .ok () ∧
      (store.mark now marker).state = (store.add .markers now [marker]).state) := by
  have hunique : checkUnique [marker] = .ok () := rfl
  have hexpected : checkExpected .markers none (store.versionOf .markers) = .ok () := rfl
  unfold mark
  by_cases hused : marker.id ∈ store.ids
  · left
    have hduplicate : store.duplicate? [marker] = some marker := by
      simp [duplicate?, hused]
    simp only [appendChecked, hunique, hexpected, hduplicate]
    exact ⟨hused, rfl⟩
  · right
    have hduplicate : store.duplicate? [marker] = none := by
      simp [duplicate?, hused]
    simp only [appendChecked, hunique, hexpected, hduplicate]
    exact ⟨hused, rfl, rfl⟩

/-- The stream of markers holds one record for each marker of a trail, in order, numbered from zero on. -/
structure Audited (store : MemoryStore) (trail : List Marker) : Prop where
  carried : (store.recordsOf .markers).map Marker.ofRecord? = trail.map some
  numbered : ∀ (place : Nat) (record : Record), (store.recordsOf .markers)[place]? = some record →
    record.version = ⟨Int64.ofNat place⟩
  /-- The next record gets the number after these. -/
  next : (store.versionOf .markers).next = ⟨Int64.ofNat trail.length⟩

namespace Audited

variable {store after : MemoryStore} {trail : List Marker} {stream : StreamId}

theorem empty (subscribers : Subscribers) : Audited { MemoryStore.empty with subscribers } [] where
  carried := rfl
  numbered _ _ := nofun
  next := by
    show (StreamVersion.initial).next = _
    decide

/-- Whatever else happens to a store, the trail is told by the records and the version of the markers. -/
theorem of_same (h : Audited store trail) (records : after.recordsOf .markers = store.recordsOf .markers)
    (version : after.version? .markers = store.version? .markers) : Audited after trail where
  carried := by
    rw [records]
    exact h.carried
  numbered := by
    rw [records]
    exact h.numbered
  next := by
    rw [versionOf, version]
    exact h.next

theorem withoutHead (h : Audited store trail) (other : stream ≠ .markers) (before : Position) :
    Audited (store.withoutHead stream before) trail := by
  refine h.of_same ?_ rfl
  rw [recordsOf_withoutHead, if_neg other.symm]

theorem withoutStream (h : Audited store trail) (other : stream ≠ .markers) :
    Audited (store.withoutStream stream) trail := by
  refine h.of_same ?_ ?_
  · rw [recordsOf_withoutStream, if_neg other.symm]
  · rw [version?_withoutStream, if_neg other.symm]

/-- A marker that is appended gets the next number. -/
theorem add (h : Audited store trail) (marker : Marker) (now : Timestamp) (id : EventId) :
    Audited (store.add .markers now [marker.event id]).state (trail ++ [marker]) := by
  have hlength : (store.recordsOf .markers).length = trail.length := by
    have hmap := congrArg List.length h.carried
    simpa using hmap
  have hbatch : store.batch .markers now [marker.event id]
      = [{ event := marker.event id, stream := .markers, version := (store.versionOf .markers).next,
           sequence := store.nextSequence.plus 0, recordedAt := now }] := rfl
  have hrecords : (store.add .markers now [marker.event id]).state.recordsOf .markers
      = store.recordsOf .markers ++ store.batch .markers now [marker.event id] := by
    rw [recordsOf_add, if_pos rfl]
  constructor
  case carried =>
    rw [hrecords, hbatch, List.map_append, List.map_append, h.carried]
    congr 1
    exact congrArg (fun carried => [carried]) (Marker.ofRecord?_event rfl)
  case numbered =>
    intro place record hrecord
    rw [hrecords, hbatch] at hrecord
    by_cases hplace : place < (store.recordsOf .markers).length
    · rw [List.getElem?_append_left hplace] at hrecord
      exact h.numbered place record hrecord
    · -- the only place beyond the old ones is the one after them
      rw [List.getElem?_append_right (Nat.le_of_not_lt hplace), List.getElem?_singleton] at hrecord
      split at hrecord
      · rename_i hzero
        cases hrecord
        have heq : place = trail.length := by omega
        rw [heq]
        exact h.next
      · cases hrecord
  case next =>
    rw [versionOf, version?_add, if_pos rfl]
    show ((store.versionOf .markers).next).next = _
    rw [h.next, List.length_append, List.length_singleton, StreamVersion.next, Int64.ofNat_add]
    rfl

/-- A removal that comes to its marker leaves it, or fails. -/
theorem mark (h : Audited store trail) (marker : Marker) (now : Timestamp) (id : EventId) :
    Audited (store.mark now (marker.event id)).state
      (trail ++ if (store.mark now (marker.event id)).outcome = .ok () then [marker] else []) := by
  rcases store.mark_cases now (marker.event id) with ⟨-, hrefused⟩ | ⟨-, hok, hadded⟩
  · rw [hrefused, if_neg (by simp [Answer.refused]), List.append_nil]
    exact h
  · rw [hok, hadded, if_pos rfl]
    exact h.add marker now id

/-- Every write leaves the markers that are owed after it, and no others. -/
theorem write (h : Audited store trail) (write : Write) (leaves : write.LeavesMarkers) :
    Audited (write.after store) (write.owed store trail) := by
  cases write with
  | clear => exact empty _
  | append stream events expected now =>
    have hnone : (Write.append stream events expected now).owed store trail = trail :=
      List.append_nil trail
    have hother : StreamId.markers ≠ (Write.append stream events expected now).target :=
      Ne.symm leaves
    have hkept : (Write.append stream events expected now).kept store = store := rfl
    rw [hnone]
    rcases (Write.append stream events expected now).after_cases store Write.noConfusion with
      ⟨hafter, -⟩ | ⟨moment, batch, -, hafter, -⟩
    · rw [hafter, hkept]
      exact h
    · rw [hafter, hkept]
      refine h.of_same ?_ ?_
      · rw [recordsOf_add, if_neg hother, List.append_nil]
      · rw [version?_add, if_neg hother]
  | truncate stream before now fresh =>
    show Audited (store.truncate stream before now fresh).state
      (trail ++ (Write.removal? (.truncate stream before now fresh) store).toList)
    by_cases hremovable : store.Removable stream
    · simp only [Write.removal?, truncate_of_removable hremovable, apply_ite Option.toList]
      exact (h.withoutHead hremovable.2.1 before).mark (.truncated ⟨stream, before⟩) now fresh
    · obtain ⟨error, hrefused⟩ := truncate_of_not_removable hremovable before now fresh
      simpa [Write.removal?, hrefused, Answer.refused] using h
  | delete stream now fresh =>
    show Audited (store.delete stream now fresh).state
      (trail ++ (Write.removal? (.delete stream now fresh) store).toList)
    by_cases hremovable : store.Removable stream
    · simp only [Write.removal?, delete_of_removable hremovable, hremovable.exists?, and_true,
        apply_ite Option.toList]
      exact (h.withoutStream hremovable.2.1).mark (.deleted ⟨stream⟩) now fresh
    · rcases delete_of_not_removable hremovable now fresh with
        ⟨error, hrefused⟩ | ⟨hmissing, hunchanged⟩
      · simpa [Write.removal?, hrefused, Answer.refused] using h
      · simpa [Write.removal?, hunchanged, hmissing, Answer.unchanged] using h

end Audited

/-! ## What cannot be removed, and what is not refused -/

/-- The stream of markers itself can neither be truncated nor deleted. -/
theorem removal_of_markers (store : MemoryStore) (before : Position) (now : Timestamp)
    (fresh : EventId) :
    store.truncate .markers before now fresh
        = .refused store (.internalProtected "truncate" .markers) ∧
      store.delete .markers now fresh = .refused store (.internalProtected "delete" .markers) :=
  ⟨rfl, rfl⟩

/-- Every write but a clear leaves the markers in their places. -/
theorem Write.markers_prefix (write : Write) (store : MemoryStore) (h : write ≠ .clear) :
    store.recordsOf .markers <+: (write.after store).recordsOf .markers := by
  rw [← recordsOf_kept_markers write store h]
  rcases write.after_cases store h with ⟨hafter, -⟩ | ⟨now, events, -, hafter, -⟩
  · simp only [hafter, List.prefix_refl]
  · rw [hafter, recordsOf_add]
    exact List.prefix_append _ _

/-- A stream that can be removed is, if the id for the marker is not in use. -/
theorem removal_succeeds {store : MemoryStore} {stream : StreamId} (removable : store.Removable stream)
    {fresh : EventId} (unused : fresh ∉ store.ids) (before : Position) (now : Timestamp) :
    (store.truncate stream before now fresh).outcome = .ok () ∧
      (store.delete stream now fresh).outcome = .ok () := by
  -- what is removed frees ids and takes none
  have hmark {removed : MemoryStore} {marker : Event} (hid : marker.id = fresh)
      (hids : removed.ids ⊆ store.ids) : (removed.mark now marker).outcome = .ok () := by
    rcases removed.mark_cases now marker with ⟨hused, -⟩ | ⟨-, hok, -⟩
    · rw [hid] at hused
      exact absurd (hids hused) unused
    · exact hok
  constructor
  · rw [truncate_of_removable removable]
    exact hmark rfl (List.filter_subset_self _)
  · rw [delete_of_removable removable]
    exact hmark rfl (List.filter_subset_self _)

end MemoryStore

namespace Journal

/-- Nobody appends to the stream of markers in an action. -/
def Action.LeavesMarkers (action : Action) : Prop :=
  match action with
  | .write call => call.LeavesMarkers
  | _ => True

instance (action : Action) : Decidable action.LeavesMarkers :=
  match action with
  | .write call => inferInstanceAs (Decidable call.LeavesMarkers)
  | .subscribe _ _ => isTrue trivial
  | .pump _ => isTrue trivial
  | .receive _ => isTrue trivial
  | .close _ => isTrue trivial
  | .drop _ => isTrue trivial

/-- The markers owed after an action, given those owed before it. -/
def owed (journal : Journal) (trail : List Marker) (action : Action) : List Marker :=
  match action with
  | .write call => call.owed journal.store trail
  | _ => trail

/-- The removals that succeeded since the last clear, one marker for each, in order; `trail` are those
before. -/
def removals (journal : Journal) (trail : List Marker) : List Action → List Marker
  | [] => trail
  | action :: rest => (journal.step action).removals (journal.owed trail action) rest

/-- An action leaves the markers that are owed after it. -/
theorem audited_step {journal : Journal} {trail : List Marker} (h : journal.store.Audited trail)
    (action : Action) (leaves : action.LeavesMarkers) :
    (journal.step action).store.Audited (journal.owed trail action) := by
  by_cases hwrite : ∃ write, action = .write write
  · obtain ⟨write, rfl⟩ := hwrite
    exact h.write write leaves
  · have howed : journal.owed trail action = trail := by
      cases action with
      | write write => exact absurd ⟨write, rfl⟩ hwrite
      | _ => rfl
    obtain ⟨-, subscribers, hstore⟩ := (journal.store_step action).resolve_left hwrite
    rw [howed, hstore]
    exact h.of_same rfl rfl

/-- So does a run. -/
theorem audited_run {journal : Journal} {trail : List Marker} (h : journal.store.Audited trail)
    (actions : List Action) (leaves : ∀ action ∈ actions, action.LeavesMarkers) :
    (journal.run actions).store.Audited (journal.removals trail actions) := by
  induction actions generalizing journal trail with
  | nil => exact h
  | cons action rest ih =>
    refine ih (audited_step h action (leaves action List.mem_cons_self)) ?_
    intro other hother
    exact leaves other (List.mem_cons_of_mem _ hother)

/-- **The markers are the removals**: after any run in which nobody appends to the stream of markers, the
records there carry, in order, one marker for each truncation and each deletion of an existing stream that
succeeded since the last clear, with its stream and position, and no others; they have the versions from zero
on. They cannot be truncated or deleted, and nothing but a clear takes one away. A stream that can be removed
is removed, as long as the marker gets an id of its own. -/
theorem markers_eq_removals (actions : List Action)
    (leaves : ∀ action ∈ actions, action.LeavesMarkers) :
    let store := (empty.run actions).store
    (store.recordsOf .markers).map Marker.ofRecord? = (empty.removals [] actions).map some ∧
      (∀ (place : Nat) (record : Record), (store.recordsOf .markers)[place]? = some record →
        record.version = ⟨Int64.ofNat place⟩) ∧
      (∀ before now fresh,
        store.truncate .markers before now fresh
            = .refused store (.internalProtected "truncate" .markers) ∧
          store.delete .markers now fresh
            = .refused store (.internalProtected "delete" .markers)) ∧
      (∀ write : MemoryStore.Write, write ≠ .clear →
        store.recordsOf .markers <+: (write.after store).recordsOf .markers) ∧
      ∀ stream before now fresh, store.Removable stream → fresh ∉ store.ids →
        (store.truncate stream before now fresh).outcome = .ok () ∧
          (store.delete stream now fresh).outcome = .ok () := by
  intro store
  have haudited : store.Audited (empty.removals [] actions) :=
    audited_run (.empty .empty) actions leaves
  refine ⟨haudited.carried, haudited.numbered, store.removal_of_markers, ?_, ?_⟩
  · intro write hc
    exact write.markers_prefix store hc
  · intro stream before now fresh removable unused
    exact MemoryStore.removal_succeeds removable unused before now

/-- Removals that succeed, that are refused, that find nothing, and one whose marker gets an id in use; a
clear; and again. -/
def sampleRemovals : List Action :=
  [.write (.append ⟨"a"⟩ [⟨⟨"1"⟩, "t", .null, .empty⟩, ⟨⟨"2"⟩, "t", .null, .empty⟩] none default),
    .write (.truncate ⟨"a"⟩ ⟨1⟩ default ⟨"m1"⟩), .write .clear, .subscribe .markers .all,
    .write (.append ⟨"a"⟩ [⟨⟨"1"⟩, "t", .null, .empty⟩] none default),
    .write (.append ⟨"b"⟩ [⟨⟨"3"⟩, "t", .null, .empty⟩] none default),
    .write (.truncate ⟨"a"⟩ ⟨-7⟩ default ⟨"m1"⟩), .write (.truncate ⟨"c"⟩ ⟨1⟩ default ⟨"m2"⟩),
    .write (.delete ⟨"c"⟩ default ⟨"m2"⟩), .write (.delete .markers default ⟨"m2"⟩), .pump 0,
    .write (.delete ⟨"b"⟩ default ⟨"m1"⟩), .write (.delete ⟨"a"⟩ default ⟨"m2"⟩)]

theorem markers_eq_removals_sample :
    (∀ action ∈ sampleRemovals, action.LeavesMarkers) ∧
      ((empty.run sampleRemovals).store.recordsOf .markers).map Marker.ofRecord?
        = [some (.truncated ⟨⟨"a"⟩, ⟨-7⟩⟩), some (.deleted ⟨⟨"a"⟩⟩)] := by
  have leaves : ∀ action ∈ sampleRemovals, action.LeavesMarkers := by decide
  have howed : empty.removals [] sampleRemovals
      = [.truncated ⟨⟨"a"⟩, ⟨-7⟩⟩, .deleted ⟨⟨"a"⟩⟩] := by decide
  refine ⟨leaves, ?_⟩
  rw [(markers_eq_removals sampleRemovals leaves).1, howed]
  rfl

end Journal

end EventJournal
