import EventJournal.Proofs.Store.Soundness

/-!
# Positions only grow

As long as a stream is not deleted and the store not cleared, the positions of a stream are given out
once and in increasing order. The `horizon` of a stream is the greatest of them so far: its version, or
the last sequence number on the global stream.

* `Sound.reached` and `Sound.beyond_horizon` — what is stored lies at or below the horizon, and what a
  write appends lies beyond it.
* `Settled` — a record whose numbers stand in the right order to all that is stored now, be it stored
  itself or truncated since. `Sound.settled` and `Settled.after`: every stored record is settled, and
  stays so.
-/

namespace EventJournal

namespace MemoryStore

/-- A write that neither clears the store nor deletes a stream. -/
def Write.Spares (stream : StreamId) : Write → Prop
  | .delete other _ _ => other ≠ stream
  | .clear => False
  | _ => True

instance (stream : StreamId) (write : Write) : Decidable (write.Spares stream) :=
  match write with
  | .delete other _ _ => inferInstanceAs (Decidable (other ≠ stream))
  | .clear => inferInstanceAs (Decidable False)
  | .append _ _ _ _ => inferInstanceAs (Decidable True)
  | .truncate _ _ _ _ => inferInstanceAs (Decidable True)

theorem Write.Spares.ne_clear {stream : StreamId} {write : Write} (h : write.Spares stream) :
    write ≠ .clear := by
  rintro rfl
  exact h

/-- The greatest position of a stream that was given out so far. -/
def horizon (store : MemoryStore) (stream : StreamId) : Int :=
  if stream.isGlobal then store.nextSequence.toInt - 1 else (store.versionOf stream).toInt

theorem horizon_global (store : MemoryStore) :
    store.horizon .global = store.nextSequence.toInt - 1 := rfl

theorem horizon_of_ne_global (store : MemoryStore) {stream : StreamId} (h : stream ≠ .global) :
    store.horizon stream = (store.versionOf stream).toInt := by
  rw [horizon, StreamId.isGlobal, decide_eq_false h]
  rfl

/-! ## What is stored -/

theorem mem_readable {store : MemoryStore} {stream : StreamId} {record : Record} :
    record ∈ store.readable stream ↔ record ∈ store.records ∧ stream.concerns record = true :=
  List.mem_filter

theorem concerns_iff {stream : StreamId} {record : Record} :
    stream.concerns record = true ↔ stream = .global ∨ record.stream = stream := by
  rw [StreamId.concerns, Bool.or_eq_true, StreamId.isGlobal_iff, decide_eq_true_iff]

/-- A stream that does not exist has no records. -/
theorem Sound.readable_of_missing {store : MemoryStore} (sound : Sound store) {stream : StreamId}
    (h : (stream.isGlobal || (store.version? stream).isSome) = false) : store.readable stream = [] := by
  obtain ⟨hglobal, hversion⟩ := Bool.or_eq_false_iff.mp h
  refine List.filter_eq_nil_iff.mpr fun record hrecord hconcerns => ?_
  rw [StreamId.concerns, hglobal, Bool.false_or, decide_eq_true_iff] at hconcerns
  have hknown := sound.known record hrecord
  rw [hconcerns, hversion] at hknown
  cases hknown

/-- No record kept of a stream has a version above the stream's. -/
theorem Sound.version_le {store : MemoryStore} (h : Sound store) {stream : StreamId} {record : Record}
    (hrecord : record ∈ store.recordsOf stream) :
    record.version.toInt ≤ (store.versionOf stream).toInt := by
  obtain ⟨last, hlast⟩ : ∃ last, (store.recordsOf stream).getLast? = some last := by
    cases hrecords : (store.recordsOf stream).getLast? with
    | some last => exact ⟨last, rfl⟩
    | none =>
      rw [List.getLast?_eq_none_iff.mp hrecords] at hrecord
      cases hrecord
  have hversion : store.versionOf stream = last.version := by
    rw [versionOf, h.latest stream last hlast]
    rfl
  obtain ⟨earlier, hsplit⟩ := List.getLast?_eq_some_iff.mp hlast
  have hincreasing := h.increasing stream
  rw [hsplit] at hrecord hincreasing
  rw [hversion]
  -- versions increase, so a record is the last one or lies below it
  rcases List.mem_append.mp hrecord with hearlier | hself
  · have := (List.pairwise_append.mp hincreasing).2.2 record hearlier last List.mem_cons_self
    omega
  · exact Int.le_of_eq (congrArg (·.version.toInt) (List.mem_singleton.mp hself))

/-- What is stored lies at or below the horizon. -/
theorem Sound.reached {store : MemoryStore} (h : Sound store) {stream : StreamId} {record : Record}
    (hrecord : record ∈ store.readable stream) :
    (record.positionIn stream).toInt ≤ store.horizon stream := by
  by_cases hglobal : stream = .global
  · subst hglobal
    have hlt := (h.numbered record (mem_readable.mp hrecord).1).2
    rw [SequenceNumber.lt_iff_toInt] at hlt
    rw [horizon_global, Record.positionIn_global, SequenceNumber.toInt_position]
    omega
  · rw [readable_of_ne_global store hglobal] at hrecord
    rw [horizon_of_ne_global store hglobal, record.positionIn_of_ne_global hglobal]
    exact h.version_le hrecord

theorem Sound.start_le_horizon {store : MemoryStore} (h : Sound store) (stream : StreamId) :
    -1 ≤ store.horizon stream := by
  have hfirst := h.first
  have hversion := h.versionOf_bounds stream
  unfold horizon
  split <;> omega

/-- No position in a sound store is the last word. -/
theorem Sound.positionIn_lt {store : MemoryStore} (h : Sound store) {stream : StreamId}
    {record : Record} (hrecord : record ∈ store.readable stream) :
    (record.positionIn stream).toInt < Int64.maxValue.toInt := by
  have hreached := h.reached hrecord
  have hbounds := h.versionOf_bounds stream
  have hmax : store.nextSequence.toInt ≤ Int64.maxValue.toInt := store.nextSequence.value.toInt_le
  unfold horizon at hreached
  split at hreached <;> omega

/-- On any stream, the order of positions is that of sequence numbers. -/
theorem Sound.readable_pairwise {store : MemoryStore} (h : Sound store) (stream : StreamId) :
    (store.readable stream).Pairwise fun a b =>
      a.positionIn stream < b.positionIn stream ∧ a.sequence < b.sequence :=
  (h.readable_ordered stream).and (h.ordered.sublist List.filter_sublist)

/-- Two members of a list ordered by `R` are one, or `R` relates them one way or the other. -/
theorem eq_or_of_pairwise {α : Type} {R : α → α → Prop} {items : List α} (ordered : items.Pairwise R)
    {a b : α} (ha : a ∈ items) (hb : b ∈ items) : a = b ∨ R a b ∨ R b a := by
  obtain ⟨i, hi, rfl⟩ := List.mem_iff_getElem.mp ha
  obtain ⟨j, hj, rfl⟩ := List.mem_iff_getElem.mp hb
  rcases Nat.lt_trichotomy i j with hij | rfl | hji
  · exact .inr (.inl (List.pairwise_iff_getElem.mp ordered i j hi hj hij))
  · exact .inl rfl
  · exact .inr (.inr (List.pairwise_iff_getElem.mp ordered j i hj hi hji))

/-! ## What a write does -/

section

variable {store : MemoryStore} {stream : StreamId} {write : Write} {record : Record}

/-- What can be read after a write could be read before, or was appended by it. -/
theorem mem_readable_after (hc : write ≠ .clear)
    (h : record ∈ (write.after store).readable stream) :
    record ∈ store.readable stream ∨
      record ∈ write.appended store ∧ stream.concerns record = true := by
  obtain ⟨hstored, hconcerns⟩ := mem_readable.mp h
  rw [write.records_after store hc] at hstored
  rcases List.mem_append.mp hstored with hkept | hfresh
  · have hold := (write.records_kept_sublist store hc).mem hkept
    exact .inl (mem_readable.mpr ⟨hold, hconcerns⟩)
  · exact .inr ⟨hfresh, hconcerns⟩

/-- Before a write appends, the version of a spared stream is what it was. -/
theorem versionOf_kept (spares : write.Spares stream) :
    (write.kept store).versionOf stream = store.versionOf stream := by
  cases write with
  | append other events expected now => rfl
  | clear => exact spares.elim
  | truncate other before now fresh =>
    show (if store.Removable other then store.withoutHead other before else store).versionOf stream = _
    split
    · rfl
    · rfl
  | delete other now fresh =>
    have hne : stream ≠ other := fun h => spares h.symm
    show (if store.Removable other then store.withoutStream other else store).versionOf stream = _
    split
    · rw [versionOf, version?_withoutStream, if_neg hne]
      rfl
    · rfl

/-- What a write appends lies beyond the horizon of every stream that it concerns. -/
theorem Sound.beyond_horizon (h : Sound store) (spares : write.Spares stream)
    (room : store.nextSequence.toInt + (write.appended store).length ≤ Int64.maxValue.toInt)
    (hrecord : record ∈ write.appended store) (hconcerns : stream.concerns record = true) :
    store.horizon stream < (record.positionIn stream).toInt := by
  have hc := spares.ne_clear
  have hnext := write.nextSequence_kept store hc
  rcases write.after_cases store hc with ⟨-, hn⟩ | ⟨now, events, -, -, hn⟩
  · rw [hn] at hrecord
    cases hrecord
  · rw [hn] at hrecord
    rw [hn, length_batch, ← hnext] at room
    obtain ⟨place, hplace, rfl⟩ := List.mem_iff_getElem.mp hrecord
    have hnumbers := (h.kept write hc).batch_numbers room hplace
    by_cases hglobal : stream = .global
    · subst hglobal
      rw [horizon_global, Record.positionIn_global, SequenceNumber.toInt_position, hnumbers.2, hnext]
      omega
    · have hstream : write.target = stream := by
        rw [← stream_of_mem_batch hrecord]
        exact (concerns_iff.mp hconcerns).resolve_left hglobal
      rw [horizon_of_ne_global store hglobal, Record.positionIn_of_ne_global _ hglobal,
        StreamVersion.toInt_position, hnumbers.1, hstream, versionOf_kept spares]
      omega

/-- At a position that was reached, what can be read after a write could be read before. -/
theorem Sound.mem_readable_of_le (h : Sound store) (spares : write.Spares stream)
    (room : store.nextSequence.toInt + (write.appended store).length ≤ Int64.maxValue.toInt)
    {position : Position} (reached : position.toInt ≤ store.horizon stream)
    (hrecord : record ∈ (write.after store).readable stream)
    (hle : record.positionIn stream ≤ position) : record ∈ store.readable stream := by
  rcases mem_readable_after spares.ne_clear hrecord with hold | ⟨hfresh, hconcerns⟩
  · exact hold
  · have hbeyond := h.beyond_horizon spares room hfresh hconcerns
    rw [Position.le_iff_toInt] at hle
    omega

/-- The horizon of a spared stream never falls. -/
theorem Sound.horizon_le_after (h : Sound store) (spares : write.Spares stream)
    (room : store.nextSequence.toInt + (write.appended store).length ≤ Int64.maxValue.toInt) :
    store.horizon stream ≤ (write.after store).horizon stream := by
  have hc := spares.ne_clear
  by_cases hglobal : stream = .global
  · subst hglobal
    rw [horizon_global, horizon_global, Sound.nextSequence_after write hc room]
    omega
  · rw [horizon_of_ne_global _ hglobal, horizon_of_ne_global _ hglobal]
    have hversion : (write.kept store).versionOf stream = store.versionOf stream :=
      versionOf_kept spares
    rcases write.after_cases store hc with ⟨ha, -⟩ | ⟨now, events, -, ha, hn⟩
    · exact Int.le_of_eq (by rw [ha, hversion])
    · rw [hn, length_batch] at room
      have hbounds := h.versionOf_bounds stream
      rw [ha, ← hversion]
      show _ ≤ (StreamVersion.toInt (Option.getD (MemoryStore.version? _ stream) _))
      rw [version?_add]
      split
      · rename_i htarget
        rw [Option.getD_some, ← htarget, StreamVersion.toInt_plus (by rw [hversion]; omega)]
        omega
      · exact Int.le_refl _

/-! ## Going on -/

/-- A later store as a stream sees it: what is new lies beyond all positions and sequence numbers that
were given out before. -/
structure Onward (stream : StreamId) (before after : MemoryStore) : Prop where
  horizon : before.horizon stream ≤ after.horizon stream
  next : before.nextSequence.toInt ≤ after.nextSequence.toInt
  fresh : ∀ record ∈ after.readable stream, record ∈ before.readable stream ∨
    before.horizon stream < (record.positionIn stream).toInt ∧
      before.nextSequence.toInt ≤ record.sequence.toInt

theorem Onward.refl (stream : StreamId) (store : MemoryStore) : Onward stream store store :=
  ⟨Int.le_refl _, Int.le_refl _, fun _ h => .inl h⟩

theorem Onward.trans {first second third : MemoryStore} (h : Onward stream first second)
    (h' : Onward stream second third) : Onward stream first third where
  horizon := Int.le_trans h.horizon h'.horizon
  next := Int.le_trans h.next h'.next
  fresh record hrecord := by
    have hhorizon := h.horizon
    have hnext := h.next
    rcases h'.fresh record hrecord with hold | ⟨hbeyond, hsequence⟩
    · exact h.fresh record hold
    · exact .inr ⟨by omega, by omega⟩

theorem Sound.onward (h : Sound store) (spares : write.Spares stream)
    (room : store.nextSequence.toInt + (write.appended store).length ≤ Int64.maxValue.toInt) :
    Onward stream store (write.after store) where
  horizon := h.horizon_le_after spares room
  next := by
    rw [nextSequence_after write spares.ne_clear room]
    omega
  fresh record hrecord := by
    rcases mem_readable_after spares.ne_clear hrecord with hold | ⟨hfresh, hconcerns⟩
    · exact .inl hold
    · exact .inr ⟨h.beyond_horizon spares room hfresh hconcerns,
        (h.appended_numbers write room hfresh).2⟩

/-- Writes that spare a stream go onward. -/
theorem Ample.onward_run {store : MemoryStore} {writes : List Write} (h : Ample store writes)
    (spares : ∀ write ∈ writes, write.Spares stream) : Onward stream store (store.run writes) := by
  induction writes generalizing store with
  | nil => exact .refl stream store
  | cons write rest ih =>
    have hfirst := h.sound.onward (spares write List.mem_cons_self) h.room
    have hrest := ih h.rest fun other hother => spares other (List.mem_cons_of_mem _ hother)
    exact hfirst.trans hrest

/-! ## Settled records -/

/-- A record whose numbers are given out, and which comes before everything stored beyond its position
in the order of sequence numbers too. -/
structure Settled (store : MemoryStore) (stream : StreamId) (record : Record) : Prop where
  numbered : record.sequence < store.nextSequence
  reached : (record.positionIn stream).toInt ≤ store.horizon stream
  aligned : ∀ other ∈ store.readable stream,
    record.positionIn stream < other.positionIn stream → record.sequence < other.sequence

/-- Every stored record is settled. -/
theorem Sound.settled (h : Sound store) (hrecord : record ∈ store.readable stream) :
    store.Settled stream record where
  numbered := (h.numbered record (mem_readable.mp hrecord).1).2
  reached := h.reached hrecord
  aligned other hother hlt := by
    rcases eq_or_of_pairwise (h.readable_pairwise stream) hrecord hother with
      rfl | ⟨-, hsequence⟩ | ⟨hback, -⟩
    · exact absurd hlt Std.lt_irrefl
    · exact hsequence
    · exact absurd hlt (Std.not_lt.mpr (Std.le_of_lt hback))

/-- A settled record stays settled, also when it is truncated. -/
theorem Settled.after (settled : store.Settled stream record) (sound : Sound store)
    (spares : write.Spares stream)
    (room : store.nextSequence.toInt + (write.appended store).length ≤ Int64.maxValue.toInt) :
    (write.after store).Settled stream record where
  numbered := by
    have hlt := settled.numbered
    have hnext := Sound.nextSequence_after write spares.ne_clear room
    rw [SequenceNumber.lt_iff_toInt] at hlt ⊢
    omega
  reached := Int.le_trans settled.reached (sound.horizon_le_after spares room)
  aligned other hother hlt := by
    rcases mem_readable_after spares.ne_clear hother with hold | ⟨hfresh, -⟩
    · exact settled.aligned other hold hlt
    · -- a fresh record has a sequence number that was not given out yet
      have hle := (sound.appended_numbers write room hfresh).2
      have hnumbered := settled.numbered
      rw [SequenceNumber.lt_iff_toInt] at hnumbered ⊢
      omega

end

end MemoryStore

end EventJournal
