import EventJournal.Proofs.Store.Contention
import EventJournal.Proofs.Store.Erasure

/-!
# What the queries say of a stream

Three queries ask about a stream: what it holds, whether it exists, and between which versions its events
lie. They are answered from the records, from the versions of the streams, or from both. In every store that
can be reached they agree, and what they say of the last version is what the next event goes on from.

* `Sound.holds_iff`, `Sound.bounds_ok_iff` — a stream has an extent exactly when a read of all of it finds
  something.
* `Continues` — the next event of a stream gets the version after a given one. `Ample.next_version`: it is
  the version of the stream, whatever else is written before.
* `Sound.truncate_past` — what a truncation past the end leaves.
* `queries_agree` — the main statement.
-/

namespace EventJournal

namespace MemoryStore

section

variable {store : MemoryStore} {stream : StreamId} {writes : List Write}

/-! ## Reading all of a stream -/

/-- A read of all of a stream that succeeds gives all that there is to read. -/
theorem Sound.records_of_read (sound : Sound store) {slice : Slice}
    (h : store.read stream .forward = .ok slice) : slice = ⟨stream, store.readable stream⟩ := by
  by_cases hreadable : (stream.isGlobal || (store.version? stream).isSome) = true
  · rw [sound.read_forward (Bool.or_eq_true .. ▸ hreadable)] at h
    exact (Except.ok.inj h).symm
  · rw [read, if_neg hreadable] at h
    cases h

/-- A read of all of a stream finds something exactly when there is something to read. -/
theorem Sound.holds_iff (sound : Sound store) :
    (∃ slice, store.read stream .forward = .ok slice ∧ slice.records ≠ [])
      ↔ store.readable stream ≠ [] := by
  constructor
  · rintro ⟨slice, hread, hnonempty⟩
    rw [sound.records_of_read hread] at hnonempty
    exact hnonempty
  · intro hnonempty
    by_cases hreadable : (stream.isGlobal || (store.version? stream).isSome) = true
    · exact ⟨_, sound.read_forward (Bool.or_eq_true .. ▸ hreadable), hnonempty⟩
    · -- a stream that does not exist has no records
      exact absurd (sound.readable_of_missing (Bool.eq_false_iff.mpr hreadable)) hnonempty

/-- A read of a stream, whatever its options, fails exactly when the stream does not exist. -/
theorem exists_iff_read (h : stream ≠ .global) (options : ReadOptions) :
    store.exists? stream = true ↔ store.read stream options ≠ .error (.streamNotFound stream) := by
  have hglobal : stream.isGlobal = false := by simpa [StreamId.isGlobal] using h
  rw [exists?, read, hglobal, Bool.false_or]
  by_cases hversion : (store.version? stream).isSome = true
  · simp [hversion]
  · simp [hversion]

/-! ## The extent of a stream -/

theorem Sound.bounds_ok_iff (sound : Sound store) :
    (∃ bounds, store.bounds stream = .ok bounds) ↔ store.readable stream ≠ [] := by
  rw [sound.bounds_eq]
  cases hreadable : store.readable stream with
  | nil => simp
  | cons first rest =>
    rw [List.getLast?_eq_some_getLast (List.cons_ne_nil first rest)]
    simp

/-- The ends of the extent are the positions of the first and of the last record. -/
theorem Sound.ends_of_bounds (sound : Sound store) {bounds : StreamBounds}
    (h : store.bounds stream = .ok bounds) :
    bounds.id = stream ∧
      (∃ first ∈ (store.readable stream).head?,
        bounds.initialVersion.position = first.positionIn stream) ∧
      ∃ last ∈ (store.readable stream).getLast?, bounds.version.position = last.positionIn stream := by
  rw [sound.bounds_eq] at h
  cases hfirst : (store.readable stream).head? with
  | none => simp [hfirst] at h
  | some first =>
    cases hlast : (store.readable stream).getLast? with
    | none => simp [hfirst, hlast] at h
    | some last =>
      simp only [hfirst, hlast] at h
      cases h
      exact ⟨rfl, ⟨first, rfl, rfl⟩, last, rfl, rfl⟩

/-- The extent of a regular stream ends at its version. -/
theorem version_of_bounds (h : stream ≠ .global) {bounds : StreamBounds}
    (hbounds : store.bounds stream = .ok bounds) : bounds.version = store.versionOf stream := by
  have hglobal : ¬ stream.isGlobal = true := fun hg => h (StreamId.isGlobal_iff.mp hg)
  rw [MemoryStore.bounds, if_neg hglobal] at hbounds
  cases hfirst : (store.recordsOf stream).head? with
  | none => simp [hfirst] at hbounds
  | some first =>
    simp only [hfirst] at hbounds
    cases hbounds
    rfl

/-! ## Going on -/

/-- Whatever is written next, as long as the stream is neither deleted nor cleared and the sequence numbers
last, the first record that the stream gets has the version after this one. -/
def Continues (store : MemoryStore) (stream : StreamId) (version : StreamVersion) : Prop :=
  ∀ writes, (∀ write ∈ writes, write.Spares stream) →
    store.nextSequence.toInt + (appendedBy writes store).length ≤ Int64.maxValue.toInt →
      ∀ record, (appendedBy writes store).find? (·.stream = stream) = some record →
        record.version.toInt = version.toInt + 1

/-- The first record that a write appends to a spared stream has the version after the stream's. -/
theorem Sound.version_of_first (sound : Sound store) {write : Write} (spares : write.Spares stream)
    (room : store.nextSequence.toInt + (write.appended store).length ≤ Int64.maxValue.toInt)
    {record : Record} (hfirst : (write.appended store).find? (·.stream = stream) = some record) :
    record.version.toInt = (store.versionOf stream).toInt + 1 := by
  have hc := spares.ne_clear
  rcases write.after_cases store hc with ⟨-, hnone⟩ | ⟨now, events, hadmissible, -, hbatch⟩
  · rw [hnone] at hfirst
    cases hfirst
  · rw [hbatch, length_batch, ← write.nextSequence_kept store hc] at room
    rw [hbatch] at hfirst
    -- all of a batch belongs to one stream, so the first record of the stream is the first of the batch
    have htarget : write.target = stream := by
      rw [← stream_of_mem_batch (List.mem_of_find?_eq_some hfirst)]
      simpa using List.find?_some hfirst
    obtain ⟨event, rest, rfl⟩ := List.exists_cons_of_ne_nil hadmissible.nonempty
    have hpos : 0 < ((write.kept store).batch write.target now (event :: rest)).length := by
      rw [length_batch]
      exact Nat.succ_pos _
    have hnumber := ((sound.kept write hc).batch_numbers room hpos).1
    have hhead : ((write.kept store).batch write.target now (event :: rest))[0] = record := by
      simp only [batch, List.mapIdx_cons, htarget, List.find?_cons, decide_true] at hfirst
      simpa only [batch, List.getElem_mapIdx, htarget, List.getElem_cons_zero] using Option.some.inj hfirst
    rw [hhead, htarget, versionOf_kept spares] at hnumber
    omega

/-- So has the first one that it gets along a run. -/
theorem Ample.next_version (h : Ample store writes) (spares : ∀ write ∈ writes, write.Spares stream)
    {record : Record} (hfirst : (appendedBy writes store).find? (·.stream = stream) = some record) :
    record.version.toInt = (store.versionOf stream).toInt + 1 := by
  induction writes generalizing store with
  | nil => cases hfirst
  | cons write rest ih =>
    have hspares := spares write List.mem_cons_self
    rw [appendedBy, List.find?_append] at hfirst
    cases hown : (write.appended store).find? (·.stream = stream) with
    | some own =>
      rw [hown] at hfirst
      cases hfirst
      exact h.sound.version_of_first hspares h.room hown
    | none =>
      -- a write that leaves the stream alone leaves its version
      rw [hown] at hfirst
      have hsame := h.sound.versionOf_after hspares h.room
      rw [List.countP_eq_zero.mpr (List.find?_eq_none.mp hown), Int.natCast_zero, Int.add_zero] at hsame
      rw [← hsame]
      exact ih h.rest (fun other hother => spares other (List.mem_cons_of_mem _ hother)) hfirst

theorem Sound.continues (sound : Sound store) (stream : StreamId) :
    store.Continues stream (store.versionOf stream) := by
  intro writes spares room record hfirst
  have hone := sound.first
  refine Ample.next_version ⟨sound, (store.nextSequence.toInt - 1).toNat, ?_, ?_⟩ spares hfirst
  · omega
  · omega

/-! ## Truncated past the end -/

/-- A truncation past the end leaves a stream without records, whose version is what it was. -/
theorem Sound.truncate_past (sound : Sound store) (removable : store.Removable stream)
    {before : Position} (past : (store.versionOf stream).position < before) (now : Timestamp)
    (fresh : EventId) (room : store.nextSequence.toInt + 1 ≤ Int64.maxValue.toInt) :
    Sound (store.truncate stream before now fresh).state ∧
      (store.truncate stream before now fresh).state.recordsOf stream = [] ∧
      (store.truncate stream before now fresh).state.version? stream = store.version? stream := by
  have hhead : (store.withoutHead stream before).recordsOf stream = [] := by
    rw [recordsOf_withoutHead, if_pos rfl, List.filter_eq_nil_iff]
    intro record hrecord
    have hle := sound.version_le hrecord
    rw [Position.lt_iff_toInt, StreamVersion.toInt_position] at past
    have hbelow : record.version.position < before := by
      rw [Position.lt_iff_toInt, StreamVersion.toInt_position]
      omega
    simp [hbelow]
  have hkept := sound.withoutHead stream before
  rw [truncate_of_removable removable]
  rcases mark_cases (store.withoutHead stream before) now
    (StreamTruncated.event ⟨stream, before⟩ fresh) with ⟨-, hrefused⟩ | ⟨hunused, -, hadded⟩
  · -- the marker may be refused, and the truncation stands all the same
    rw [hrefused]
    exact ⟨hkept, hhead, rfl⟩
  · rw [hadded]
    have hadmissible : Admissible (store.withoutHead stream before) .markers
        [StreamTruncated.event ⟨stream, before⟩ fresh] :=
      ⟨StreamId.markers_ne_global, List.cons_ne_nil _ _, by simp, by simpa using hunused⟩
    refine ⟨hkept.add hadmissible room, ?_, ?_⟩
    · rw [recordsOf_add, if_neg removable.2.1, List.append_nil, hhead]
    · rw [version?_add, if_neg removable.2.1]
      rfl

/-- A stream without records that exists reads empty and has no extent. -/
theorem queries_of_emptied (h : stream ≠ .global) (emptied : store.recordsOf stream = [])
    (known : (store.version? stream).isSome) :
    store.exists? stream = true ∧ (∀ options, store.read stream options = .ok ⟨stream, []⟩) ∧
      store.bounds stream = .error (.streamNotFound stream) := by
  have hglobal : stream.isGlobal = false := by simpa [StreamId.isGlobal] using h
  refine ⟨?_, fun options => ?_, ?_⟩
  · rw [exists?, hglobal]
    exact known
  · rw [read, known, Bool.or_true, if_pos rfl, readable_of_ne_global store h, emptied, selectRecords]
    cases options.direction <;> cases hcount : options.maxCount <;> simp [ReadOptions.limit, hcount]
  · rw [MemoryStore.bounds, hglobal, emptied]
    rfl

end

/-! ## All queries -/

/-- **The queries agree**: in any store that can be reached, a stream has an extent exactly when a read of
all of it succeeds and finds something, and then the extent reaches from the position of the first record
found to that of the last. A regular stream goes on after the version where its extent ends; it exists
exactly when no read of it fails for want of the stream; and if it is truncated past its end it still exists,
reads empty, has no extent and goes on after the version that it had. The global stream exists exactly
when a read of it finds something. -/
theorem queries_agree (actions : List Journal.Action)
    (few : ((Journal.empty.appended actions).length + 1 : Int) < Int64.maxValue.toInt)
    (stream : StreamId) :
    let store := (Journal.empty.run actions).store
    ((∃ bounds, store.bounds stream = .ok bounds) ↔
        ∃ slice, store.read stream .forward = .ok slice ∧ slice.records ≠ []) ∧
      (∀ bounds slice, store.bounds stream = .ok bounds → store.read stream .forward = .ok slice →
        bounds.id = stream ∧
        (∃ first ∈ slice.records.head?, bounds.initialVersion.position = first.positionIn stream) ∧
        ∃ last ∈ slice.records.getLast?, bounds.version.position = last.positionIn stream) ∧
      (stream ≠ .global →
        (∀ bounds, store.bounds stream = .ok bounds → store.Continues stream bounds.version) ∧
        (∀ options, store.exists? stream = true ↔
          store.read stream options ≠ .error (.streamNotFound stream)) ∧
        (store.Removable stream → ∀ before now fresh,
          (store.versionOf stream).position < before →
          let truncated := (store.truncate stream before now fresh).state
          truncated.exists? stream = true ∧
          (∀ options, truncated.read stream options = .ok ⟨stream, []⟩) ∧
          truncated.bounds stream = .error (.streamNotFound stream) ∧
          truncated.Continues stream (store.versionOf stream))) ∧
      (stream = .global →
        (store.exists? stream = true ↔
          ∃ slice, store.read stream .forward = .ok slice ∧ slice.records ≠ [])) := by
  intro store
  obtain ⟨hsound, hnext⟩ := Journal.sound_run_empty actions (by omega)
  change Sound store at hsound
  refine ⟨hsound.bounds_ok_iff.trans hsound.holds_iff.symm, ?_, ?_, ?_⟩
  · intro bounds slice hbounds hread
    rw [hsound.records_of_read hread]
    exact hsound.ends_of_bounds hbounds
  · intro hregular
    refine ⟨fun bounds hbounds => ?_, exists_iff_read hregular, ?_⟩
    · rw [version_of_bounds hregular hbounds]
      exact hsound.continues stream
    · intro removable before now fresh past truncated
      have hroom : store.nextSequence.toInt + 1 ≤ Int64.maxValue.toInt := by
        have hle : store.nextSequence.toInt ≤ (Journal.empty.appended actions).length + 1 := hnext
        omega
      obtain ⟨htruncated, hemptied, hversion⟩ :=
        hsound.truncate_past removable past now fresh hroom
      have hsame : truncated.versionOf stream = store.versionOf stream := by
        rw [versionOf, hversion]
        rfl
      obtain ⟨hexists, hread, hbounds⟩ :=
        queries_of_emptied hregular hemptied (by rw [hversion]; exact removable.2.2)
      exact ⟨hexists, hread, hbounds, hsame ▸ htruncated.continues stream⟩
  · rintro rfl
    rw [hsound.holds_iff, readable_global]
    show (!store.records.isEmpty) = true ↔ _
    simp

/-- A stream of three events that lost its first one. -/
def headlessActions : List Journal.Action :=
  [.write (.append ⟨"a"⟩ [⟨⟨"1"⟩, "t", .null, .empty⟩, ⟨⟨"2"⟩, "t", .null, .empty⟩,
      ⟨⟨"3"⟩, "t", .null, .empty⟩] none default),
    .write (.truncate ⟨"a"⟩ ⟨1⟩ default ⟨"m"⟩)]

theorem queries_agree_sample :
    ((Journal.empty.appended headlessActions).length + 1 : Int) < Int64.maxValue.toInt ∧
      (Journal.empty.run headlessActions).store.bounds ⟨"a"⟩ = .ok ⟨⟨"a"⟩, ⟨2⟩, ⟨1⟩⟩ ∧
      (Journal.empty.run headlessActions).store.Continues ⟨"a"⟩ ⟨2⟩ ∧
      (Journal.empty.run headlessActions).store.Removable ⟨"a"⟩ ∧
      ((Journal.empty.run headlessActions).store.truncate ⟨"a"⟩ ⟨3⟩ default ⟨"n"⟩).state.bounds ⟨"a"⟩
        = .error (.streamNotFound ⟨"a"⟩) ∧
      ((Journal.empty.run headlessActions).store.truncate ⟨"a"⟩ ⟨3⟩ default ⟨"n"⟩).state.Continues
        ⟨"a"⟩ ⟨2⟩ :=
  have few : ((Journal.empty.appended headlessActions).length + 1 : Int) < Int64.maxValue.toInt := by
    decide
  have bounds : (Journal.empty.run headlessActions).store.bounds ⟨"a"⟩ = .ok ⟨⟨"a"⟩, ⟨2⟩, ⟨1⟩⟩ := by
    decide
  have removable : (Journal.empty.run headlessActions).store.Removable ⟨"a"⟩ := by decide
  have regular := (queries_agree headlessActions few ⟨"a"⟩).2.2.1 (by decide)
  have emptied := regular.2.2 removable ⟨3⟩ default ⟨"n"⟩ (by decide)
  ⟨few, bounds, regular.1 _ bounds, removable, emptied.2.2.1, emptied.2.2.2⟩

end MemoryStore

end EventJournal
