import Mathlib.Data.List.Chain
import Mathlib.Data.List.Nodup
import EventJournal.Proofs.Store.Write

/-!
# The store in memory is sound

The store keeps the same facts in four places: the records, the versions of the streams, the ids in use
and the next sequence number. Two invariants say that they agree.

* `Indexed` — the ids in use are those of the records, each once, and every record's stream has a
  version. Every write keeps it, whatever the numbers.
* `Sound` — in addition records stand in the order of their sequence numbers, below the next one, and
  the records kept of a stream have consecutive versions that end at the stream's. A write keeps it as
  long as the sequence numbers do not run out (`Sound.after`).

A store is `Ample` for some writes when it is sound and its sequence numbers last for them.

Main statement: `run_sound`, whatever is written to a fresh store, it is sound and every write but a
clear only removes records and appends later ones.
-/

namespace EventJournal

namespace MemoryStore

/-! ## The index agrees with the records -/

/-- The ids in use and the streams with a version are those of the records. -/
structure Indexed (store : MemoryStore) : Prop where
  /-- The ids in use are exactly those of the records. -/
  ids : ∀ id, id ∈ store.ids ↔ ∃ record ∈ store.records, record.id = id
  /-- No two records share an id. -/
  unique : (store.records.map Record.id).Nodup
  /-- Every record's stream has a version. -/
  known : ∀ record ∈ store.records, (store.version? record.stream).isSome
  /-- The global stream never has one. -/
  global : store.version? .global = none

namespace Indexed

variable {store : MemoryStore} {stream : StreamId}

theorem empty (subscribers : Subscribers) : Indexed { MemoryStore.empty with subscribers } where
  ids := by simp [MemoryStore.empty]
  unique := List.nodup_nil
  known := nofun
  global := rfl

theorem withSubscribers (h : Indexed store) (subscribers : Subscribers) :
    Indexed { store with subscribers } :=
  ⟨h.ids, h.unique, h.known, h.global⟩

/-- Records with the same id are one record. -/
theorem eq_of_id_eq (h : Indexed store) {a b : Record} (ha : a ∈ store.records)
    (hb : b ∈ store.records) (hid : a.id = b.id) : a = b :=
  List.inj_on_of_nodup_map h.unique ha hb hid

theorem mem_ids_removeWhere (h : Indexed store) (gone : Record → Bool) (id : EventId) :
    id ∈ (store.removeWhere gone).ids
      ↔ ∃ record ∈ (store.removeWhere gone).records, record.id = id := by
  simp only [removeWhere, List.mem_filter, Bool.not_eq_eq_eq_not, Bool.not_true,
    List.any_eq_false, decide_eq_true_eq]
  constructor
  · rintro ⟨hid, hkept⟩
    obtain ⟨record, hrecord, rfl⟩ := (h.ids id).mp hid
    refine ⟨record, ⟨hrecord, ?_⟩, rfl⟩
    exact Bool.eq_false_iff.mpr fun hgone => hkept record ⟨hrecord, hgone⟩ rfl
  · rintro ⟨record, ⟨hrecord, hgone⟩, rfl⟩
    refine ⟨(h.ids _).mpr ⟨record, hrecord, rfl⟩, ?_⟩
    rintro other ⟨hother, hothergone⟩ hid
    rw [h.eq_of_id_eq hother hrecord hid, hgone] at hothergone
    cases hothergone

theorem unique_removeWhere (h : Indexed store) (gone : Record → Bool) :
    ((store.removeWhere gone).records.map Record.id).Nodup :=
  h.unique.sublist (List.filter_sublist.map _)

theorem withoutHead (h : Indexed store) (stream : StreamId) (before : Position) :
    Indexed (store.withoutHead stream before) where
  ids := h.mem_ids_removeWhere _
  unique := h.unique_removeWhere _
  known record hrecord := h.known record (List.mem_of_mem_filter hrecord)
  global := h.global

theorem withoutStream (h : Indexed store) (stream : StreamId) :
    Indexed (store.withoutStream stream) where
  ids := h.mem_ids_removeWhere _
  unique := h.unique_removeWhere _
  known record hrecord := by
    obtain ⟨hmem, hother⟩ := List.mem_filter.mp hrecord
    rw [version?_withoutStream, if_neg (by simpa using hother)]
    exact h.known record hmem
  global := by
    rw [version?_withoutStream, h.global]
    exact ite_self none

theorem add (h : Indexed store) {events : List Event} (ha : Admissible store stream events)
    (now : Timestamp) : Indexed (store.add stream now events).state where
  ids id := by
    simp only [add_eq, List.mem_append, List.mem_map, h.ids]
    constructor
    · rintro (⟨record, hrecord, rfl⟩ | ⟨record, hrecord, rfl⟩)
      · exact ⟨record, .inl hrecord, rfl⟩
      · exact ⟨record, .inr hrecord, rfl⟩
    · rintro ⟨record, hrecord | hrecord, rfl⟩
      · exact .inl ⟨record, hrecord, rfl⟩
      · exact .inr ⟨record, hrecord, rfl⟩
  unique := by
    simp only [add_eq, List.map_append, map_id_batch]
    refine List.nodup_append.mpr ⟨h.unique, ha.distinct, ?_⟩
    rintro id hold other hnew rfl
    obtain ⟨record, hrecord, rfl⟩ := List.mem_map.mp hold
    obtain ⟨event, hevent, hid⟩ := List.mem_map.mp hnew
    exact ha.unused event hevent ((h.ids _).mpr ⟨record, hrecord, hid.symm⟩)
  known record hrecord := by
    rw [version?_add]
    split
    · rfl
    · rename_i hother
      rw [add_eq] at hrecord
      rcases List.mem_append.mp hrecord with hold | hnew
      · exact h.known record hold
      · exact absurd (stream_of_mem_batch hnew) hother
  global := by
    rw [version?_add, if_neg (Ne.symm ha.writable)]
    exact h.global

/-- Every write keeps the index. -/
theorem after (h : Indexed store) (write : Write) : Indexed (write.after store) := by
  by_cases hc : write = .clear
  · rw [hc]
    exact empty _
  · have hkept : Indexed (write.kept store) := by
      rcases write.kept_cases store hc with hk | ⟨stream, -, ⟨before, hk⟩ | hk⟩
      · rw [hk]
        exact h
      · rw [hk]
        exact h.withoutHead stream before
      · rw [hk]
        exact h.withoutStream stream
    rcases write.after_cases store hc with ⟨ha, -⟩ | ⟨now, events, hadm, ha, -⟩
    · rw [ha]
      exact hkept
    · rw [ha]
      exact hkept.add hadm now

end Indexed

/-! ## Numbers are in order -/

/-- In a list ordered by `R`, what satisfies a predicate that `R` passes on stands at the end. -/
theorem filter_suffix {α : Type} {R : α → α → Prop} {p : α → Bool} {items : List α}
    (ordered : items.Pairwise R) (passes : ∀ a b, R a b → p a = true → p b = true) :
    items.filter p <:+ items := by
  induction items with
  | nil => exact List.suffix_refl []
  | cons item rest ih =>
    obtain ⟨hitem, hrest⟩ := List.pairwise_cons.mp ordered
    by_cases hp : p item = true
    · have hall : ∀ other ∈ item :: rest, p other = true := by
        intro other hother
        rcases List.mem_cons.mp hother with rfl | hother
        · exact hp
        · exact passes item other (hitem other hother) hp
      exact (List.filter_eq_self.mpr hall).symm ▸ List.suffix_refl _
    · rw [List.filter_cons_of_neg hp]
      exact (ih hrest).trans (List.suffix_cons item rest)

theorem getLast?_of_suffix {α : Type} {part items : List α} {last : α} (h : part <:+ items)
    (hlast : part.getLast? = some last) : items.getLast? = some last := by
  obtain ⟨front, rfl⟩ := h
  rw [List.getLast?_append, hlast]
  rfl

/-- A version and the one after it. -/
def Successive (a b : Record) : Prop := b.version.toInt = a.version.toInt + 1

/-- The store is indexed and its numbers are in order. -/
structure Sound (store : MemoryStore) : Prop extends Indexed store where
  /-- Numbering starts at one. -/
  first : 1 ≤ store.nextSequence.toInt
  /-- Records stand in strictly increasing order of their sequence numbers. -/
  ordered : store.records.Pairwise (·.sequence < ·.sequence)
  /-- All of these lie in the range from one up to the next sequence number. -/
  numbered : ∀ record ∈ store.records,
    1 ≤ record.sequence.toInt ∧ record.sequence < store.nextSequence
  /-- The versions kept of a stream are consecutive … -/
  dense : ∀ stream, (store.recordsOf stream).IsChain Successive
  /-- … and end, when any record remains, at the version of the stream. -/
  latest : ∀ stream, ∀ last ∈ (store.recordsOf stream).getLast?,
    store.version? stream = some last.version
  /-- A stream has no version below zero, and fewer events than there are sequence numbers in use. -/
  version : ∀ stream version, store.version? stream = some version →
    0 ≤ version.toInt ∧ version.toInt + 1 < store.nextSequence.toInt
  /-- No record has a version below zero. -/
  positive : ∀ record ∈ store.records, 0 ≤ record.version.toInt

namespace Sound

variable {store : MemoryStore} {stream : StreamId} {now : Timestamp} {events : List Event}

theorem empty (subscribers : Subscribers) : Sound { MemoryStore.empty with subscribers } where
  toIndexed := .empty subscribers
  first := by
    show 1 ≤ SequenceNumber.first.toInt
    exact Int.le_of_eq SequenceNumber.toInt_first.symm
  ordered := .nil
  numbered := nofun
  dense _ := .nil
  latest _ := nofun
  version _ _ := nofun
  positive := nofun

theorem withSubscribers (h : Sound store) (subscribers : Subscribers) :
    Sound { store with subscribers } :=
  { h with toIndexed := h.toIndexed.withSubscribers subscribers }

theorem versionOf_bounds (h : Sound store) (stream : StreamId) :
    -1 ≤ (store.versionOf stream).toInt ∧
      (store.versionOf stream).toInt + 1 < store.nextSequence.toInt := by
  have hfirst := h.first
  unfold versionOf
  cases hv : store.version? stream with
  | none =>
    show -1 ≤ StreamVersion.initial.toInt ∧ StreamVersion.initial.toInt + 1 < _
    rw [StreamVersion.toInt_initial]
    omega
  | some version =>
    have := h.version stream version hv
    show -1 ≤ version.toInt ∧ version.toInt + 1 < _
    omega

/-- The versions kept of a stream increase. -/
theorem increasing (h : Sound store) (stream : StreamId) :
    (store.recordsOf stream).Pairwise (·.version.toInt < ·.version.toInt) := by
  have : IsTrans Record (·.version.toInt < ·.version.toInt) := ⟨fun _ _ _ => Int.lt_trans⟩
  refine List.IsChain.pairwise ((h.dense stream).imp fun a b hab => ?_)
  show a.version.toInt < b.version.toInt
  rw [hab]
  omega

/-! ### Removing -/

/-- Truncation leaves the last records of the stream, in their places. -/
theorem suffix_withoutHead (h : Sound store) (stream other : StreamId) (before : Position) :
    (store.withoutHead stream before).recordsOf other <:+ store.recordsOf other := by
  rw [recordsOf_withoutHead]
  split
  · rename_i heq
    subst heq
    refine filter_suffix (h.increasing other) fun a b hab ha => ?_
    simp only [Bool.not_eq_eq_eq_not, Bool.not_true, decide_eq_false_iff_not,
      Position.lt_iff_toInt, StreamVersion.toInt_position] at ha ⊢
    omega
  · exact List.suffix_refl _

theorem withoutHead (h : Sound store) (stream : StreamId) (before : Position) :
    Sound (store.withoutHead stream before) where
  toIndexed := h.toIndexed.withoutHead stream before
  first := h.first
  ordered := h.ordered.sublist List.filter_sublist
  numbered record hrecord := h.numbered record (List.mem_of_mem_filter hrecord)
  dense other := (h.dense other).suffix (h.suffix_withoutHead stream other before)
  latest other last hlast :=
    h.latest other last (getLast?_of_suffix (h.suffix_withoutHead stream other before) hlast)
  version := h.version
  positive record hrecord := h.positive record (List.mem_of_mem_filter hrecord)

theorem withoutStream (h : Sound store) (stream : StreamId) :
    Sound (store.withoutStream stream) where
  toIndexed := h.toIndexed.withoutStream stream
  first := h.first
  ordered := h.ordered.sublist List.filter_sublist
  numbered record hrecord := h.numbered record (List.mem_of_mem_filter hrecord)
  dense other := by
    rw [recordsOf_withoutStream]
    split
    · exact .nil
    · exact h.dense other
  latest other last hlast := by
    rw [recordsOf_withoutStream] at hlast
    rw [version?_withoutStream]
    split at hlast
    · cases hlast
    · rename_i hother
      rw [if_neg hother]
      exact h.latest other last hlast
  version other version hversion := by
    rw [version?_withoutStream] at hversion
    split at hversion
    · cases hversion
    · exact h.version other version hversion
  positive record hrecord := h.positive record (List.mem_of_mem_filter hrecord)

/-! ### Adding -/

/-- The numbers of a batch, as long as the sequence numbers do not run out. -/
theorem batch_numbers (h : Sound store)
    (room : store.nextSequence.toInt + events.length ≤ Int64.maxValue.toInt)
    {place : Nat} (hplace : place < (store.batch stream now events).length) :
    (store.batch stream now events)[place].version.toInt
        = (store.versionOf stream).toInt + 1 + place ∧
      (store.batch stream now events)[place].sequence.toInt
        = store.nextSequence.toInt + place := by
  have hversion := h.versionOf_bounds stream
  rw [length_batch] at hplace
  simp only [batch, List.getElem_mapIdx]
  rw [StreamVersion.toInt_plus (by omega), SequenceNumber.toInt_plus (by omega)]
  omega

theorem mem_batch_numbers (h : Sound store)
    (room : store.nextSequence.toInt + events.length ≤ Int64.maxValue.toInt)
    {record : Record} (hrecord : record ∈ store.batch stream now events) :
    0 ≤ record.version.toInt ∧ store.nextSequence.toInt ≤ record.sequence.toInt ∧
      record.sequence.toInt < store.nextSequence.toInt + events.length := by
  obtain ⟨place, hplace, rfl⟩ := List.mem_iff_getElem.mp hrecord
  have hnumbers := h.batch_numbers room hplace
  have hversion := h.versionOf_bounds stream
  rw [length_batch] at hplace
  omega

/-- The sequence numbers of a batch increase. -/
theorem ordered_batch (h : Sound store)
    (room : store.nextSequence.toInt + events.length ≤ Int64.maxValue.toInt) :
    (store.batch stream now events).Pairwise (·.sequence < ·.sequence) := by
  refine List.pairwise_iff_getElem.mpr fun i j hi hj hij => ?_
  rw [SequenceNumber.lt_iff_toInt, (h.batch_numbers room hi).2, (h.batch_numbers room hj).2]
  omega

/-- The versions of a batch are consecutive. -/
theorem dense_batch (h : Sound store)
    (room : store.nextSequence.toInt + events.length ≤ Int64.maxValue.toInt) :
    (store.batch stream now events).IsChain Successive := by
  refine List.isChain_iff_getElem.mpr fun i hi => ?_
  rw [Successive, (h.batch_numbers room hi).1, (h.batch_numbers room _).1]
  omega

/-- The last record after a batch was added has the version that the stream then has. -/
theorem version_of_getLast?_batch (hne : events ≠ []) {earlier : List Record} {last : Record}
    (hlast : last ∈ (earlier ++ store.batch stream now events).getLast?) :
    last.version = (store.versionOf stream).plus events.length := by
  have hpos := List.length_pos_of_ne_nil hne
  have hbatch : (store.batch stream now events).getLast? ≠ none := by
    rw [Ne, List.getLast?_eq_none_iff, ← List.length_eq_zero_iff, length_batch]
    omega
  obtain ⟨record, hrecord⟩ := Option.ne_none_iff_exists'.mp hbatch
  rw [List.getLast?_append, hrecord, Option.some_or, Option.mem_some_iff] at hlast
  rw [List.getLast?_eq_getElem?, length_batch, batch, List.getElem?_mapIdx] at hrecord
  obtain ⟨event, -, rfl⟩ := Option.map_eq_some_iff.mp hrecord
  rw [← hlast]
  show (store.versionOf stream).plus (events.length - 1 + 1) = _
  rw [Nat.sub_add_cancel hpos]

theorem toInt_nextSequence_add
    (room : store.nextSequence.toInt + events.length ≤ Int64.maxValue.toInt) :
    (store.add stream now events).state.nextSequence.toInt
      = store.nextSequence.toInt + events.length := by
  rw [add_eq]
  exact SequenceNumber.toInt_plus room

theorem add (h : Sound store) (ha : Admissible store stream events)
    (room : store.nextSequence.toInt + events.length ≤ Int64.maxValue.toInt) :
    Sound (store.add stream now events).state where
  toIndexed := h.toIndexed.add ha now
  first := by
    have := h.first
    rw [toInt_nextSequence_add room]
    omega
  ordered := by
    rw [add_eq]
    -- among the old records, within the batch, and between the two
    refine List.pairwise_append.mpr ⟨h.ordered, ?_, ?_⟩
    · exact h.ordered_batch room
    · intro old hold new hnew
      have hlt := (h.numbered old hold).2
      have hle := (h.mem_batch_numbers room hnew).2.1
      rw [SequenceNumber.lt_iff_toInt] at hlt ⊢
      omega
  numbered record hrecord := by
    have hfirst := h.first
    rw [SequenceNumber.lt_iff_toInt, toInt_nextSequence_add room]
    rw [add_eq] at hrecord
    rcases List.mem_append.mp hrecord with hold | hnew
    · have := h.numbered record hold
      rw [SequenceNumber.lt_iff_toInt] at this
      omega
    · have := h.mem_batch_numbers room hnew
      omega
  dense other := by
    rw [recordsOf_add]
    split
    · rename_i heq
      subst heq
      -- the batch is consecutive, and goes on where the stream ended
      refine List.isChain_append.mpr ⟨h.dense other, ?_, ?_⟩
      · exact h.dense_batch room
      · intro last hlast new hnew
        have hversion : store.versionOf other = last.version := by
          rw [versionOf, h.latest other last hlast]
          rfl
        rw [List.head?_eq_getElem?] at hnew
        obtain ⟨hlt, rfl⟩ := List.getElem?_eq_some_iff.mp hnew
        rw [Successive, (h.batch_numbers room hlt).1, hversion]
        omega
    · rw [List.append_nil]
      exact h.dense other
  latest other last hlast := by
    rw [recordsOf_add] at hlast
    rw [version?_add]
    split at hlast
    · rename_i heq
      subst heq
      rw [if_pos rfl]
      exact congrArg some (version_of_getLast?_batch ha.nonempty hlast).symm
    · rename_i hother
      rw [List.append_nil] at hlast
      rw [if_neg hother]
      exact h.latest other last hlast
  version other version hversion := by
    have hbounds := h.versionOf_bounds stream
    rw [toInt_nextSequence_add room]
    rw [version?_add] at hversion
    split at hversion
    · cases hversion
      have := List.length_pos_of_ne_nil ha.nonempty
      rw [StreamVersion.toInt_plus (by omega)]
      omega
    · have := h.version other version hversion
      omega
  positive record hrecord := by
    rw [add_eq] at hrecord
    rcases List.mem_append.mp hrecord with hold | hnew
    · exact h.positive record hold
    · exact (h.mem_batch_numbers room hnew).1

/-! ### Writing -/

theorem kept (h : Sound store) (write : Write) (hc : write ≠ .clear) :
    Sound (write.kept store) := by
  rcases write.kept_cases store hc with hk | ⟨stream, -, ⟨before, hk⟩ | hk⟩
  · rw [hk]
    exact h
  · rw [hk]
    exact h.withoutHead stream before
  · rw [hk]
    exact h.withoutStream stream

/-- A write keeps the store sound as long as the sequence numbers do not run out. -/
theorem after (h : Sound store) (write : Write)
    (room : store.nextSequence.toInt + (write.appended store).length ≤ Int64.maxValue.toInt) :
    Sound (write.after store) := by
  by_cases hc : write = .clear
  · rw [hc]
    exact empty _
  · rcases write.after_cases store hc with ⟨ha, -⟩ | ⟨now, events, hadm, ha, hn⟩
    · rw [ha]
      exact h.kept write hc
    · rw [hn, length_batch] at room
      rw [ha]
      refine (h.kept write hc).add hadm ?_
      rw [write.nextSequence_kept store hc]
      exact room

theorem nextSequence_after (write : Write) (hc : write ≠ .clear)
    (room : store.nextSequence.toInt + (write.appended store).length ≤ Int64.maxValue.toInt) :
    (write.after store).nextSequence.toInt
      = store.nextSequence.toInt + (write.appended store).length := by
  have hkept := write.nextSequence_kept store hc
  rcases write.after_cases store hc with ⟨ha, hn⟩ | ⟨now, events, -, ha, hn⟩
  · rw [ha, hn, hkept]
    simp
  · rw [hn, length_batch] at room ⊢
    rw [ha, toInt_nextSequence_add (by rw [hkept]; exact room), hkept]

/-- No write uses up more sequence numbers than it appends records. -/
theorem nextSequence_after_le (h : Sound store) (write : Write)
    (room : store.nextSequence.toInt + (write.appended store).length ≤ Int64.maxValue.toInt) :
    (write.after store).nextSequence.toInt
      ≤ store.nextSequence.toInt + (write.appended store).length := by
  by_cases hc : write = .clear
  · have hfirst := h.first
    rw [hc]
    show SequenceNumber.first.toInt ≤ _
    rw [SequenceNumber.toInt_first]
    omega
  · exact Int.le_of_eq (nextSequence_after write hc room)

/-- A write appends records with sequence numbers from the next one on. -/
theorem appended_numbers (h : Sound store) (write : Write)
    (room : store.nextSequence.toInt + (write.appended store).length ≤ Int64.maxValue.toInt)
    {record : Record} (hrecord : record ∈ write.appended store) :
    0 ≤ record.version.toInt ∧ store.nextSequence.toInt ≤ record.sequence.toInt := by
  by_cases hc : write = .clear
  · rw [hc, Write.appended_clear] at hrecord
    cases hrecord
  · rcases write.after_cases store hc with ⟨-, hn⟩ | ⟨now, events, -, -, hn⟩
    · rw [hn] at hrecord
      cases hrecord
    · rw [hn, length_batch] at room
      rw [hn] at hrecord
      rw [← write.nextSequence_kept store hc] at room ⊢
      have := (h.kept write hc).mem_batch_numbers room hrecord
      omega

/-- The records that a write appends stand in the order of their sequence numbers, below the next one. -/
theorem appended_ordered (h : Sound store) (write : Write)
    (room : store.nextSequence.toInt + (write.appended store).length ≤ Int64.maxValue.toInt) :
    (write.appended store).Pairwise (·.sequence < ·.sequence) ∧
      ∀ record ∈ write.appended store, record.sequence < (write.after store).nextSequence := by
  by_cases hc : write = .clear
  · rw [hc, Write.appended_clear]
    exact ⟨.nil, nofun⟩
  · have hafter := h.after write room
    have hrecords := write.records_after store hc
    have hordered := hafter.ordered
    rw [hrecords] at hordered
    refine ⟨(List.pairwise_append.mp hordered).2.1, fun record hrecord => ?_⟩
    refine (hafter.numbered record ?_).2
    rw [hrecords]
    exact List.mem_append_right _ hrecord

end Sound

/-! ## Reading -/

/-- A record numbered as a store numbers them lies beyond the start. -/
theorem start_lt_positionIn {record : Record} (sequence : 1 ≤ record.sequence.toInt)
    (version : 0 ≤ record.version.toInt) (stream : StreamId) :
    Position.start < record.positionIn stream := by
  rw [Position.lt_iff_toInt, Position.toInt_start, Record.positionIn]
  split
  · rw [SequenceNumber.toInt_position]
    omega
  · rw [StreamVersion.toInt_position]
    omega

theorem readable_of_ne_global (store : MemoryStore) {stream : StreamId} (h : stream ≠ .global) :
    store.readable stream = store.recordsOf stream := by
  refine List.filter_congr fun record _ => ?_
  rw [StreamId.concerns, StreamId.isGlobal, decide_eq_false h, Bool.false_or]

theorem readable_global (store : MemoryStore) : store.readable .global = store.records :=
  List.filter_eq_self.mpr fun _ _ => rfl

/-- What a read looks at stands in the order of positions. -/
theorem Sound.readable_ordered {store : MemoryStore} (h : Sound store) (stream : StreamId) :
    (store.readable stream).Pairwise (·.positionIn stream < ·.positionIn stream) := by
  by_cases hglobal : stream = .global
  · subst hglobal
    exact h.ordered.sublist List.filter_sublist
  · rw [readable_of_ne_global store hglobal]
    refine (h.increasing stream).imp fun {a b} hab => ?_
    rw [a.positionIn_of_ne_global hglobal, b.positionIn_of_ne_global hglobal,
      Position.lt_iff_toInt]
    exact hab

/-- A read from the start gives everything there is to read. -/
theorem Sound.read_forward {store : MemoryStore} (h : Sound store) {stream : StreamId}
    (readable : stream.isGlobal = true ∨ (store.version? stream).isSome = true) :
    store.read stream .forward = .ok ⟨stream, store.readable stream⟩ := by
  rw [read, if_pos (by rw [Bool.or_eq_true]; exact readable)]
  have hall : selectRecords stream (store.readable stream) .forward = store.readable stream := by
    refine List.filter_eq_self.mpr fun record hrecord => ?_
    have hmem := List.mem_of_mem_filter hrecord
    have hbeyond :=
      start_lt_positionIn (h.numbered record hmem).1 (h.positive record hmem) stream
    show (decide (Position.start < record.positionIn stream) && true) = true
    rw [decide_eq_true hbeyond]
    rfl
  rw [hall]

/-- The extent of a stream in memory, told by the positions of its first and its last record. -/
theorem Sound.bounds_eq {store : MemoryStore} (sound : Sound store) (stream : StreamId) :
    store.bounds stream
      = match (store.readable stream).head?, (store.readable stream).getLast? with
        | some first, some last =>
          .ok ⟨stream, ⟨(last.positionIn stream).value⟩, ⟨(first.positionIn stream).value⟩⟩
        | _, _ => .error (.streamNotFound stream) := by
  by_cases hglobal : stream = .global
  · subst hglobal
    rw [readable_global]
    rfl
  · have hnot : ¬ stream.isGlobal = true := fun h => hglobal (StreamId.isGlobal_iff.mp h)
    rw [bounds, if_neg hnot, readable_of_ne_global store hglobal]
    cases hhead : (store.recordsOf stream).head? with
    | none => rfl
    | some first =>
      cases hlast : (store.recordsOf stream).getLast? with
      | none =>
        rw [List.getLast?_eq_none_iff.mp hlast] at hhead
        cases hhead
      | some last =>
        have hversion : store.versionOf stream = last.version := by
          rw [versionOf, sound.latest stream last hlast]
          rfl
        dsimp only
        rw [hversion, last.positionIn_of_ne_global hglobal, first.positionIn_of_ne_global hglobal]
        rfl

/-! ## Runs -/

/-- A run keeps the store sound as long as the sequence numbers do not run out, and uses up no more of
them than records were appended; `count` were appended before it. -/
theorem Sound.run {store : MemoryStore} (h : Sound store) (writes : List Write) (count : Nat)
    (hcount : store.nextSequence.toInt ≤ count + 1)
    (few : (count : Int) + (appendedBy writes store).length < Int64.maxValue.toInt) :
    Sound (store.run writes) ∧
      (store.run writes).nextSequence.toInt ≤ count + (appendedBy writes store).length + 1 := by
  induction writes generalizing store count with
  | nil =>
    refine ⟨h, ?_⟩
    show store.nextSequence.toInt ≤ _
    omega
  | cons write rest ih =>
    rw [appendedBy, List.length_append, Int.natCast_add] at few ⊢
    -- no more sequence numbers are used up than records were appended, so there is room
    have room : store.nextSequence.toInt + (write.appended store).length
        ≤ Int64.maxValue.toInt := by omega
    have hnext : (write.after store).nextSequence.toInt
        ≤ (count + (write.appended store).length : Nat) + 1 := by
      have := h.nextSequence_after_le write room
      omega
    have hrest := ih (h.after write room) _ hnext (by omega)
    refine ⟨hrest.1, ?_⟩
    have hle := hrest.2
    rw [MemoryStore.run]
    omega

/-- Whatever is written to a fresh store, it is sound as long as the sequence numbers do not run out. -/
theorem Sound.run_empty (writes : List Write)
    (few : ((appendedBy writes .empty).length : Int) < Int64.maxValue.toInt) :
    Sound (MemoryStore.empty.run writes) ∧
      (MemoryStore.empty.run writes).nextSequence.toInt
        ≤ ((appendedBy writes .empty).length : Int) + 1 := by
  have hempty : Sound MemoryStore.empty := .empty .empty
  obtain ⟨hsound, hnext⟩ := hempty.run writes 0 (by decide) (by omega)
  exact ⟨hsound, by omega⟩

/-- A sound store whose sequence numbers last for some writes. -/
structure Ample (store : MemoryStore) (writes : List Write) : Prop where
  sound : Sound store
  few : ∃ count : Nat, store.nextSequence.toInt ≤ count + 1 ∧
    (count : Int) + (appendedBy writes store).length < Int64.maxValue.toInt

namespace Ample

variable {store : MemoryStore} {write : Write} {writes earlier later : List Write}

theorem empty (few : ((appendedBy writes .empty).length : Int) < Int64.maxValue.toInt) :
    Ample .empty writes where
  sound := .empty .empty
  few := ⟨0, by decide, by omega⟩

theorem room (h : Ample store (write :: writes)) :
    store.nextSequence.toInt + (write.appended store).length ≤ Int64.maxValue.toInt := by
  obtain ⟨count, hcount, hfew⟩ := h.few
  rw [appendedBy, List.length_append] at hfew
  omega

/-- After the first write they last for the others. -/
theorem rest (h : Ample store (write :: writes)) : Ample (write.after store) writes := by
  have hnext := h.sound.nextSequence_after_le write h.room
  obtain ⟨count, hcount, hfew⟩ := h.few
  rw [appendedBy, List.length_append] at hfew
  refine ⟨h.sound.after write h.room, count + (write.appended store).length, ?_, ?_⟩ <;> omega

theorem run (h : Ample store (earlier ++ later)) : Ample (store.run earlier) later := by
  induction earlier generalizing store with
  | nil => exact h
  | cons write rest ih => exact ih h.rest

theorem front (h : Ample store (earlier ++ later)) : Ample store earlier := by
  obtain ⟨count, hcount, hfew⟩ := h.few
  rw [appendedBy_append, List.length_append] at hfew
  exact ⟨h.sound, count, hcount, by omega⟩

theorem take (h : Ample store writes) (count : Nat) : Ample store (writes.take count) := by
  rw [← List.take_append_drop count writes] at h
  exact h.front

end Ample

/-- How a write other than a clear changes the records: those that survive stay as they are and in
their places, and after them come records with greater sequence numbers. -/
def Grows (before after : MemoryStore) : Prop :=
  ∃ kept fresh, after.records = kept ++ fresh ∧ kept.Sublist before.records ∧
    ∀ new ∈ fresh, ∀ old ∈ before.records, old.sequence < new.sequence

theorem Sound.grows {store : MemoryStore} (h : Sound store) (write : Write) (hc : write ≠ .clear)
    (room : store.nextSequence.toInt + (write.appended store).length ≤ Int64.maxValue.toInt) :
    Grows store (write.after store) := by
  refine ⟨(write.kept store).records, write.appended store, write.records_after store hc,
    write.records_kept_sublist store hc, fun new hnew old hold => ?_⟩
  have hlt := (h.numbered old hold).2
  have hle := (h.appended_numbers write room hnew).2
  rw [SequenceNumber.lt_iff_toInt] at hlt ⊢
  omega

/-- **The store is sound**: after any writes to a fresh store, as long as fewer records than there are
sequence numbers were ever appended, the store is sound; and each write but a clear leaves what
survives unaltered and in place, and appends records with greater sequence numbers. -/
theorem run_sound (writes : List Write)
    (few : ((appendedBy writes empty).length : Int) < Int64.maxValue.toInt) :
    Sound (empty.run writes) ∧
      ∀ earlier write later, writes = earlier ++ write :: later → write ≠ .clear →
        Grows (empty.run earlier) (empty.run (earlier ++ [write])) := by
  have hempty : Sound empty := .empty .empty
  have hfirst : empty.nextSequence.toInt ≤ (0 : Nat) + 1 := by decide
  refine ⟨(hempty.run writes 0 hfirst (by omega)).1, ?_⟩
  rintro earlier write later rfl hc
  -- the run is cut before the write, where the store is sound and has room for what it appends
  rw [appendedBy_append, appendedBy, List.length_append, List.length_append, Int.natCast_add,
    Int.natCast_add] at few
  obtain ⟨hsound, hnext⟩ := hempty.run earlier 0 hfirst (by omega)
  rw [run_append]
  exact hsound.grows write hc (by omega)

/-- A truncated stream, a deleted one whose marker cannot be left because its id is in use, and an
append that is refused. -/
def sampleWrites : List Write :=
  [.append ⟨"a"⟩ [⟨⟨"1"⟩, "t", .null, .empty⟩, ⟨⟨"2"⟩, "t", .null, .empty⟩] none default,
    .truncate ⟨"a"⟩ ⟨1⟩ default ⟨"m"⟩, .append ⟨"b"⟩ [⟨⟨"1"⟩, "t", .null, .empty⟩] none default,
    .delete ⟨"b"⟩ default ⟨"m"⟩, .append ⟨"a"⟩ [⟨⟨"2"⟩, "t", .null, .empty⟩] none default]

theorem run_sound_sample :
    ((appendedBy sampleWrites empty).length : Int) < Int64.maxValue.toInt ∧
      Sound (empty.run sampleWrites) ∧
      Grows (empty.run (sampleWrites.take 1)) (empty.run (sampleWrites.take 2)) :=
  have few : ((appendedBy sampleWrites empty).length : Int) < Int64.maxValue.toInt := by decide
  ⟨few, (run_sound sampleWrites few).1,
    (run_sound sampleWrites few).2 (sampleWrites.take 1) _ (sampleWrites.drop 2) rfl (by decide)⟩

end MemoryStore

end EventJournal
