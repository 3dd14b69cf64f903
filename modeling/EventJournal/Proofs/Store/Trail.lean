import EventJournal.Proofs.Store.Horizon

/-!
# Readers with a cursor

A reader that goes on from a cursor, such as a poller or a processor, remembers one position: that of
the last record it came by. When a stream is deleted its positions are given out anew, and the cursor
stays. Sequence numbers are never given out twice, so by them one can tell which of two records came
first, also when one of them is gone.

* `Trail` — how far a reader got, said so that deletions of the stream do not touch it.
* `Trail.survey` — one more read.
* `Trail.mem_iff` — a reader comes by a record unless an earlier one that it came by stands at the same
  position or beyond.
-/

namespace EventJournal

/-! ## Cursors -/

/-- Where the cursor stands after some records, given where it stood before. -/
def cursorAfter (stream : StreamId) (origin : Position) (records : List Record) : Position :=
  (records.getLast?.map (·.positionIn stream)).getD origin

theorem cursorAfter_append_singleton (stream : StreamId) (origin : Position) (records : List Record)
    (record : Record) :
    cursorAfter stream origin (records ++ [record]) = record.positionIn stream := by
  rw [cursorAfter, List.getLast?_concat]
  rfl

/-- The cursor goes on from where it stood. -/
theorem cursorAfter_append (stream : StreamId) (origin : Position) (earlier later : List Record) :
    cursorAfter stream origin (earlier ++ later)
      = cursorAfter stream (cursorAfter stream origin earlier) later := by
  rw [cursorAfter, List.getLast?_append]
  unfold cursorAfter
  cases later.getLast? <;> rfl

/-- Among records in the order of positions none lies beyond the last. -/
theorem le_last_position {stream : StreamId} {records : List Record}
    (ordered : records.Pairwise (·.positionIn stream ≤ ·.positionIn stream)) (position : Position)
    {record : Record} (h : record ∈ records) :
    record.positionIn stream ≤ (records.getLast?.map (·.positionIn stream)).getD position := by
  obtain ⟨last, hlast⟩ : ∃ last, records.getLast? = some last :=
    Option.ne_none_iff_exists'.mp fun hnone => by
      rw [List.getLast?_eq_none_iff.mp hnone] at h
      cases h
  obtain ⟨earlier, rfl⟩ := List.getLast?_eq_some_iff.mp hlast
  rw [hlast, Option.map_some, Option.getD_some]
  rcases List.mem_append.mp h with hearlier | hself
  · exact (List.pairwise_append.mp ordered).2.2 record hearlier last List.mem_cons_self
  · rw [List.mem_singleton.mp hself]
    exact Std.le_refl _

/-- What records in order come to is in order too, if it stands where they stand. -/
theorem ordered_flatMap {stream : StreamId} {outputs : Record → List Record} {sources : List Record}
    (placed : ∀ source output, output ∈ outputs source →
      output.positionIn stream = source.positionIn stream)
    (ordered : sources.Pairwise (·.positionIn stream < ·.positionIn stream)) :
    (sources.flatMap outputs).Pairwise (·.positionIn stream ≤ ·.positionIn stream) := by
  refine List.pairwise_flatMap.mpr ⟨fun source _ => ?_, ordered.imp fun hlt => ?_⟩
  · -- the outputs of one record share its position
    refine List.pairwise_of_forall_mem_list fun first hfirst second hsecond => ?_
    rw [placed source first hfirst, placed source second hsecond]
    exact Std.le_refl _
  · intro first hfirst second hsecond
    rw [placed _ first hfirst, placed _ second hsecond]
    exact Std.le_of_lt hlt

/-- Among records beyond a position the last lies beyond it too. -/
theorem position_le_last {stream : StreamId} {records : List Record} {position : Position}
    (beyond : ∀ record ∈ records, position < record.positionIn stream) :
    position ≤ (records.getLast?.map (·.positionIn stream)).getD position := by
  cases hlast : records.getLast? with
  | none => exact Std.le_refl _
  | some last => exact Std.le_of_lt (beyond last (List.mem_of_getLast? hlast))

/-- Among records in the order of positions and of commits a later one stands further on. -/
theorem position_lt_of_sequence_lt {stream : StreamId} {records : List Record}
    (ordered : records.Pairwise fun a b =>
      a.positionIn stream < b.positionIn stream ∧ a.sequence < b.sequence)
    {a b : Record} (ha : a ∈ records) (hb : b ∈ records) (before : a.sequence < b.sequence) :
    a.positionIn stream < b.positionIn stream := by
  rcases MemoryStore.eq_or_of_pairwise ordered ha hb with rfl | ⟨hlt, -⟩ | ⟨-, hback⟩
  · exact absurd (SequenceNumber.lt_iff_toInt.mp before) (Int.lt_irrefl _)
  · exact hlt
  · rw [SequenceNumber.lt_iff_toInt] at before hback
    exact absurd before (Int.not_lt.mpr (Int.le_of_lt hback))

/-! ## Trails -/

/-- A record was passed, or an earlier one that stands at its position or beyond. -/
def Accounted (stream : StreamId) (passed : List Record) (record : Record) : Prop :=
  record ∈ passed ∨ ∃ earlier ∈ passed, earlier.sequence < record.sequence ∧
    record.positionIn stream ≤ earlier.positionIn stream

theorem Accounted.append {stream : StreamId} {passed : List Record} {record : Record}
    (h : Accounted stream passed record) (later : List Record) :
    Accounted stream (passed ++ later) record := by
  rcases h with hpassed | ⟨earlier, hearlier, hbefore⟩
  · exact .inl (List.mem_append_left _ hpassed)
  · exact .inr ⟨earlier, List.mem_append_left _ hearlier, hbefore⟩

/-- What a reader came by: `surveyed` is all that was stored when it read, `passed` is what lay beyond its
cursor, and `commit` was the last sequence number given out when it read last. -/
structure Trail (stream : StreamId) (origin : Position) (commit : Int) (surveyed passed : List Record) :
    Prop where
  ordered : passed.Pairwise fun a b =>
    a.positionIn stream < b.positionIn stream ∧ a.sequence < b.sequence
  beyond : ∀ record ∈ passed, origin < record.positionIn stream
  known : ∀ record ∈ passed, record.sequence.toInt ≤ commit
  accounted : ∀ record ∈ surveyed, origin < record.positionIn stream →
    Accounted stream passed record

namespace Trail

variable {stream : StreamId} {origin : Position} {commit commit' : Int}
  {surveyed passed now : List Record}

/-- Before the first read. -/
theorem start (stream : StreamId) (origin : Position) (commit : Int) :
    Trail stream origin commit [] [] :=
  ⟨.nil, nofun, nofun, nofun⟩

theorem le_cursor (h : Trail stream origin commit surveyed passed) {record : Record}
    (hrecord : record ∈ passed) :
    record.positionIn stream ≤ cursorAfter stream origin passed :=
  le_last_position (h.ordered.imp fun hlt => Std.le_of_lt hlt.1) origin hrecord

/-- What lies beyond the cursor is newer than the last read. -/
theorem newer_of_beyond (h : Trail stream origin commit surveyed passed)
    (remembered : ∀ record ∈ now, record.sequence.toInt ≤ commit → record ∈ surveyed)
    {record : Record} (hrecord : record ∈ now)
    (hbeyond : cursorAfter stream origin passed < record.positionIn stream) :
    commit < record.sequence.toInt := by
  by_contra hold
  have hsurveyed := remembered record hrecord (Int.not_lt.mp hold)
  have horigin : origin < record.positionIn stream :=
    Std.lt_of_le_of_lt (position_le_last h.beyond) hbeyond
  rcases h.accounted record hsurveyed horigin with hpassed | ⟨earlier, hearlier, -, hle⟩
  · exact Std.not_lt.mpr (h.le_cursor hpassed) hbeyond
  · exact Std.not_lt.mpr (Std.le_trans hle (h.le_cursor hearlier)) hbeyond

/-- One more read: the records of the stream beyond the cursor are passed. Whatever happened since the
last read, its sequence numbers are not given out anew. -/
theorem survey (h : Trail stream origin commit surveyed passed)
    (ordered : now.Pairwise fun a b =>
      a.positionIn stream < b.positionIn stream ∧ a.sequence < b.sequence)
    (remembered : ∀ record ∈ now, record.sequence.toInt ≤ commit → record ∈ surveyed)
    (known : ∀ record ∈ now, record.sequence.toInt ≤ commit') (later : commit ≤ commit') :
    Trail stream origin commit' (surveyed ++ now)
      (passed ++ now.filter fun record =>
        cursorAfter stream origin passed < record.positionIn stream) where
  ordered := by
    refine List.pairwise_append.mpr ⟨h.ordered, ordered.sublist List.filter_sublist, ?_⟩
    intro old hold fresh hfresh
    obtain ⟨hnow, hbeyond⟩ := List.mem_filter.mp hfresh
    have hbeyond := of_decide_eq_true hbeyond
    have hnewer := h.newer_of_beyond remembered hnow hbeyond
    have hknown := h.known old hold
    exact ⟨Std.lt_of_le_of_lt (h.le_cursor hold) hbeyond,
      SequenceNumber.lt_iff_toInt.mpr (Int.lt_of_le_of_lt hknown hnewer)⟩
  beyond record hrecord := by
    rcases List.mem_append.mp hrecord with hold | hfresh
    · exact h.beyond record hold
    · have hbeyond := of_decide_eq_true (List.mem_filter.mp hfresh).2
      exact Std.lt_of_le_of_lt (position_le_last h.beyond) hbeyond
  known record hrecord := by
    rcases List.mem_append.mp hrecord with hold | hfresh
    · exact Int.le_trans (h.known record hold) later
    · exact known record (List.mem_filter.mp hfresh).1
  accounted record hrecord horigin := by
    rcases List.mem_append.mp hrecord with hsurveyed | hnow
    · exact (h.accounted record hsurveyed horigin).append _
    · by_cases hbeyond : cursorAfter stream origin passed < record.positionIn stream
      · exact .inl (List.mem_append_right _ (List.mem_filter.mpr ⟨hnow, decide_eq_true hbeyond⟩))
      · by_cases hknown : record.sequence.toInt ≤ commit
        · exact (h.accounted record (remembered record hnow hknown) horigin).append _
        · -- a newer record at or behind the cursor stands behind the last one passed
          cases hlast : passed.getLast? with
          | none =>
            rw [cursorAfter, hlast] at hbeyond
            exact absurd horigin hbeyond
          | some last =>
            have hmem := List.mem_of_getLast? hlast
            rw [cursorAfter, hlast] at hbeyond
            refine .inr ⟨last, List.mem_append_left _ hmem, ?_, Std.not_lt.mp hbeyond⟩
            exact SequenceNumber.lt_iff_toInt.mpr
              (Int.lt_of_le_of_lt (h.known last hmem) (Int.not_le.mp hknown))

/-- **What a reader comes by**: a record that was stored when it read, unless an earlier record that it
came by stands at the same position or beyond. -/
theorem mem_iff (h : Trail stream origin commit surveyed passed) {record : Record}
    (hrecord : record ∈ surveyed) (horigin : origin < record.positionIn stream) :
    record ∈ passed ↔ ∀ earlier ∈ passed, earlier.sequence < record.sequence →
      earlier.positionIn stream < record.positionIn stream := by
  constructor
  · intro hpassed earlier hearlier hbefore
    exact position_lt_of_sequence_lt h.ordered hearlier hpassed hbefore
  · intro hahead
    rcases h.accounted record hrecord horigin with hpassed | ⟨earlier, hearlier, hbefore, hle⟩
    · exact hpassed
    · exact absurd (hahead earlier hearlier hbefore) (Std.not_lt.mpr hle)

end Trail

end EventJournal
