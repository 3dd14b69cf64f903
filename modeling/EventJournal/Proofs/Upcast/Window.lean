import EventJournal.Proofs.Store.Paging
import EventJournal.Proofs.Upcast.Outputs

/-!
# A window of stored records, read through a chain

The greatest count of a read bounds the stored records it goes through; the chain and the filter come after
that. So a record that is split is never cut in two, and the position that its outputs share is one from
which to go on.

* `MemoryStore.window` — the stored records that a read goes through.
* `Pager.readsThrough_iff` — page after page through a chain.
* `MemoryStore.read_through_chain` — the main statement.
-/

namespace EventJournal

open MemoryStore

/-! ## Windows -/

namespace MemoryStore

/-- The stored records that a read goes through: in its direction, the first beyond its position, up to the
greatest count. What types they are does not matter. -/
def window (store : MemoryStore) (stream : StreamId) (options : ReadOptions) : List Record :=
  options.limit ((options.direction.arrange (store.readable stream)).filter fun record =>
    options.admitsPosition (record.positionIn stream))

variable {store : MemoryStore} {stream : StreamId} {options : ReadOptions} {chain : UpcastChain}

theorem selectRecords_unfiltered (store : MemoryStore) (stream : StreamId) (options : ReadOptions) :
    selectRecords stream (store.readable stream) { options with filter := none }
      = store.window stream options := by
  rw [selectRecords_eq, window]
  refine congrArg options.limit (List.filter_congr fun record _ => ?_)
  exact Bool.and_true _

theorem window_sublist (store : MemoryStore) (stream : StreamId) (options : ReadOptions) :
    (store.window stream options).Sublist (options.direction.arrange (store.readable stream)) := by
  unfold window ReadOptions.limit
  cases options.maxCount with
  | none => exact List.filter_sublist
  | some count => exact (List.take_sublist ..).trans List.filter_sublist

/-- No two records to read have one sequence number. -/
theorem Sound.readable_apart (sound : store.Sound) (stream : StreamId) :
    (store.readable stream).Pairwise fun a b =>
      a.positionIn stream < b.positionIn stream ∧ a.sequence ≠ b.sequence := by
  refine (sound.readable_pairwise stream).imp fun {a b} h => ⟨h.1, fun heq => ?_⟩
  have hlt := h.2
  rw [heq, SequenceNumber.lt_iff_toInt] at hlt
  exact Int.lt_irrefl _ hlt

/-- A window stands in the order of the read. -/
theorem Sound.window_ordered (sound : store.Sound) (stream : StreamId) (options : ReadOptions) :
    (store.window stream options).Pairwise fun a b =>
      options.direction.Precedes (a.positionIn stream) (b.positionIn stream) ∧
        a.sequence ≠ b.sequence := by
  refine List.Pairwise.sublist (store.window_sublist stream options) ?_
  cases options.direction with
  | forward => exact sound.readable_apart stream
  | backward =>
    exact List.pairwise_reverse.mpr ((sound.readable_apart stream).imp fun h => ⟨h.1, h.2.symm⟩)

/-- A read through a chain gives what the filter leaves of all that is made of its window. -/
theorem read_upcasting (handles : chain.Handles)
    (known : (stream.isGlobal || (store.version? stream).isSome) = true) (now : Timestamp)
    (fresh : EventId) (options : ReadOptions) :
    (((MemoryStore.store now fresh).upcasting chain).read stream options store).outcome
      = .ok ⟨stream, ((store.window stream options).flatMap chain.made).filter fun record =>
          admitsType options.filter record.typeName⟩ := by
  have hread : store.read stream { options with filter := none }
      = .ok ⟨stream, store.window stream options⟩ := by
    rw [read, if_pos known, selectRecords_unfiltered]
  have hrun := UpcastChain.upcastRecords_ok_iff.mpr
    ⟨rfl, fun record (_ : record ∈ store.window stream options) => handles.accepts record⟩
  show (Answer.andThen ⟨store.read stream { options with filter := none }, store, []⟩
    (chain.upcastSlice stream options.filter)).outcome = _
  simp only [hread, Answer.andThen, UpcastChain.upcastSlice, hrun]
  rfl

/-- What a read gives goes in its direction; outputs of one record share a position. -/
theorem Sound.outputs_ordered (sound : store.Sound) (handles : chain.Handles) (stream : StreamId)
    (options : ReadOptions) :
    ((store.window stream options).flatMap (chain.shown options.filter)).Pairwise fun a b =>
      ¬ options.direction.Precedes (b.positionIn stream) (a.positionIn stream) := by
  have hplaced : ∀ source output, output ∈ chain.shown options.filter source →
      output.positionIn stream = source.positionIn stream :=
    fun source output h => handles.positionIn (List.mem_of_mem_filter h) stream
  refine List.pairwise_flatMap.mpr ⟨fun source _ => ?_, ?_⟩
  · refine List.pairwise_of_forall_mem_list fun a ha b hb => ?_
    rw [hplaced source a ha, hplaced source b hb]
    exact Direction.Precedes.irrefl
  · refine (sound.window_ordered stream options).imp fun h a ha b hb hback => ?_
    rw [hplaced _ a ha, hplaced _ b hb] at hback
    exact Direction.Precedes.irrefl (h.1.trans hback)

/-- What a stored record shows stands together, whole, or not at all. -/
theorem Sound.outputs_together (sound : store.Sound) (handles : chain.Handles) (stream : StreamId)
    (options : ReadOptions) {record : Record} (hrecord : record ∈ store.readable stream) :
    let outputs := (store.window stream options).flatMap (chain.shown options.filter)
    (record ∈ store.window stream options ∧
        ∃ before after, outputs = before ++ chain.shown options.filter record ++ after ∧
          ∀ other ∈ before ++ after, other.sequence ≠ record.sequence) ∨
      (record ∉ store.window stream options ∧ ∀ other ∈ outputs, other.sequence ≠ record.sequence) := by
  intro outputs
  have hplaced : ∀ source output, output ∈ chain.shown options.filter source →
      output.sequence = source.sequence :=
    fun source output h => (handles.samePlace (List.mem_of_mem_filter h)).sequence
  have hmem : ∀ {sources : List Record}, (∀ source ∈ sources, source.sequence ≠ record.sequence) →
      ∀ other ∈ sources.flatMap (chain.shown options.filter), other.sequence ≠ record.sequence := by
    intro sources hothers other hother
    obtain ⟨source, hsource, hother⟩ := List.mem_flatMap.mp hother
    rw [hplaced source other hother]
    exact hothers source hsource
  by_cases hwindow : record ∈ store.window stream options
  · left
    have hordered := sound.window_ordered stream options
    obtain ⟨earlier, later, hsplit⟩ := List.append_of_mem hwindow
    rw [hsplit, List.pairwise_append, List.pairwise_cons] at hordered
    obtain ⟨-, ⟨hlater, -⟩, hearlier⟩ := hordered
    refine ⟨hwindow, earlier.flatMap (chain.shown options.filter),
      later.flatMap (chain.shown options.filter), ?_, ?_⟩
    · show List.flatMap _ (store.window stream options) = _
      rw [hsplit, List.flatMap_append, List.flatMap_cons, List.append_assoc]
    · rw [← List.flatMap_append]
      refine hmem fun source hsource => ?_
      rcases List.mem_append.mp hsource with h | h
      · exact (hearlier source h record List.mem_cons_self).2
      · exact (hlater source h).2.symm
  · right
    refine ⟨hwindow, hmem fun source hsource hsame => hwindow ?_⟩
    -- of the records to read only this one has its sequence number
    have hreadable := Direction.mem_arrange.mp ((store.window_sublist stream options).mem hsource)
    rcases eq_or_of_pairwise (sound.readable_apart stream) hreadable hrecord with rfl | h | h
    · exact hsource
    · exact absurd hsame h.2
    · exact absurd hsame.symm h.2

end MemoryStore

/-! ## Page by page -/

/-- Of items that each come to something, nothing comes only if there are none. -/
theorem flatMap_eq_nil_iff_of_nonempty {α β : Type} {outputs : α → List β} {items : List α}
    (nonempty : ∀ item ∈ items, outputs item ≠ []) : items.flatMap outputs = [] ↔ items = [] := by
  constructor
  · intro h
    refine List.eq_nil_iff_forall_not_mem.mpr fun item hitem => ?_
    exact nonempty item hitem (List.flatMap_eq_nil_iff.mp h item hitem)
  · rintro rfl
    rfl

/-- If every record comes to something that stands where it stands, the cursor goes as far as without a
chain. -/
theorem cursorAfter_flatMap {stream : StreamId} {outputs : Record → List Record}
    {sources : List Record}
    (placed : ∀ source ∈ sources, ∀ output ∈ outputs source,
      output.positionIn stream = source.positionIn stream)
    (nonempty : ∀ source ∈ sources, outputs source ≠ []) (origin : Position) :
    cursorAfter stream origin (sources.flatMap outputs) = cursorAfter stream origin sources := by
  rcases List.eq_nil_or_concat' sources with rfl | ⟨earlier, last, rfl⟩
  · rfl
  have hlast : last ∈ earlier ++ [last] := List.mem_append_right _ List.mem_cons_self
  obtain ⟨final, hfinal⟩ := Option.isSome_iff_exists.mp (List.getLast?_isSome.mpr (nonempty last hlast))
  rw [List.flatMap_append, List.flatMap_singleton, cursorAfter_append, cursorAfter_append_singleton,
    cursorAfter, hfinal]
  exact placed last hlast final (List.mem_of_getLast? hfinal)

namespace Pager

/-- The next page, of a reader whose cursor is at a position. -/
def pageThrough (pager : Pager) (reader : Store MemoryStore) (store : MemoryStore)
    (position : Position) : Outcome (List Record) :=
  (reader.read pager.stream (pager.options position (some pager.count)) store).outcome.map (·.records)

/-- A reader who reads page after page from a position on, each from the position of the last record of the
page before, until one is empty, receives these records. -/
inductive ReadsThrough (pager : Pager) (reader : Store MemoryStore) (store : MemoryStore) :
    Position → List Record → Prop where
  | done {position : Position} (read : pager.pageThrough reader store position = .ok []) :
      ReadsThrough pager reader store position []
  | more {position : Position} {page rest : List Record}
      (read : pager.pageThrough reader store position = .ok page) (nonempty : page ≠ [])
      (further : ReadsThrough pager reader store (cursorAfter pager.stream position page) rest) :
      ReadsThrough pager reader store position (page ++ rest)

section

variable {pager : Pager} {store : MemoryStore} {position : Position} {chain : UpcastChain}

/-- A read through a chain without a filter gives what is made of what is unread, up to the greatest
count. -/
theorem readThrough_eq (reaches : pager.Reaches store) (handles : chain.Handles)
    (unfiltered : pager.filter = none) (now : Timestamp) (fresh : EventId) (position : Position)
    (maxCount : Option Nat) :
    (((MemoryStore.store now fresh).upcasting chain).read pager.stream
        (pager.options position maxCount) store).outcome
      = .ok ⟨pager.stream,
          ((pager.options position maxCount).limit (pager.unread store position)).flatMap
            chain.made⟩ := by
  have hwindow : store.window pager.stream (pager.options position maxCount)
      = (pager.options position maxCount).limit (pager.unread store position) := by
    rw [← selectRecords_unfiltered, unread, selectRecords_eq, selectRecords_eq, options, options,
      unfiltered]
    rfl
  have hall : ∀ records : List Record,
      (records.filter fun record => admitsType pager.filter record.typeName) = records := by
    intro records
    rw [unfiltered]
    exact List.filter_eq_self.mpr fun _ _ => rfl
  rw [read_upcasting handles reaches, hwindow]
  exact congrArg (fun records => Except.ok (Slice.mk pager.stream records)) (hall _)

/-- Page after page comes to all that is made of what was unread at first. -/
theorem readsThrough_iff (sound : store.Sound) (reaches : pager.Reaches store)
    (handles : chain.Handles) (unfiltered : pager.filter = none)
    (kept : ∀ record ∈ store.readable pager.stream, chain.made record ≠ [])
    (positive : 0 < pager.count) (now : Timestamp) (fresh : EventId) {whole : List Record} :
    pager.ReadsThrough ((MemoryStore.store now fresh).upcasting chain) store position whole ↔
      whole = (pager.unread store position).flatMap chain.made := by
  have hpage : ∀ position, pager.pageThrough ((MemoryStore.store now fresh).upcasting chain) store
      position = .ok (((pager.unread store position).take pager.count).flatMap chain.made) := by
    intro position
    rw [pageThrough, readThrough_eq reaches handles unfiltered]
    rfl
  have hkept : ∀ position, ∀ record ∈ (pager.unread store position).take pager.count,
      chain.made record ≠ [] := fun position record hrecord =>
    kept record (mem_unread.mp (List.mem_of_mem_take hrecord)).1
  have hempty : ∀ position, ((pager.unread store position).take pager.count).flatMap chain.made = [] ↔
      pager.unread store position = [] := by
    intro position
    rw [flatMap_eq_nil_iff_of_nonempty (hkept position), List.take_eq_nil_iff]
    exact or_iff_right (Nat.ne_of_gt positive)
  -- the cursor goes to the last stored record of the page, so what is left of it is unread
  have hfurther : ∀ position, pager.unread store (cursorAfter pager.stream position
      (((pager.unread store position).take pager.count).flatMap chain.made))
        = (pager.unread store position).drop pager.count := by
    intro position
    rw [cursorAfter_flatMap (fun source _ output h => handles.positionIn h pager.stream) (hkept position),
      unread_cursor sound]
  constructor
  · intro h
    induction h with
    | @done position read =>
      rw [hpage, Except.ok.injEq, hempty] at read
      rw [read]
      rfl
    | @more position page rest read nonempty further ih =>
      rw [hpage, Except.ok.injEq] at read
      rw [ih, ← read, hfurther, ← List.flatMap_append, List.take_append_drop]
  · rintro rfl
    -- each page that is not empty leaves less unread
    induction hleft : (pager.unread store position).length using Nat.strongRecOn
      generalizing position with
    | _ left ih =>
      by_cases hnone : pager.unread store position = []
      · rw [hnone]
        refine .done ?_
        rw [hpage, Except.ok.injEq, hempty]
        exact hnone
      · have hlength := List.length_pos_of_ne_nil hnone
        rw [← List.take_append_drop pager.count (pager.unread store position), List.flatMap_append]
        refine .more (hpage position) (mt (hempty position).mp hnone) ?_
        rw [← hfurther position]
        refine ih _ ?_ rfl
        rw [hfurther, List.length_drop, ← hleft]
        omega

end

end Pager

namespace MemoryStore

/-- **A read through a chain**: in every state that the store can be in, a read of a stream that exists, or of
the global one, through a chain that only edits, drops and splits gives what the filter leaves of all that is
made of the stored records in its window. What is made of a record stands where the record stands; so the
positions go in the direction of the read, and what a record shows stands together, whole or not at all.
Without a filter, and if every record comes to something, a reader who goes on from the last position of each
page comes to an end, and has received what one read without a greatest count gives. -/
theorem read_through_chain (actions : List Journal.Action)
    (few : ((Journal.empty.appended actions).length : Int) < Int64.maxValue.toInt)
    (chain : UpcastChain) (handles : chain.Handles) (stream : StreamId)
    (known : stream = .global ∨ (Journal.empty.run actions).store.exists? stream = true)
    (options : ReadOptions) (now : Timestamp) (fresh : EventId) :
    let store := (Journal.empty.run actions).store
    let reader := (MemoryStore.store now fresh).upcasting chain
    let window := store.window stream options
    let outputs := (window.flatMap chain.made).filter fun record =>
      admitsType options.filter record.typeName
    (reader.read stream options store).outcome = .ok ⟨stream, outputs⟩ ∧
      (∀ record,
        (chain.upcast (.ofRecord record)).outcome = .ok ((chain.made record).map Draft.ofRecord) ∧
        ∀ output ∈ chain.made record, (Draft.ofRecord output).SamePlace (.ofRecord record)) ∧
      (outputs.Pairwise fun a b =>
        ¬ options.direction.Precedes (b.positionIn stream) (a.positionIn stream)) ∧
      (∀ record ∈ store.readable stream,
        (record ∈ window ∧
          ∃ before after, outputs = before ++ chain.shown options.filter record ++ after ∧
            ∀ other ∈ before ++ after, other.sequence ≠ record.sequence) ∨
        (record ∉ window ∧ ∀ other ∈ outputs, other.sequence ≠ record.sequence)) ∧
      (options.filter = none → (∀ record ∈ store.readable stream, chain.made record ≠ []) →
        ∃ whole,
          (reader.read stream { options with maxCount := none } store).outcome = .ok ⟨stream, whole⟩ ∧
          ∀ count, 0 < count → ∀ received,
            Pager.ReadsThrough ⟨stream, options.direction, none, count⟩ reader store options.position
              received ↔ received = whole) := by
  intro store reader window outputs
  obtain ⟨sound, -⟩ := Journal.sound_run_empty actions few
  have reaches : ∀ count, Pager.Reaches ⟨stream, options.direction, none, count⟩ store :=
    fun _ => Pager.reaches_of_known known
  have hknown : (stream.isGlobal || (store.version? stream).isSome) = true := reaches 0
  have houtputs : outputs = window.flatMap (chain.shown options.filter) := List.filter_flatMap
  refine ⟨read_upcasting handles hknown now fresh options, ?_, ?_, ?_, ?_⟩
  · exact fun record => ⟨handles.upcast_eq_made record, fun output => handles.samePlace⟩
  · rw [houtputs]
    exact Sound.outputs_ordered sound handles stream options
  · intro record hrecord
    rw [houtputs]
    exact Sound.outputs_together sound handles stream options hrecord
  · intro unfiltered kept
    -- how many records make a page does not matter for what is unread
    let pager : Pager := ⟨stream, options.direction, none, 0⟩
    have hoptions : { options with maxCount := none } = pager.options options.position none := by
      rw [unfiltered]
      rfl
    refine ⟨(pager.unread store options.position).flatMap chain.made, ?_, fun count positive received =>
      Pager.readsThrough_iff sound (reaches count) handles rfl kept positive now fresh⟩
    rw [hoptions]
    exact Pager.readThrough_eq (reaches 0) handles rfl now fresh options.position none

/-- Two pairs, and a record between them that is not split. -/
def pairsActions : List Journal.Action :=
  [.write (.append ⟨"a"⟩ [⟨⟨"1"⟩, "pair", .null, .empty⟩, ⟨⟨"2"⟩, "t", .null, .empty⟩,
    ⟨⟨"3"⟩, "pair", .null, .empty⟩] none default)]

/-- Backward, two stored records at a time: the first page has three outputs, the second two. -/
theorem read_through_chain_sample :
    ((Journal.empty.appended pairsActions).length : Int) < Int64.maxValue.toInt ∧
      UpcastChain.splitting.Handles ∧
      (Journal.empty.run pairsActions).store.exists? ⟨"a"⟩ = true ∧
      ∃ whole, (((MemoryStore.store default default).upcasting .splitting).read ⟨"a"⟩ .backward
          (Journal.empty.run pairsActions).store).outcome = .ok ⟨⟨"a"⟩, whole⟩ ∧
        whole.map Record.typeName = ["left", "right", "t", "left", "right"] ∧
        Pager.ReadsThrough ⟨⟨"a"⟩, .backward, none, 2⟩
          ((MemoryStore.store default default).upcasting .splitting)
          (Journal.empty.run pairsActions).store .last whole := by
  have few : ((Journal.empty.appended pairsActions).length : Int) < Int64.maxValue.toInt := by decide
  have handles : UpcastChain.splitting.Handles := UpcastChain.splitting_reshapes.handles
  have known : (Journal.empty.run pairsActions).store.exists? ⟨"a"⟩ = true := by decide
  obtain ⟨-, -, -, -, hpaged⟩ := read_through_chain pairsActions few .splitting handles ⟨"a"⟩
    (.inr known) { ReadOptions.backward with maxCount := some 2 } default default
  have kept : ∀ record ∈ (Journal.empty.run pairsActions).store.readable ⟨"a"⟩,
      UpcastChain.splitting.made record ≠ [] := by decide
  obtain ⟨whole, hread, hiff⟩ := hpaged rfl kept
  refine ⟨few, handles, known, whole, hread, ?_, (hiff 2 (by decide) whole).mpr rfl⟩
  have hsame : (((MemoryStore.store default default).upcasting .splitting).read ⟨"a"⟩ .backward
      (Journal.empty.run pairsActions).store).outcome = .ok ⟨⟨"a"⟩, _⟩ := rfl
  cases hread.symm.trans hsame
  decide

end MemoryStore

end EventJournal
