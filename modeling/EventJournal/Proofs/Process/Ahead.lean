import EventJournal.Proofs.Process.Course

/-!
# What lies ahead of a pass

A pass works through the groups of the sources that it read, while others append and truncate. Some of
the sources may be gone by the time their group is handled, but nothing comes between them: what is
appended meanwhile lies beyond all of them.

* `Ahead` — the sources whose groups a pass still has to do: in order, and all there are up to the last.
  It holds of what was just read, of the rest once the first group is committed, and after every write
  (`Ahead.of_read`, `Ahead.rest`, `Ahead.after`).
* `Group` — the pass is handing over one group; the index it notes for a record tells which output of
  the source the record is (`Group.hand`).
* `Course.Grounded` — what both strategies rely on: the store is sound and the checkpoint is reached.
-/

namespace EventJournal

open MemoryStore PassAction

/-- The sources whose groups a pass at a position still has to do. -/
structure Ahead (store : MemoryStore) (stream : StreamId) (outputs : Record → List Record)
    (written : List Record) (position : Position) (sources : List Record) : Prop where
  known : ∀ source ∈ sources, source ∈ written ∧ stream.concerns source = true
  shown : ∀ source ∈ sources, outputs source ≠ []
  settled : ∀ source ∈ sources, store.Settled stream source
  beyond : ∀ source ∈ sources, position < source.positionIn stream
  ordered : sources.Pairwise fun a b =>
    a.positionIn stream < b.positionIn stream ∧ a.sequence < b.sequence
  /-- No source that can still be read was left out between the position and the last of them. -/
  complete : ∀ source ∈ sources, ∀ other ∈ store.readable stream, outputs other ≠ [] →
    position < other.positionIn stream → other.positionIn stream ≤ source.positionIn stream →
      other ∈ sources

namespace Ahead

variable {store : MemoryStore} {stream : StreamId} {outputs : Record → List Record}
  {written : List Record} {position : Position} {source : Record} {later : List Record}

theorem nil : Ahead store stream outputs written position [] :=
  ⟨nofun, nofun, nofun, nofun, .nil, nofun⟩

/-- What a pass reads beyond a position lies ahead of it. -/
theorem of_read (sound : store.Sound) (known : ∀ record ∈ store.records, record ∈ written) :
    Ahead store stream outputs written position
      ((store.beyond stream position).filter fun source => !(outputs source).isEmpty) := by
  have hmem : ∀ source, source ∈ (store.beyond stream position).filter
        (fun source => !(outputs source).isEmpty) ↔
      source ∈ store.readable stream ∧ position < source.positionIn stream ∧
        outputs source ≠ [] := by
    intro source
    rw [List.mem_filter, mem_beyond, Bool.not_eq_true', List.isEmpty_eq_false_iff, and_assoc]
  have hsublist : List.Sublist ((store.beyond stream position).filter
      fun source => !(outputs source).isEmpty) (store.readable stream) :=
    List.filter_sublist.trans List.filter_sublist
  constructor
  case known =>
    intro source hsource
    obtain ⟨hstored, hconcerns⟩ := mem_readable.mp ((hmem source).mp hsource).1
    exact ⟨known source hstored, hconcerns⟩
  case shown => exact fun source hsource => ((hmem source).mp hsource).2.2
  case settled => exact fun source hsource => sound.settled ((hmem source).mp hsource).1
  case beyond => exact fun source hsource => ((hmem source).mp hsource).2.1
  case ordered => exact (sound.readable_pairwise stream).sublist hsublist
  case complete =>
    intro source hsource other hother hshown hbeyond hle
    exact (hmem other).mpr ⟨hother, hbeyond, hshown⟩

/-- The next source is the only one up to its position that can be read. -/
theorem eq_head (ahead : Ahead store stream outputs written position (source :: later))
    {other : Record} (hother : other ∈ store.readable stream) (hshown : outputs other ≠ [])
    (hbeyond : position < other.positionIn stream)
    (hle : other.positionIn stream ≤ source.positionIn stream) : other = source := by
  have hmem := ahead.complete source List.mem_cons_self other hother hshown hbeyond hle
  rcases List.mem_cons.mp hmem with rfl | hlater
  · rfl
  · have hlt := ((List.pairwise_cons.mp ahead.ordered).1 other hlater).1
    exact absurd hlt (Std.not_lt.mpr hle)

/-- When the first group is committed, the others lie ahead. -/
theorem rest (ahead : Ahead store stream outputs written position (source :: later)) :
    Ahead store stream outputs written (source.positionIn stream) later := by
  obtain ⟨hfirst, hordered⟩ := List.pairwise_cons.mp ahead.ordered
  have hbeyond := ahead.beyond source List.mem_cons_self
  constructor
  case known => exact fun other hother => ahead.known other (List.mem_cons_of_mem _ hother)
  case shown => exact fun other hother => ahead.shown other (List.mem_cons_of_mem _ hother)
  case settled => exact fun other hother => ahead.settled other (List.mem_cons_of_mem _ hother)
  case beyond => exact fun other hother => (hfirst other hother).1
  case ordered => exact hordered
  case complete =>
    intro last hlast other hother hshown hafter hle
    have hlt : position < other.positionIn stream := Std.lt_trans hbeyond hafter
    have hmem := ahead.complete last (List.mem_cons_of_mem _ hlast) other hother hshown hlt hle
    rcases List.mem_cons.mp hmem with rfl | hlater
    · -- the source that was committed does not lie beyond itself
      exact absurd hafter Std.lt_irrefl
    · exact hlater

/-- What a write appends lies beyond all that is ahead. -/
theorem after {sources : List Record}
    (ahead : Ahead store stream outputs written position sources) (sound : store.Sound)
    {write : Write} (spares : write.Spares stream)
    (room : store.nextSequence.toInt + (write.appended store).length ≤ Int64.maxValue.toInt) :
    Ahead (write.after store) stream outputs (written ++ write.appended store) position sources where
  known source hsource :=
    ⟨List.mem_append_left _ (ahead.known source hsource).1, (ahead.known source hsource).2⟩
  shown := ahead.shown
  settled source hsource := (ahead.settled source hsource).after sound spares room
  beyond := ahead.beyond
  ordered := ahead.ordered
  complete := by
    intro source hsource other hother hshown hbeyond hle
    have hreached := (ahead.settled source hsource).reached
    have hold := sound.mem_readable_of_le spares room hreached hother hle
    exact ahead.complete source hsource other hold hshown hbeyond hle

end Ahead

/-- What a pass plans to do after its read are the groups of the sources that lie ahead of it. -/
theorem Processor.Shows.plan {κ η : Type} {processor : Processor MemoryStore κ η}
    {outputs : Record → List Record} (hshows : processor.Shows outputs) {store : MemoryStore}
    (sound : store.Sound) {written : List Record}
    (known : ∀ record ∈ store.records, record ∈ written) (strategy : CommitStrategy)
    {position : Position} {records : List Record}
    (read : (processor.readAfter position store).outcome = .ok records) :
    ∃ sources, Ahead store processor.config.stream outputs written position sources ∧
      (∀ source ∈ sources, source ∈ store.readable processor.config.stream) ∧
      plan strategy processor.config.stream records
        = groups strategy processor.config.stream outputs sources := by
  rcases hshows.read read with rfl | rfl
  · exact ⟨[], .nil, nofun, rfl⟩
  · have ahead : Ahead store processor.config.stream outputs written position _ :=
      .of_read sound known
    refine ⟨_, ahead, fun source h => (mem_beyond.mp (List.mem_of_mem_filter h)).1, ?_⟩
    rw [flatMap_eq_filter]
    refine plan_flatMap strategy ahead.shown (fun source _ output h => (hshows.placed h).2) ?_
    refine ahead.ordered.imp fun {a b} hab heq => ?_
    have hlt := hab.1
    rw [heq] at hlt
    exact Std.lt_irrefl hlt

/-- A record that is read forward is the output of a source beyond the position, the one that its index
tells. -/
theorem MemoryStore.Sound.output_of_read {store : MemoryStore} (sound : store.Sound)
    {chain : Option UpcastChain} (keeps : (chain.getD .identity).KeepsPlace) {now : Timestamp}
    {fresh : EventId} {stream : StreamId} {position : Position} {filter : Option TypeFilter}
    {slice : Slice}
    (read : ((reader chain now fresh).read stream
      { ReadOptions.forward with position, filter } store).outcome = .ok slice)
    {index : Nat} {record : Record} (h : slice.records[index]? = some record) :
    ∃ source ∈ store.readable stream, source.positionIn stream = record.positionIn stream ∧
      ((chain.getD .identity).shown filter source)[record.indexAfter (slice.records.take index)]?
        = some record := by
  have hplaced : ∀ source output, output ∈ (chain.getD .identity).shown filter source →
      output.sequence = source.sequence ∧ output.positionIn stream = source.positionIn stream := by
    intro source output houtput
    obtain ⟨hsequence, hposition⟩ := keeps.made (List.mem_of_mem_filter houtput)
    exact ⟨hsequence, hposition stream⟩
  have hapart : (store.beyond stream position).Pairwise fun a b => a.sequence ≠ b.sequence := by
    refine ((sound.readable_pairwise stream).sublist List.filter_sublist).imp fun {a b} hab heq => ?_
    have hlt := hab.2
    rw [heq, SequenceNumber.lt_iff_toInt] at hlt
    omega
  rw [read_reader read] at h ⊢
  obtain ⟨source, hsource, houtput⟩ :=
    output_of_flatMap (fun source _ output h => (hplaced source output h).1) hapart h
  have hposition := (hplaced source record (List.mem_of_getElem? houtput)).2
  exact ⟨source, (mem_beyond.mp hsource).1, hposition.symm, houtput⟩

/-! ## Groups -/

theorem getElem?_concat {α : Type} {items : List α} {last item : α} {place : Nat}
    (h : (items ++ [last])[place]? = some item) :
    items[place]? = some item ∨ place = items.length ∧ item = last := by
  rcases Nat.lt_or_ge place items.length with hlt | hge
  · rw [List.getElem?_append_left hlt] at h
    exact .inl h
  · rw [List.getElem?_append_right hge, List.getElem?_singleton] at h
    split at h
    · cases h
      exact .inr ⟨by omega, rfl⟩
    · cases h

/-- A pass that handed over `given` is at the group of a source: `done` of it is handed over, `todo` is
not. -/
structure Group (outputs : Record → List Record) (given : List Record) (source : Record)
    (done todo later : List Record) : Prop where
  parts : outputs source = done ++ todo
  placed : ∀ output ∈ outputs source, output.sequence = source.sequence
  counted : ∀ output ∈ outputs source, output.indexAfter given = done.length
  /-- What was handed over comes before the sources to come. -/
  before : ∀ record ∈ given, ∀ other ∈ later, record.sequence < other.sequence
  first : ∀ other ∈ later, source.sequence < other.sequence

namespace Group

variable {outputs : Record → List Record} {given : List Record} {source record : Record}
  {done todo later : List Record}

theorem mem (group : Group outputs given source done (record :: todo) later) :
    record ∈ outputs source := by
  rw [group.parts]
  exact List.mem_append_right _ List.mem_cons_self

/-- The record handed over next is the output at the index that is noted. -/
theorem output (group : Group outputs given source done (record :: todo) later) :
    record.indexAfter given = done.length ∧ (outputs source)[done.length]? = some record := by
  refine ⟨group.counted record group.mem, ?_⟩
  rw [group.parts, List.getElem?_append_right (Nat.le_refl _), Nat.sub_self]
  rfl

/-- Handing over the next record of a group. -/
theorem hand (group : Group outputs given source done (record :: todo) later) :
    Group outputs (given ++ [record]) source (done ++ [record]) todo later := by
  have hsequence := group.placed record group.mem
  constructor
  case parts => rw [group.parts, List.append_assoc, List.singleton_append]
  case placed => exact group.placed
  case counted =>
    intro output houtput
    have hsame : record.sequence = output.sequence := by
      rw [hsequence, group.placed output houtput]
    have hone : output.indexAfter [record] = 1 := by
      refine Record.indexAfter_eq_length fun other hother => ?_
      rw [List.mem_singleton.mp hother, hsame]
    rw [Record.indexAfter_append, group.counted output houtput, hone, List.length_append]
    rfl
  case before =>
    intro other hother next hnext
    rcases List.mem_append.mp hother with hgiven | hself
    · exact group.before other hgiven next hnext
    · rw [List.mem_singleton.mp hself, hsequence]
      exact group.first next hnext
  case first => exact group.first

/-- The group of the next source, of which nothing is handed over yet. -/
theorem opening {next : Record} (placed : ∀ output ∈ outputs next, output.sequence = next.sequence)
    (before : ∀ record ∈ given, ∀ other ∈ next :: later, record.sequence < other.sequence)
    (first : ∀ other ∈ later, next.sequence < other.sequence) :
    Group outputs given next [] (outputs next) later where
  parts := rfl
  placed := placed
  counted output houtput := by
    refine Record.indexAfter_eq_zero fun other hother heq => ?_
    have hlt := before other hother next List.mem_cons_self
    rw [heq, placed output houtput, SequenceNumber.lt_iff_toInt] at hlt
    omega
  before record hrecord other hother := before record hrecord other (List.mem_cons_of_mem _ hother)
  first := first

end Group

/-! ## The ground of a course -/

namespace Course

variable {κ η : Type} {processor : Processor MemoryStore κ η}
  {saved : String → κ → Option Checkpoint} {course : Course κ η}

/-- The checkpoint that is kept for the processor of a configuration. -/
def persisted (course : Course κ η) (config : ProcessorConfig)
    (saved : String → κ → Option Checkpoint) : Checkpoint :=
  config.persisted saved course.place.checkpoints

theorem persisted_congr (config : ProcessorConfig) {checkpoints checkpoints' : κ}
    (kept : saved config.name checkpoints' = saved config.name checkpoints) :
    config.persisted saved checkpoints' = config.persisted saved checkpoints := by
  rw [ProcessorConfig.persisted, ProcessorConfig.persisted, kept]

/-- Loading changes nothing in what is kept. -/
theorem kept_of_loaded (keeps : processor.checkpoints.Keeps saved) {checkpoints after : κ}
    {checkpoint : Checkpoint} (h : processor.checkpoint checkpoints = (.ok checkpoint, after)) :
    saved processor.config.name after = saved processor.config.name checkpoints := by
  obtain ⟨loaded, hload, -⟩ := processor.checkpoint_ok h
  obtain ⟨hsaved, hafter⟩ := keeps.load hload
  exact hafter.trans hsaved

/-- The store is sound, all that is in it was written, and the checkpoint was reached. -/
structure Grounded (config : ProcessorConfig) (saved : String → κ → Option Checkpoint)
    (course : Course κ η) : Prop where
  sound : course.place.store.Sound
  next : course.place.store.nextSequence.toInt ≤ course.written.length + 1
  known : ∀ record ∈ course.place.store.records, record ∈ course.written
  reached : (course.persisted config saved).position.toInt
    ≤ course.place.store.horizon config.stream

/-- The checkpoint may move, as long as the store reached it. -/
theorem Grounded.of_reached {config : ProcessorConfig} {course' : Course κ η}
    (grounded : Grounded config saved course) (store : course'.place.store = course.place.store)
    (written : course'.written = course.written)
    (reached : (course'.persisted config saved).position.toInt
      ≤ course.place.store.horizon config.stream) :
    Grounded config saved course' where
  sound := store ▸ grounded.sound
  next := by
    rw [store, written]
    exact grounded.next
  known := by
    rw [store, written]
    exact grounded.known
  reached := by
    rw [store]
    exact reached

/-- The ground of a course depends on what is kept only. -/
theorem Grounded.of_kept {config : ProcessorConfig} {course' : Course κ η}
    (grounded : Grounded config saved course) (store : course'.place.store = course.place.store)
    (written : course'.written = course.written)
    (kept : saved config.name course'.place.checkpoints = saved config.name course.place.checkpoints) :
    Grounded config saved course' := by
  refine grounded.of_reached store written ?_
  rw [persisted, persisted_congr config kept]
  exact grounded.reached

/-- Every record that was ever stored is among those appended. -/
theorem mem_appendedBy {store : MemoryStore} {writes : List Write} {record : Record}
    (h : record ∈ (store.run writes).records) :
    record ∈ store.records ∨ record ∈ appendedBy writes store := by
  induction writes generalizing store with
  | nil => exact .inl h
  | cons write rest ih =>
    rw [appendedBy, List.mem_append]
    rcases ih h with hafter | hlater
    · by_cases hc : write = .clear
      · subst hc
        cases hafter
      · rw [write.records_after store hc] at hafter
        rcases List.mem_append.mp hafter with hkept | hfresh
        · exact .inl ((write.records_kept_sublist store hc).mem hkept)
        · exact .inr (.inl hfresh)
    · exact .inr (.inr hlater)

theorem grounded_start (config : ProcessorConfig) (before : List Write) {checkpoints : κ}
    (handler : η) (absent : saved config.name checkpoints = none)
    (few : ((start before checkpoints handler).written.length : Int) < Int64.maxValue.toInt) :
    Grounded config saved (start before checkpoints handler) := by
  have hrun := Sound.run_empty before few
  constructor
  case sound => exact hrun.1
  case next => exact hrun.2
  case known =>
    intro record hrecord
    rcases mem_appendedBy hrecord with hempty | happended
    · cases hempty
    · exact happended
  case reached =>
    show (ProcessorConfig.persisted config saved checkpoints).position.toInt ≤ _
    rw [ProcessorConfig.persisted, absent]
    exact hrun.1.start_le_horizon config.stream

/-- Without a checkpoint nothing is covered. -/
theorem Grounded.not_covered {config : ProcessorConfig} (grounded : Grounded config saved course)
    (absent : saved config.name course.place.checkpoints = none) {source : Record}
    (hsource : source ∈ course.place.store.readable config.stream) :
    ¬ source.positionIn config.stream ≤ (course.persisted config saved).position := by
  intro hle
  obtain ⟨hstored, -⟩ := mem_readable.mp hsource
  have hlt := start_lt_positionIn (grounded.sound.numbered source hstored).1
    (grounded.sound.positive source hstored) config.stream
  rw [persisted, ProcessorConfig.persisted, absent] at hle
  change _ ≤ Position.start at hle
  exact Std.not_lt.mpr hle hlt

/-- A write of the processed stream's neighbours, an append or a truncation leaves the ground. -/
theorem Grounded.write {config : ProcessorConfig} (grounded : Grounded config saved course)
    {call : Write} (spares : call.Spares config.stream)
    (few : ((course.write call).written.length : Int) < Int64.maxValue.toInt) :
    course.place.store.nextSequence.toInt + (call.appended course.place.store).length
        ≤ Int64.maxValue.toInt ∧
      Grounded config saved (course.write call) := by
  obtain ⟨room, hsound, hnext⟩ := write_sound grounded.sound grounded.next call few
  refine ⟨room, ?_⟩
  constructor
  case sound => exact hsound
  case next => exact hnext
  case known =>
    intro record hrecord
    change record ∈ (call.after course.place.store).records at hrecord
    rw [call.records_after _ spares.ne_clear] at hrecord
    rcases List.mem_append.mp hrecord with hkept | hfresh
    · have hold := (call.records_kept_sublist _ spares.ne_clear).mem hkept
      exact List.mem_append_left _ (grounded.known record hold)
    · exact List.mem_append_right _ hfresh
  case reached =>
    exact Int.le_trans grounded.reached (grounded.sound.horizon_le_after spares room)

end Course

end EventJournal
