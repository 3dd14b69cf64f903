import EventJournal.Proofs.Process.Course

/-!
# Wake-ups under old types

A store whose reads are upcast hands subscriptions on to the store that it wraps. So the type filter of a
processor is applied in two places: a read applies it to the types of today, after upcasting, and the
subscription of a run to the types that records were stored under. A record that was stored under a type
which the filter refuses, and that comes to one which it admits, can be read, but no run is woken for it.

There is no other way to miss a record.

* `Processor.reading_pursues` — a run through a chain reaches every stored record that shows something
  and whose stored type is admitted.
* `Watch.missed_only_unannounced` — the main statement. The trace after it is one where a record is
  missed.
* `Watch.nothing_missed` — nothing is missed when the filter admits the stored types as well.
-/

namespace EventJournal

section

variable {κ η : Type} {saved : String → κ → Option Checkpoint} {config : ProcessorConfig}
  {chain : UpcastChain} {checkpoints : CheckpointStore κ} {handler : Handler η} {now : Timestamp}
  {fresh : EventId} {store : MemoryStore} {position : Position}

/-- A run through a chain pursues the records that show it something, as far as the filter admits the
types that they are stored under. -/
theorem Processor.reading_pursues (reshapes : chain.Reshapes) :
    (Processor.reading config (some chain) checkpoints handler now fresh).Pursues fun record =>
      config.Admits record ∧ chain.shown config.filter record ≠ [] where
  readsOnly position store := MemoryStore.reader_read_state (some chain) now fresh _ _ store
  announced _ h := h.1
  covers {store} sound {position records} hread due record hrecord hconcerns hwanted hbeyond := by
    cases (@Processor.reading_readAfter _ _ config (some chain) reshapes checkpoints handler now fresh
      store sound position).symm.trans hread
    have hplaced : ∀ {source output}, output ∈ chain.shown config.filter source →
        output.positionIn config.stream = source.positionIn config.stream :=
      fun hshown => (reshapes.keepsPlace.made (List.mem_of_mem_filter hshown)).2 config.stream
    have hfrom : ∀ output ∈ (store.beyond config.stream position).flatMap (chain.shown config.filter),
        position < output.positionIn config.stream := by
      intro output houtput
      obtain ⟨source, hsource, hshown⟩ := List.mem_flatMap.mp houtput
      rw [hplaced hshown]
      exact (MemoryStore.mem_beyond.mp hsource).2
    have hsources : (store.beyond config.stream position).Pairwise
        (·.positionIn config.stream < ·.positionIn config.stream) :=
      (sound.readable_ordered config.stream).sublist List.filter_sublist
    have hordered := ordered_flatMap (fun _ _ h => hplaced h) hsources
    rw [PassAction.goal_plan] at hbeyond
    -- a record beyond the last one read was read itself, if it shows anything
    have hread : record ∈ store.beyond config.stream position :=
      MemoryStore.mem_beyond.mpr ⟨MemoryStore.mem_readable.mpr ⟨hrecord, hconcerns⟩,
        Std.lt_of_le_of_lt (position_le_last hfrom) hbeyond⟩
    obtain ⟨output, houtput⟩ := List.exists_mem_of_ne_nil _ hwanted.2
    have hlast := le_last_position hordered position (List.mem_flatMap.mpr ⟨record, hread, houtput⟩)
    rw [hplaced houtput] at hlast
    exact absurd hbeyond (Std.not_lt.mpr hlast)

namespace Watch

/-- When a run waits and nothing is on its way to it, what a read still gives was not announced. -/
theorem unannounced_of_idle {watch : Watch κ η}
    (awake : Awake config
      (fun record => config.Admits record ∧ chain.shown config.filter record ≠ []) saved watch)
    (waiting : watch.phase = .waiting) (idle : watch.journal.Idle watch.number) {slice : Slice}
    (read : ((MemoryStore.reader (some chain) now fresh).read config.stream
      { ReadOptions.forward with
        position := (config.persisted saved watch.checkpoints).position,
        filter := config.filter } watch.journal.store).outcome = .ok slice)
    {record : Record} (hrecord : record ∈ slice.records) :
    ∃ source ∈ watch.journal.store.records, record ∈ chain.shown config.filter source ∧
      ¬config.Admits source := by
  have hcovers := covers_of_idle awake waiting idle
  rw [MemoryStore.read_reader read] at hrecord
  obtain ⟨source, hsource, hshown⟩ := List.mem_flatMap.mp hrecord
  obtain ⟨hreadable, hbeyond⟩ := MemoryStore.mem_beyond.mp hsource
  obtain ⟨hstored, hconcerns⟩ := MemoryStore.mem_readable.mp hreadable
  refine ⟨source, hstored, hshown, fun hadmits => ?_⟩
  -- were the source announced, the run would not wait
  exact List.not_mem_nil
    (hcovers source hstored hconcerns ⟨hadmits, List.ne_nil_of_mem hshown⟩ hbeyond)

/-- **Only what is not announced is missed**: whatever happens before a run begins and during it, when
the run waits, its channel is empty and its pump can make no step, then a record that a read from the
checkpoint still gives comes from one that is stored under a type which the filter refuses. -/
theorem missed_only_unannounced (config : ProcessorConfig) (chain : UpcastChain)
    (reshapes : chain.Reshapes) (checkpointStore : CheckpointStore κ)
    (keeps : checkpointStore.Keeps saved) (handler : Handler η) (now : Timestamp) (fresh : EventId)
    (before : List Journal.Action) (checkpoints : κ) (state : η) (actions : List Action)
    (few : ((Journal.empty.appended before).length
        + ((start (.reading config (some chain) checkpointStore handler now fresh)
            (Journal.empty.run before) checkpoints state).appended
              (.reading config (some chain) checkpointStore handler now fresh) actions).length : Int)
      < Int64.maxValue.toInt) :
    let processor := Processor.reading config (some chain) checkpointStore handler now fresh
    let watch := (start processor (Journal.empty.run before) checkpoints state).run processor actions
    watch.phase = .waiting → watch.journal.Idle watch.number →
      ∀ slice, ((MemoryStore.reader (some chain) now fresh).read config.stream
          { ReadOptions.forward with
            position := (config.persisted saved watch.checkpoints).position,
            filter := config.filter } watch.journal.store).outcome = .ok slice →
        ∀ record ∈ slice.records, ∃ source ∈ watch.journal.store.records,
          source.sequence = record.sequence ∧ record ∈ chain.made source ∧
            ¬config.Admits source := by
  intro processor watch hwaiting hidle slice hread record hrecord
  have pursues : processor.Pursues _ := Processor.reading_pursues reshapes
  have hawake := awake_run_empty pursues keeps before checkpoints state actions few
  obtain ⟨source, hstored, hshown, hrefused⟩ :=
    unannounced_of_idle hawake hwaiting hidle hread hrecord
  have hmade := List.mem_of_mem_filter hshown
  exact ⟨source, hstored, (reshapes.keepsPlace.made hmade).1.symm, hmade, hrefused⟩

end Watch

end

/-- A chain that gives the items of old their new type. -/
def UpcastChain.renaming : UpcastChain :=
  ⟨[{ name := "items", supports := fun draft => draft.typeName = "item_added_v1",
      upcast := fun draft => .ok [{ draft with typeName := "item_added" }] }]⟩

theorem UpcastChain.renaming_reshapes : renaming.Reshapes := by
  intro upcaster hupcaster draft
  cases List.mem_singleton.mp hupcaster
  refine ⟨_, rfl, fun output houtput => ?_⟩
  cases List.mem_singleton.mp houtput
  exact ⟨rfl, rfl, rfl, rfl⟩

namespace Watch

/-- A processor of new items that notes the ids it handles. -/
def renamingProcessor : Processor MemoryStore CheckpointTable (List EventId) :=
  .reading ⟨"p", ⟨"a"⟩, some (.select ["item_added"]), .afterHandling⟩ (some .renaming)
    CheckpointTable.store (fun record seen => (.ok (), seen ++ [record.id])) default default

/-- An item is appended under its old type while the run waits. -/
def renamingActions : List Action :=
  [.run, .run, .run,
    .others (.write (.append ⟨"a"⟩ [⟨⟨"1"⟩, "item_added_v1", .null, .empty⟩] none default)),
    .others (.pump 0), .others (.pump 0), .others (.pump 0), .run]

def renamingWatch : Watch CheckpointTable (List EventId) :=
  (start renamingProcessor .empty .empty []).run renamingProcessor renamingActions

/-- The run waits, and yet there is an item to read: it is stored under its old type. -/
theorem missed_only_unannounced_sample :
    ((Journal.empty.appended []).length
        + ((start renamingProcessor .empty .empty []).appended renamingProcessor
            renamingActions).length : Int) < Int64.maxValue.toInt ∧
      renamingWatch.phase = .waiting ∧ renamingWatch.journal.Idle 0 ∧ renamingWatch.handler = [] ∧
      ∃ slice, ((MemoryStore.reader (some .renaming) default default).read ⟨"a"⟩
          { ReadOptions.forward with position := .start, filter := some (.select ["item_added"]) }
          renamingWatch.journal.store).outcome = .ok slice ∧
        slice.records.map (·.typeName) = ["item_added"] ∧
        ∀ record ∈ slice.records, ∃ source ∈ renamingWatch.journal.store.records,
          source.sequence = record.sequence ∧ record ∈ UpcastChain.renaming.made source ∧
            ¬renamingProcessor.config.Admits source :=
  have few : ((Journal.empty.appended []).length
      + ((start renamingProcessor .empty .empty []).appended renamingProcessor
          renamingActions).length : Int) < Int64.maxValue.toInt := by decide
  have idle : renamingWatch.journal.Idle 0 := ⟨by decide, _, rfl, by decide, by decide⟩
  have read : ((MemoryStore.reader (some .renaming) default default).read ⟨"a"⟩
      { ReadOptions.forward with position := .start, filter := some (.select ["item_added"]) }
      renamingWatch.journal.store).outcome = .ok _ := rfl
  ⟨few, rfl, idle, rfl, _, read, rfl,
    missed_only_unannounced _ _ UpcastChain.renaming_reshapes CheckpointTable.store
      CheckpointTable.keeps _ default default [] .empty [] renamingActions few rfl idle _ read⟩

/-- A run whose filter admits the stored types of all that it reads misses nothing. -/
theorem nothing_missed {κ η : Type} {saved : String → κ → Option Checkpoint} (config : ProcessorConfig)
    (chain : UpcastChain) (reshapes : chain.Reshapes)
    (announced : ∀ record, chain.shown config.filter record ≠ [] → config.Admits record)
    (checkpointStore : CheckpointStore κ) (keeps : checkpointStore.Keeps saved) (handler : Handler η)
    (now : Timestamp) (fresh : EventId) (before : List Journal.Action) (checkpoints : κ) (state : η)
    (actions : List Action)
    (few : ((Journal.empty.appended before).length
        + ((start (.reading config (some chain) checkpointStore handler now fresh)
            (Journal.empty.run before) checkpoints state).appended
              (.reading config (some chain) checkpointStore handler now fresh) actions).length : Int)
      < Int64.maxValue.toInt) :
    let processor := Processor.reading config (some chain) checkpointStore handler now fresh
    let watch := (start processor (Journal.empty.run before) checkpoints state).run processor actions
    watch.phase = .waiting → watch.journal.Idle watch.number →
      ∀ slice, ((MemoryStore.reader (some chain) now fresh).read config.stream
          { ReadOptions.forward with
            position := (config.persisted saved watch.checkpoints).position,
            filter := config.filter } watch.journal.store).outcome = .ok slice →
        slice.records = [] := by
  intro processor watch hwaiting hidle slice hread
  have pursues : processor.Pursues _ := Processor.reading_pursues reshapes
  have hawake := awake_run_empty pursues keeps before checkpoints state actions few
  refine List.eq_nil_iff_forall_not_mem.mpr fun record hrecord => ?_
  obtain ⟨source, -, hshown, hrefused⟩ :=
    unannounced_of_idle hawake hwaiting hidle hread hrecord
  exact hrefused (announced source (List.ne_nil_of_mem hshown))

end Watch

end EventJournal
