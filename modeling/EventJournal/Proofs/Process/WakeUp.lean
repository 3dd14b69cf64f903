import EventJournal.Proofs.Process.Watch
import EventJournal.Proofs.Store.Trail

/-!
# No wake-up is lost

A record on a processor's subscription is only a wake-up; what is processed is read from the stream. So
a run must never wait while there is something to read. What excludes it is that records the checkpoint
does not cover are on their way: `Covers` says so of a position, and `RunPhase.Aims` which one it is
in each phase of a run. While a pass works through its plan that is the position it will commit last,
since what is appended after its read is on its way.

* `attends_step` — whatever others do, records that are not covered stay on their way.
* `RunMove.aims` — every move of the run keeps what holds in its phase.
* `no_wake_up_lost` — the main statement.
-/

namespace EventJournal

/-! ## Stores of checkpoints -/

/-- A store of checkpoints that keeps them by name: `saved` is what it keeps under a name. -/
structure CheckpointStore.Keeps {κ : Type} (store : CheckpointStore κ)
    (saved : String → κ → Option Checkpoint) : Prop where
  /-- A checkpoint is kept under its own name. -/
  named : ∀ {id : String} {state : κ} {checkpoint : Checkpoint},
    saved id state = some checkpoint → checkpoint.id = id
  /-- Loading gives what is kept and changes nothing in it. -/
  load : ∀ {id : String} {state after : κ} {loaded : Option Checkpoint},
    store.load id state = (.ok loaded, after) → loaded = saved id state ∧ saved id after = loaded
  /-- Saving replaces what is kept. -/
  save : ∀ {checkpoint : Checkpoint} {state after : κ},
    store.save checkpoint state = (.ok (), after) → saved checkpoint.id after = some checkpoint

theorem CheckpointTable.keeps : CheckpointTable.store.Keeps fun id table => table.load id where
  named h := by simpa using List.find?_some h
  load h := by
    cases h
    exact ⟨rfl, rfl⟩
  save h := by
    cases h
    exact CheckpointTable.load_save_self ..

/-- A store that fails now and then keeps what it does not fail to save. -/
theorem CheckpointStore.Keeps.unreliable {κ : Type} {store : CheckpointStore κ}
    {saved : String → κ → Option Checkpoint} (keeps : store.Keeps saved) :
    store.unreliable.Keeps fun id faulty => saved id faulty.inner where
  named := keeps.named
  load {id faulty after loaded} h := by
    simp only [CheckpointStore.unreliable, Faulty.run] at h
    split at h
    · cases h
    · obtain ⟨houtcome, rfl⟩ := Prod.mk.inj h
      exact keeps.load (Prod.ext houtcome rfl)
  save {checkpoint faulty after} h := by
    simp only [CheckpointStore.unreliable, Faulty.run] at h
    split at h
    · cases h
    · obtain ⟨houtcome, rfl⟩ := Prod.mk.inj h
      exact keeps.save (Prod.ext houtcome rfl)

section

variable {κ η : Type} {saved : String → κ → Option Checkpoint}

/-- The checkpoint that is kept for a processor; it is at the start as long as there is none. -/
def ProcessorConfig.persisted (config : ProcessorConfig) (saved : String → κ → Option Checkpoint)
    (checkpoints : κ) : Checkpoint :=
  (saved config.name checkpoints).getD (.initial config.name config.stream)

theorem CheckpointStore.Keeps.persisted_id {store : CheckpointStore κ} (keeps : store.Keeps saved)
    (config : ProcessorConfig) (checkpoints : κ) :
    (config.persisted saved checkpoints).id = config.name := by
  unfold ProcessorConfig.persisted
  cases h : saved config.name checkpoints with
  | none => rfl
  | some checkpoint => exact keeps.named h

/-- When a position is committed, the checkpoint that is kept moves to it. -/
theorem CheckpointStore.Keeps.persisted_of_saved {store : CheckpointStore κ}
    (keeps : store.Keeps saved) (config : ProcessorConfig) {checkpoints after : κ}
    {position : Position}
    (h : store.save { config.persisted saved checkpoints with position } checkpoints
      = (.ok (), after)) :
    config.persisted saved after = { config.persisted saved checkpoints with position } := by
  have hkept := keeps.save h
  change saved (config.persisted saved checkpoints).id after = _ at hkept
  rw [keeps.persisted_id] at hkept
  show (saved config.name after).getD _ = _
  rw [hkept, Option.getD_some]

/-- The checkpoint that a processor loads is the one that is kept, before and after. -/
theorem Processor.checkpoint_eq_persisted {σ : Type} {processor : Processor σ κ η}
    (keeps : processor.checkpoints.Keeps saved) {checkpoints after : κ} {checkpoint : Checkpoint}
    (h : processor.checkpoint checkpoints = (.ok checkpoint, after)) :
    checkpoint = processor.config.persisted saved checkpoints ∧
      checkpoint = processor.config.persisted saved after := by
  obtain ⟨loaded, hload, rfl, -⟩ := processor.checkpoint_ok h
  obtain ⟨hsaved, hafter⟩ := keeps.load hload
  rw [ProcessorConfig.persisted, ProcessorConfig.persisted, hafter, ← hsaved]
  exact ⟨rfl, rfl⟩

/-- A checkpoint that is kept for the processor's stream is the processor's, unless it cannot be loaded. -/
theorem Processor.checkpoint_of_loads {σ : Type} {processor : Processor σ κ η}
    (keeps : processor.checkpoints.Keeps saved) {checkpoints : κ}
    (own : (processor.config.persisted saved checkpoints).stream = processor.config.stream)
    (loads : ∃ loaded, (processor.checkpoints.load processor.config.name checkpoints).1 = .ok loaded) :
    (processor.checkpoint checkpoints).1 = .ok (processor.config.persisted saved checkpoints) := by
  obtain ⟨loaded, hloaded⟩ := loads
  have hload : processor.checkpoints.load processor.config.name checkpoints = (.ok loaded, _) :=
    Prod.ext hloaded rfl
  obtain ⟨rfl, -⟩ := keeps.load hload
  rw [Processor.checkpoint, hload]
  exact Processor.accept_eq_ok_iff.mpr ⟨rfl, own⟩

/-! ## Records on their way -/

/-- The records of the types that a processor is to handle. -/
def ProcessorConfig.Admits (config : ProcessorConfig) (record : Record) : Prop :=
  admitsType config.filter record.typeName = true

/-- Every stored record of interest beyond a position is on its way to a processor. -/
def Covers (config : ProcessorConfig) (wanted : Record → Prop) (store : MemoryStore)
    (position : Position) (due : List Record) : Prop :=
  ∀ record ∈ store.records, config.stream.concerns record = true → wanted record →
    position < record.positionIn config.stream → record ∈ due

/-- The subscription of a run is open and skips nothing that is new. -/
structure Feed.Attends (feed : Feed) (subscriber : Subscriber) (config : ProcessorConfig)
    (next : SequenceNumber) : Prop where
  isOpen : feed.channel.isClosed = false
  sameStream : feed.channel.stream = config.stream
  sameOptions : feed.channel.options = config.wakeUps
  follows : ∃ start, (start = Position.last ∨ start = .start) ∧
    feed.Follows subscriber.queue start next

/-- The records that an action leaves in the store were there before or are news. -/
theorem Journal.mem_records_step {journal : Journal} {action : Journal.Action} {record : Record}
    (h : record ∈ (journal.step action).store.records) :
    record ∈ journal.store.records ∨
      record ∈ (journal.news action).filterMap LiveMessage.record? := by
  rcases journal.store_step action with ⟨write, rfl⟩ | ⟨-, subscribers, hstore⟩
  · have hnews : (journal.news (.write write)).filterMap LiveMessage.record?
        = write.appended journal.store := Journal.filterMap_news write journal.store
    rw [hnews]
    by_cases hc : write = .clear
    · subst hc
      cases h
    · change record ∈ (write.after journal.store).records at h
      rw [write.records_after journal.store hc] at h
      exact (List.mem_append.mp h).imp (write.records_kept_sublist journal.store hc).mem id
  · rw [hstore] at h
    exact .inl h

/-- A subscription that starts with new records, or anew, reaches all the news of its stream. -/
theorem mem_reached {next next' : SequenceNumber} {news : List LiveMessage} {start : Position}
    (announced : Announced next next' news) (positive : 1 ≤ next.toInt)
    (hstart : start = .last ∨ start = .start) {stream : StreamId} {record : Record}
    (hnews : record ∈ news.filterMap LiveMessage.record?)
    (hconcerns : stream.concerns record = true) : record ∈ reached stream start news := by
  rcases hstart with rfl | rfl
  · refine List.mem_filter.mpr ⟨hnews, ?_⟩
    rw [hconcerns]
    rfl
  · rw [reached_start announced positive]
    exact List.mem_filter.mpr ⟨hnews, hconcerns⟩

/-- Whatever others do, a subscription goes on attending, and what was on its way stays so, as far as the
filter lets it pass. -/
theorem attends_step {journal : Journal} (wired : journal.Wired) (sound : journal.store.Sound)
    {number : Nat} {feed : Feed} {subscriber : Subscriber} {config : ProcessorConfig}
    (h : journal.At number feed subscriber)
    (attends : feed.Attends subscriber config journal.store.nextSequence)
    (action : Journal.Action) (foreign : action.uses number = false)
    (room : journal.store.nextSequence.toInt
      + ((journal.news action).filterMap LiveMessage.record?).length ≤ Int64.maxValue.toInt)
    {wanted : Record → Prop} (announced : ∀ record, wanted record → config.Admits record) :
    ∃ feed' subscriber', (journal.step action).At number feed' subscriber' ∧
      feed'.Attends subscriber' config (journal.step action).store.nextSequence ∧
      ∀ position, Covers config wanted journal.store position (feed.due subscriber.queue) →
        Covers config wanted (journal.step action).store position (feed'.due subscriber'.queue) := by
  obtain ⟨feed', subscriber', hat, change, hforeign⟩ := Journal.step_change wired h action
  obtain ⟨hhanded, hclosed⟩ := hforeign foreign
  have hopen : feed'.channel.isClosed = false := hclosed.trans attends.isOpen
  have hnews := Journal.announced sound action room
  obtain ⟨-, hstream, hoptions⟩ := change.frame hopen
  obtain ⟨start, hstart, follows⟩ := attends.follows
  obtain ⟨hdue, hfollows⟩ :=
    follows.change (wired.feeds h.feed h.entry) hnews change hopen
  rw [hhanded, List.nil_append] at hdue
  refine ⟨feed', subscriber', hat, ⟨hopen, hstream.trans attends.sameStream,
    hoptions.trans attends.sameOptions, _, ?_, hfollows⟩, ?_⟩
  · unfold Position.after
    split
    · exact .inr rfl
    · exact hstart
  · intro position covers record hrecord hconcerns hwanted hbeyond
    rw [hdue, List.mem_append]
    -- an old record was on its way before, a new one is reached by the subscription
    rcases Journal.mem_records_step hrecord with hold | hnew
    · exact .inl (covers record hold hconcerns hwanted hbeyond)
    · refine .inr (List.mem_filter.mpr ⟨?_, ?_⟩)
      · rw [attends.sameStream]
        exact mem_reached hnews sound.first hstart hnew hconcerns
      · rw [Feed.admits, attends.sameOptions]
        exact announced record hwanted

/-! ## What a pass covers -/

theorem Processor.readAfter_of_read {processor : Processor MemoryStore κ η}
    (reads : processor.ReadsMemory)
    {store : MemoryStore} {position : Position} {slice : Slice}
    (h : store.read processor.config.stream
        { ReadOptions.forward with position, filter := processor.config.filter } = .ok slice) :
    (processor.readAfter position store).outcome = .ok slice.records := by
  simp only [readAfter, reads.read, h]

/-- What a processor reads after a position: in order, the stored records that it is to handle and that
lie beyond it. -/
theorem Processor.readAfter_ok {processor : Processor MemoryStore κ η}
    (reads : processor.ReadsMemory)
    {store : MemoryStore} (sound : store.Sound) {position : Position} {records : List Record}
    (h : (processor.readAfter position store).outcome = .ok records) :
    records.Sublist (store.readable processor.config.stream) ∧
      ∀ record, record ∈ records ↔ record ∈ store.records ∧
        processor.config.stream.concerns record = true ∧
        position < record.positionIn processor.config.stream ∧
        admitsType processor.config.filter record.typeName = true := by
  simp only [readAfter, reads.read, MemoryStore.read] at h
  by_cases hknown : (processor.config.stream.isGlobal
      || (store.version? processor.config.stream).isSome) = true
  · rw [if_pos hknown] at h
    cases h
    refine ⟨List.filter_sublist, fun record => ?_⟩
    show record ∈ List.filter _ (List.filter _ store.records) ↔ _
    rw [List.mem_filter, List.mem_filter, and_assoc, ReadOptions.admits, Bool.and_eq_true]
    show _ ∧ _ ∧ decide (position < _) = true ∧ _ ↔ _
    rw [decide_eq_true_iff]
    rfl
  · rw [if_neg hknown] at h
    cases h
    refine ⟨List.nil_sublist _, fun record => ⟨fun h => absurd h List.not_mem_nil, ?_⟩⟩
    -- a stream without a version has no record
    rintro ⟨hrecord, hconcerns, -⟩
    refine absurd ?_ hknown
    rw [StreamId.concerns, Bool.or_eq_true, decide_eq_true_iff] at hconcerns
    rw [Bool.or_eq_true]
    rcases hconcerns with hglobal | hstream
    · exact .inl hglobal
    · exact .inr (hstream ▸ sound.known record hrecord)

/-- When a pass has read, it will commit a position beyond which nothing is stored. -/
theorem covers_goal_plan {processor : Processor MemoryStore κ η}
    (reads : processor.ReadsMemory)
    {store : MemoryStore} (sound : store.Sound) {position : Position} {records : List Record}
    (h : (processor.readAfter position store).outcome = .ok records) (due : List Record) :
    Covers processor.config processor.config.Admits store
      (PassAction.goal position
        (PassAction.plan processor.config.strategy processor.config.stream records)) due := by
  obtain ⟨hsublist, hmem⟩ := processor.readAfter_ok reads sound h
  have hordered := (sound.readable_ordered processor.config.stream).sublist hsublist
  have hfrom := position_le_last fun record hread => ((hmem record).mp hread).2.2.1
  rw [PassAction.goal_plan]
  intro record hrecord hconcerns hadmits hbeyond
  -- a record beyond the last one read lies beyond the position read from, and was read itself
  have hread := (hmem record).mpr
    ⟨hrecord, hconcerns, Std.lt_of_le_of_lt hfrom hbeyond, hadmits⟩
  exact absurd hbeyond (Std.not_lt.mpr (le_last_position (hordered.imp Std.le_of_lt) position hread))

/-- A processor whose subscription lets the records of interest pass, and whose passes leave none of
them behind that was stored when they read. -/
structure Processor.Pursues (processor : Processor MemoryStore κ η) (wanted : Record → Prop) : Prop where
  readsOnly : processor.ReadsOnly
  announced : ∀ record, wanted record → processor.config.Admits record
  covers : ∀ {store : MemoryStore}, store.Sound → ∀ {position : Position} {records : List Record},
    (processor.readAfter position store).outcome = .ok records → ∀ due,
      Covers processor.config wanted store
        (PassAction.goal position
          (PassAction.plan processor.config.strategy processor.config.stream records)) due

theorem Processor.ReadsMemory.pursues {processor : Processor MemoryStore κ η}
    (reads : processor.ReadsMemory) : processor.Pursues processor.config.Admits where
  readsOnly := reads.readsOnly
  announced _ h := h
  covers sound _ _ h := covers_goal_plan reads sound h

/-! ## What holds in each phase -/

/-- What holds in a phase of a run, given the checkpoint that is kept: while a pass works through its
plan, the position it will commit last is covered, and while the run waits, that of the checkpoint. -/
def RunPhase.Aims (persisted : Checkpoint) (covered : Position → Prop) : RunPhase → Prop
  | .passing (.reading checkpoint) => checkpoint = persisted
  | .passing (.acting checkpoint actions) =>
    checkpoint = persisted ∧ covered (PassAction.goal checkpoint.position actions)
  | .waiting => covered persisted.position
  | _ => True

theorem RunPhase.Aims.imp {persisted : Checkpoint} {covered covered' : Position → Prop}
    {phase : RunPhase} (h : phase.Aims persisted covered)
    (covers : ∀ position, covered position → covered' position) : phase.Aims persisted covered' := by
  cases phase with
  | passing phase =>
    cases phase with
    | loading => trivial
    | reading checkpoint => exact h
    | acting checkpoint actions => exact ⟨h.1, covers _ h.2⟩
    | ended outcome => trivial
  | waiting => exact covers _ h
  | draining => trivial
  | ended outcome => trivial

/-- A move ends the run, keeps what holds with the channel as it is, or receives; and then what holds
does not depend on what is covered. What a read plans must aim at a covered position. -/
theorem RunMove.aims {σ : Type} {processor : Processor σ κ η}
    (keeps : processor.checkpoints.Keeps saved) {view view' : RunView σ κ η}
    (move : RunMove processor view view') {covered : Position → Prop}
    (read : ∀ position records,
      (processor.readAfter position view.place.store).outcome = .ok records →
        covered (PassAction.goal position
          (PassAction.plan processor.config.strategy processor.config.stream records)))
    (h : view.phase.Aims (processor.config.persisted saved view.place.checkpoints) covered) :
    view'.place.store = view.place.store ∧ view.channel.Later view'.channel ∧
      ((∃ outcome, view'.phase = .ended outcome) ∨
        view'.channel = view.channel ∧
          view'.phase.Aims (processor.config.persisted saved view'.place.checkpoints) covered ∨
        view'.channel = view.channel.receive.2 ∧
          ∀ covered', view'.phase.Aims (processor.config.persisted saved view'.place.checkpoints)
            covered') := by
  have hrefl := Channel.Later.refl view.channel
  have hreceive := view.channel.later_receive
  cases move with
  | ended phase later store => exact ⟨store, later, .inl ⟨_, phase⟩⟩
  | loaded phase loaded =>
    have hpersisted := Processor.checkpoint_eq_persisted keeps loaded
    exact ⟨rfl, hrefl, .inr (.inl ⟨rfl, hpersisted.2⟩)⟩
  | planned phase records =>
    rw [phase] at h
    exact ⟨rfl, hrefl, .inr (.inl ⟨rfl, h, read _ _ records⟩)⟩
  | handled phase answer =>
    rw [phase] at h
    exact ⟨rfl, hrefl, .inr (.inl ⟨rfl, h.1, h.2⟩)⟩
  | @committed checkpoint position rest checkpoints phase committed =>
    -- the checkpoint that is kept moves with the one in hand; the goal stays where it was
    rw [phase] at h
    obtain ⟨rfl, hcovers⟩ := h
    have hpersisted := keeps.persisted_of_saved processor.config committed
    exact ⟨rfl, hrefl, .inr (.inl ⟨rfl, hpersisted.symm, hcovers⟩)⟩
  | passed phase =>
    rw [phase] at h
    obtain ⟨rfl, hcovers⟩ := h
    exact ⟨rfl, hrefl, .inr (.inl ⟨rfl, hcovers⟩)⟩
  | woken phase => exact ⟨rfl, hreceive, .inr (.inr ⟨rfl, fun _ => trivial⟩)⟩
  | drained phase =>
    refine ⟨rfl, hreceive, .inr (.inr ⟨rfl, fun _ => ?_⟩)⟩
    show view.phase.Aims _ _
    rw [phase]
    trivial
  | resumed phase => exact ⟨rfl, hreceive, .inr (.inr ⟨rfl, fun _ => trivial⟩)⟩

/-! ## A run stays awake -/

/-- Receiving from a channel whose sink is still there does not close it. -/
theorem Channel.isClosed_receive {channel : Channel} (h : channel.sinkGone = false) :
    channel.receive.2.isClosed = channel.isClosed := by
  unfold receive
  split
  · rfl
  · split
    · rfl
    · rfl
    · rw [h]
      rfl

theorem Feed.Attends.receive {feed : Feed} {subscriber : Subscriber} {config : ProcessorConfig}
    {next : SequenceNumber} {number : Nat} (h : feed.Attends subscriber config next)
    (wired : feed.Wired number subscriber) :
    Feed.Attends { feed with channel := feed.channel.receive.2 } subscriber config next := by
  have hlater := feed.channel.later_receive
  obtain ⟨start, hstart, follows⟩ := h.follows
  refine ⟨?_, hlater.stream.trans h.sameStream, hlater.options.trans h.sameOptions, start, hstart,
    follows.start, follows.delivered⟩
  exact (Channel.isClosed_receive (wired.sink.trans (wired.active h.isOpen))).trans h.isOpen

namespace Watch

/-- The invariant of a run: until it ends, its subscription attends, and what its phase says holds. -/
structure Awake (config : ProcessorConfig) (wanted : Record → Prop)
    (saved : String → κ → Option Checkpoint) (watch : Watch κ η) : Prop where
  wired : watch.journal.Wired
  sound : watch.journal.store.Sound
  attends : (∃ outcome, watch.phase = .ended outcome) ∨
    ∃ feed subscriber, watch.journal.At watch.number feed subscriber ∧
      feed.Attends subscriber config watch.journal.store.nextSequence ∧
      watch.phase.Aims (config.persisted saved watch.checkpoints) fun position =>
        Covers config wanted watch.journal.store position (feed.due subscriber.queue)

variable {processor : Processor MemoryStore κ η} {wanted : Record → Prop} {watch : Watch κ η}

/-- A run begins awake. -/
theorem awake_start {journal : Journal} (wired : journal.Wired) (sound : journal.store.Sound)
    (checkpoints : κ) (handler : η) :
    Awake processor.config wanted saved (start processor journal checkpoints handler) := by
  have hfollows := Journal.follows_subscribe sound processor.config.stream processor.config.wakeUps
  exact ⟨wired.step (.subscribe _ _), sound.withSubscribers _, .inr ⟨_, _,
    Journal.at_subscribe wired _ _, ⟨rfl, rfl, rfl, _, .inl rfl, hfollows⟩, trivial⟩⟩

theorem awake_stepRun
    (pursues : processor.Pursues wanted)
    (keeps : processor.checkpoints.Keeps saved) (h : Awake processor.config wanted saved watch)
    {after : Watch κ η} (hstep : watch.stepRun processor = some after) :
    Awake processor.config wanted saved after ∧ after.journal.store = watch.journal.store := by
  rcases h.attends with ⟨outcome, hended⟩ | ⟨feed, subscriber, hat, attends, holds⟩
  · simp only [stepRun, view, hended, Processor.runStep] at hstep
    split at hstep <;> cases hstep
  · simp only [stepRun, hat.feed, Option.map_eq_some_iff] at hstep
    obtain ⟨⟨view', samples⟩, hview, rfl⟩ := hstep
    have move := Processor.runStep_cases pursues.readsOnly hview
    -- nothing is stored beyond the last record read; whatever comes later will be on its way
    obtain ⟨hstore, hlater, hholds⟩ := move.aims keeps (fun _ _ hread =>
      pursues.covers h.sound hread (feed.due subscriber.queue)) holds
    have hjournal : (watch.resume view').journal
        = watch.journal.updateChannel watch.number fun _ => view'.channel := by
      rw [resume, hstore]
      rfl
    have hat' := hat.updateChannel_self fun _ => view'.channel
    refine ⟨⟨?_, ?_, ?_⟩, ?_⟩
    · rw [hjournal]
      refine h.wired.updateChannel _ _ fun other hother => ?_
      cases hat.feed.symm.trans hother
      exact hlater
    · rw [hjournal]
      exact h.sound
    · rcases hholds with hended | ⟨hchannel, hholds⟩ | ⟨hchannel, hholds⟩
      · exact .inl hended
      · refine .inr ⟨feed, subscriber, ?_, ?_, ?_⟩
        · rw [hjournal]
          rw [hchannel] at hat' ⊢
          exact hat'
        · rw [hjournal]
          exact attends
        · rw [hjournal]
          exact hholds
      · refine .inr ⟨{ feed with channel := feed.channel.receive.2 }, subscriber, ?_, ?_, hholds _⟩
        · rw [hjournal]
          rw [hchannel] at hat' ⊢
          exact hat'
        · rw [hjournal]
          exact attends.receive (h.wired.feeds hat.feed hat.entry)
    · rw [hjournal]
      rfl

/-- Every action keeps a run awake as long as the sequence numbers do not run out, and uses up no more
of them than it appends records. -/
theorem awake_step
    (pursues : processor.Pursues wanted)
    (keeps : processor.checkpoints.Keeps saved) (h : Awake processor.config wanted saved watch)
    (action : Action)
    (room : watch.journal.store.nextSequence.toInt + (watch.fresh action).length
      ≤ Int64.maxValue.toInt) :
    Awake processor.config wanted saved (watch.step processor action) ∧
      (watch.step processor action).journal.store.nextSequence.toInt
        ≤ watch.journal.store.nextSequence.toInt + (watch.fresh action).length := by
  cases action with
  | cancel => exact ⟨⟨h.wired, h.sound, h.attends⟩, Int.le_add_of_nonneg_right (by omega)⟩
  | run =>
    show Awake processor.config wanted saved ((watch.stepRun processor).getD watch) ∧
      ((watch.stepRun processor).getD watch).journal.store.nextSequence.toInt ≤ _
    cases hstep : watch.stepRun processor with
    | none => exact ⟨h, Int.le_add_of_nonneg_right (by omega)⟩
    | some after =>
      obtain ⟨hawake, hstore⟩ := awake_stepRun pursues keeps h hstep
      refine ⟨hawake, ?_⟩
      rw [Option.getD_some, hstore]
      omega
  | others action =>
    by_cases huses : action.uses watch.number = true
    · rw [step, if_pos huses]
      exact ⟨h, Int.le_add_of_nonneg_right (by omega)⟩
    · rw [step, if_neg huses]
      rw [fresh, if_neg huses] at room ⊢
      obtain ⟨hsound, hnext⟩ := Journal.sound_step h.sound action room
      refine ⟨⟨h.wired.step action, hsound, ?_⟩, hnext⟩
      rcases h.attends with hended | ⟨feed, subscriber, hat, attends, holds⟩
      · exact .inl hended
      · have hforeign : action.uses watch.number = false := Bool.eq_false_iff.mpr huses
        obtain ⟨feed', subscriber', hat', attends', covers⟩ :=
          attends_step h.wired h.sound hat attends action hforeign room pursues.announced
        exact .inr ⟨feed', subscriber', hat', attends', holds.imp covers⟩

/-- A run stays awake as long as the sequence numbers do not run out; `count` records were appended
before it. -/
theorem awake_run
    (pursues : processor.Pursues wanted)
    (keeps : processor.checkpoints.Keeps saved) (h : Awake processor.config wanted saved watch)
    (actions : List Action) (count : Nat)
    (hcount : watch.journal.store.nextSequence.toInt ≤ count + 1)
    (few : (count : Int) + (watch.appended processor actions).length < Int64.maxValue.toInt) :
    Awake processor.config wanted saved (watch.run processor actions) := by
  induction actions generalizing watch count with
  | nil => exact h
  | cons action rest ih =>
    rw [appended, List.length_append, Int.natCast_add] at few
    obtain ⟨hawake, hnext⟩ := awake_step pursues keeps h action (by omega)
    exact ih hawake (count + (watch.fresh action).length) (by omega) (by omega)

/-- A run on a journal with any history is awake, whatever happens during it. -/
theorem awake_run_empty (pursues : processor.Pursues wanted) (keeps : processor.checkpoints.Keeps saved)
    (before : List Journal.Action) (checkpoints : κ) (state : η) (actions : List Action)
    (few : ((Journal.empty.appended before).length
        + ((start processor (Journal.empty.run before) checkpoints state).appended processor
            actions).length : Int) < Int64.maxValue.toInt) :
    Awake processor.config wanted saved
      ((start processor (Journal.empty.run before) checkpoints state).run processor actions) := by
  obtain ⟨hsound, hnext⟩ := Journal.sound_run_empty before (by omega)
  have hstart : Awake processor.config wanted saved _ :=
    awake_start (Journal.Wired.empty.run before) hsound checkpoints state
  exact awake_run pursues keeps hstart actions _ hnext few

/-- When a run waits and nothing is on its way to it, its checkpoint covers all that is of interest. -/
theorem covers_of_idle {config : ProcessorConfig} (awake : Awake config wanted saved watch)
    (waiting : watch.phase = .waiting) (idle : watch.journal.Idle watch.number) :
    Covers config wanted watch.journal.store (config.persisted saved watch.checkpoints).position [] := by
  rcases awake.attends with ⟨outcome, hended⟩ | ⟨feed, subscriber, hat, attends, holds⟩
  · cases waiting.symm.trans hended
  · obtain ⟨hwaits, found, hfound, hrecord, herror⟩ := idle
    cases hat.feed.symm.trans hfound
    have hdrained := Journal.drained_of_waiting hat.feed hat.entry
      (awake.wired.feeds hat.feed hat.entry) attends.isOpen hrecord herror hwaits
    rw [waiting, Feed.due_of_drained hdrained] at holds
    exact holds

/-- **No wake-up is lost**: whatever happens before a run begins and during it, when the run waits, its
channel is empty and its pump can make no step, then a read from the checkpoint that is kept gives
nothing. -/
theorem no_wake_up_lost (config : ProcessorConfig) (store : CheckpointStore κ)
    (keeps : store.Keeps saved) (handler : Handler η) (now : Timestamp) (fresh : EventId)
    (before : List Journal.Action) (checkpoints : κ) (state : η) (actions : List Action)
    (few : ((Journal.empty.appended before).length
        + ((start (.inMemory config store handler now fresh) (Journal.empty.run before) checkpoints
            state).appended (.inMemory config store handler now fresh) actions).length : Int)
      < Int64.maxValue.toInt) :
    let processor := Processor.inMemory config store handler now fresh
    let watch := (start processor (Journal.empty.run before) checkpoints state).run processor actions
    watch.phase = .waiting → watch.journal.Idle watch.number →
      ∀ slice, watch.journal.store.read config.stream
          { ReadOptions.forward with
            position := (config.persisted saved watch.checkpoints).position,
            filter := config.filter }
        = .ok slice → slice.records = [] := by
  intro processor watch hwaiting hidle slice hread
  have reads := Processor.inMemory_readsMemory config store handler now fresh
  have hawake := awake_run_empty reads.pursues keeps before checkpoints state actions few
  have hcovers := covers_of_idle hawake hwaiting hidle
  have hafter : (processor.readAfter (config.persisted saved watch.checkpoints).position
      watch.journal.store).outcome = .ok slice.records :=
    Processor.readAfter_of_read reads hread
  obtain ⟨-, hmem⟩ := processor.readAfter_ok reads hawake.sound hafter
  refine List.eq_nil_iff_forall_not_mem.mpr fun record hrecord => ?_
  obtain ⟨hstored, hconcerns, hbeyond, hadmits⟩ := (hmem record).mp hrecord
  exact List.not_mem_nil (hcovers record hstored hconcerns hadmits hbeyond)

/-- A processor that notes the ids it handles and rejects a type. -/
def sampleProcessor : Processor MemoryStore CheckpointTable (List EventId) :=
  .inMemory ⟨"p", ⟨"a"⟩, some (.exclude ["u"]), .afterHandling⟩ CheckpointTable.store
    (fun record seen => (.ok (), seen ++ [record.id])) default default

def sampleBefore : List Journal.Action :=
  [.write (.append ⟨"a"⟩ [⟨⟨"1"⟩, "t", .null, .empty⟩] none default)]

/-- A batch is appended between the read of the first pass and its commit. -/
def sampleActions : List Action :=
  [.run, .run,
    .others (.write (.append ⟨"a"⟩
      [⟨⟨"2"⟩, "t", .null, .empty⟩, ⟨⟨"3"⟩, "u", .null, .empty⟩] none default)),
    .run, .others (.pump 0), .run, .run, .others (.pump 0), .run, .others (.pump 0),
    .others (.pump 0), .run, .run, .run, .run, .run, .run]

def sampleWatch : Watch CheckpointTable (List EventId) :=
  (start sampleProcessor (Journal.empty.run sampleBefore) .empty []).run sampleProcessor sampleActions

theorem no_wake_up_lost_sample :
    ((Journal.empty.appended sampleBefore).length
        + ((start sampleProcessor (Journal.empty.run sampleBefore) .empty []).appended
            sampleProcessor sampleActions).length : Int) < Int64.maxValue.toInt ∧
      sampleWatch.phase = .waiting ∧ sampleWatch.journal.Idle 0 ∧
      sampleWatch.handler = [⟨"1"⟩, ⟨"2"⟩] ∧
      sampleWatch.checkpoints = ⟨[⟨"p", ⟨"a"⟩, ⟨1⟩⟩]⟩ ∧
      ∃ slice, sampleWatch.journal.store.read ⟨"a"⟩
          { ReadOptions.forward with position := ⟨1⟩, filter := some (.exclude ["u"]) }
          = .ok slice ∧ slice.records = [] :=
  have few : ((Journal.empty.appended sampleBefore).length
      + ((start sampleProcessor (Journal.empty.run sampleBefore) .empty []).appended
          sampleProcessor sampleActions).length : Int) < Int64.maxValue.toInt := by decide
  have idle : sampleWatch.journal.Idle 0 := ⟨by decide, _, rfl, by decide, by decide⟩
  have read : sampleWatch.journal.store.read ⟨"a"⟩
      { ReadOptions.forward with position := ⟨1⟩, filter := some (.exclude ["u"]) } = .ok _ := rfl
  ⟨few, rfl, idle, by decide, by decide, _, read,
    no_wake_up_lost _ CheckpointTable.store CheckpointTable.keeps _ default default sampleBefore
      .empty [] sampleActions few rfl idle _ read⟩

end Watch

end

end EventJournal
