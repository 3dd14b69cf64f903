import EventJournal.Process.Run
import EventJournal.Proofs.Feed.Follow

/-!
# A processor at work on a journal

A processor runs on a journal like any other consumer: it has one subscription, for its wake-ups, and
takes its steps while writers, pumps and other consumers act. `Watch` is the state of both. The
subscription is the processor's own, so nobody else receives from it or closes it.

* `RunMove` — everything a step of a run can do: read the checkpoint, read the stream, handle, commit,
  and receive.
* `runStep_cases` — a step is one of these moves.
* `PassAction.goal_plan` — where a pass that ends well leaves the checkpoint.
-/

namespace EventJournal

/-! ## What a step of a run can do -/

/-- A processor over the store in memory, at a moment. -/
def Processor.inMemory (config : ProcessorConfig) (checkpoints : CheckpointStore κ)
    (handler : Handler η) (now : Timestamp) (fresh : EventId) : Processor MemoryStore κ η :=
  ⟨config, MemoryStore.store now fresh, checkpoints, handler⟩

/-- A processor reads its records from the store in memory. -/
structure Processor.ReadsMemory (processor : Processor MemoryStore κ η) : Prop where
  read : ∀ stream options store,
    processor.store.read stream options store = ⟨store.read stream options, store, []⟩

theorem Processor.inMemory_readsMemory (config : ProcessorConfig) (checkpoints : CheckpointStore κ)
    (handler : Handler η) (now : Timestamp) (fresh : EventId) :
    (Processor.inMemory config checkpoints handler now fresh).ReadsMemory :=
  ⟨fun _ _ _ => rfl⟩

/-- Reading changes nothing in the store. -/
def Processor.ReadsOnly (processor : Processor σ κ η) : Prop :=
  ∀ position store, (processor.readAfter position store).state = store

/-- The moves of a run whose reads change nothing. Those that end the run are told by the end alone. -/
inductive RunMove {σ κ η : Type} (processor : Processor σ κ η) :
    RunView σ κ η → RunView σ κ η → Prop where
  | ended {view view' : RunView σ κ η} {outcome : Outcome Unit}
      (phase : view'.phase = .ended outcome) (later : view.channel.Later view'.channel)
      (store : view'.place.store = view.place.store) :
      RunMove processor view view'
  /-- The checkpoint is loaded. -/
  | loaded {view : RunView σ κ η} {checkpoint : Checkpoint} {checkpoints : κ}
      (phase : view.phase = .passing .loading)
      (loaded : processor.checkpoint view.place.checkpoints = (.ok checkpoint, checkpoints)) :
      RunMove processor view
        { view with phase := .passing (.reading checkpoint), place.checkpoints := checkpoints }
  /-- The records after the checkpoint are read. -/
  | planned {view : RunView σ κ η} {checkpoint : Checkpoint} {records : List Record}
      (phase : view.phase = .passing (.reading checkpoint))
      (read : (processor.readAfter checkpoint.position view.place.store).outcome = .ok records) :
      RunMove processor view
        { view with
          phase := .passing (.acting checkpoint
            (PassAction.plan processor.config.strategy processor.config.stream records)) }
  /-- A record is handled, and counted. -/
  | handled {view : RunView σ κ η} {checkpoint : Checkpoint} {record : Record}
      {position : Position} {rest : List PassAction} {handler : η}
      (phase : view.phase = .passing (.acting checkpoint (.handle record position :: rest)))
      (answer : processor.handler record view.place.handler = (.ok (), handler)) :
      RunMove processor view
        { view with phase := .passing (.acting checkpoint rest), place.handler := handler,
                    place.stats.processed := view.place.stats.processed + 1 }
  /-- A position is committed. -/
  | committed {view : RunView σ κ η} {checkpoint : Checkpoint} {position : Position}
      {rest : List PassAction} {checkpoints : κ}
      (phase : view.phase = .passing (.acting checkpoint (.commit position :: rest)))
      (saved : processor.checkpoints.save { checkpoint with position } view.place.checkpoints
        = (.ok (), checkpoints)) :
      RunMove processor view
        { view with phase := .passing (.acting { checkpoint with position } rest),
                    place.checkpoints := checkpoints }
  /-- The pass is over. -/
  | passed {view : RunView σ κ η} {checkpoint : Checkpoint}
      (phase : view.phase = .passing (.acting checkpoint [])) :
      RunMove processor view { view with phase := .waiting }
  /-- A wake-up is received. -/
  | woken {view : RunView σ κ η} (phase : view.phase = .waiting) :
      RunMove processor view { view with phase := .draining, channel := view.channel.receive.2 }
  /-- One more wake-up is taken. -/
  | drained {view : RunView σ κ η} (phase : view.phase = .draining) :
      RunMove processor view { view with channel := view.channel.receive.2 }
  /-- No wake-up is left; the next pass begins. -/
  | resumed {view : RunView σ κ η} (phase : view.phase = .draining) :
      RunMove processor view
        { view with phase := RunView.begin, channel := view.channel.receive.2 }

namespace Processor

variable {σ κ η : Type} {processor : Processor σ κ η}

/-- A processor accepts a checkpoint of its own stream; one that was not saved is the initial one. -/
theorem accept_eq_ok_iff {loaded : Option Checkpoint} {checkpoint : Checkpoint} :
    processor.accept loaded = .ok checkpoint ↔
      checkpoint = loaded.getD (.initial processor.config.name processor.config.stream) ∧
        checkpoint.stream = processor.config.stream := by
  cases loaded with
  | none =>
    rw [accept, Except.ok.injEq, Option.getD_none]
    constructor
    · rintro rfl
      exact ⟨rfl, rfl⟩
    · rintro ⟨rfl, -⟩
      rfl
  | some found =>
    rw [accept, Option.getD_some]
    by_cases hown : found.stream = processor.config.stream
    · rw [if_pos hown, Except.ok.injEq]
      constructor
      · rintro rfl
        exact ⟨rfl, hown⟩
      · rintro ⟨rfl, -⟩
        rfl
    · rw [if_neg hown]
      constructor
      · nofun
      · rintro ⟨rfl, hstream⟩
        exact absurd hstream hown

/-- The checkpoint of a processor is the one that was loaded, or the initial one. -/
theorem checkpoint_ok {checkpoints after : κ} {checkpoint : Checkpoint}
    (h : processor.checkpoint checkpoints = (.ok checkpoint, after)) :
    ∃ loaded, processor.checkpoints.load processor.config.name checkpoints = (.ok loaded, after) ∧
      checkpoint = loaded.getD (.initial processor.config.name processor.config.stream) ∧
      checkpoint.stream = processor.config.stream := by
  unfold Processor.checkpoint at h
  split at h
  · cases h
  · rename_i loaded after' hload
    obtain ⟨haccept, rfl⟩ := Prod.mk.inj h
    exact ⟨loaded, hload, accept_eq_ok_iff.mp haccept⟩

/-- Reading does not change the store in memory. -/
theorem ReadsMemory.readsOnly {processor : Processor MemoryStore κ η} (h : processor.ReadsMemory) :
    processor.ReadsOnly := by
  intro position store
  rw [readAfter, h.read]

/-- A step of a pass, as a move of the run. -/
theorem passStep_cases (h : processor.ReadsOnly) {view : RunView σ κ η} {phase : PassPhase}
    (hphase : view.phase = .passing phase) {pass : PassView σ κ η}
    {samples : MetricLog} (hstep : processor.passStep ⟨phase, view.place⟩ = some (pass, samples)) :
    RunMove processor view (view.afterPass pass) := by
  cases phase with
  | loading =>
    simp only [passStep, passAfter, load] at hstep
    cases hload : processor.checkpoint view.place.checkpoints with
    | mk outcome checkpoints =>
      rw [hload] at hstep
      cases hstep
      cases outcome with
      | error error => exact .ended rfl view.channel.later_dropConsumer rfl
      | ok checkpoint => exact .loaded hphase hload
  | reading checkpoint =>
    have hstate := h checkpoint.position view.place.store
    simp only [passStep, passAfter, prepare, hstate] at hstep
    cases hread : (processor.readAfter checkpoint.position view.place.store).outcome with
    | error error =>
      rw [hread] at hstep
      cases hstep
      exact .ended rfl view.channel.later_dropConsumer rfl
    | ok records =>
      rw [hread] at hstep
      cases hstep
      exact .planned hphase hread
  | acting checkpoint actions =>
    cases actions with
    | nil =>
      cases hstep
      exact .passed hphase
    | cons action rest =>
      cases action with
      | handle record position =>
        simp only [passStep, passAfter, act, handle] at hstep
        cases hhandled : processor.handler record view.place.handler with
        | mk outcome handler =>
          rw [hhandled] at hstep
          cases outcome with
          | error reasons =>
            cases hstep
            exact .ended rfl view.channel.later_dropConsumer rfl
          | ok _ =>
            cases hstep
            exact .handled hphase hhandled
      | commit position =>
        simp only [passStep, passAfter, act, commit] at hstep
        cases hsaved : processor.checkpoints.save { checkpoint with position }
            view.place.checkpoints with
        | mk outcome checkpoints =>
          rw [hsaved] at hstep
          cases outcome with
          | error error =>
            cases hstep
            exact .ended rfl view.channel.later_dropConsumer rfl
          | ok _ =>
            cases hstep
            exact .committed hphase hsaved
  | ended outcome => cases hstep

theorem tryReceive_snd (channel : Channel) : channel.tryReceive.2 = channel.receive.2 := by
  unfold Channel.tryReceive
  split
  · rename_i h
    rw [h]
  · rename_i h
    rw [h]

/-- A step of a run is one of its moves. -/
theorem runStep_cases (h : processor.ReadsOnly) {view view' : RunView σ κ η}
    {samples : MetricLog} (hstep : processor.runStep view = some (view', samples)) :
    RunMove processor view view' := by
  have hreceive := view.channel.later_receive
  unfold runStep at hstep
  split at hstep
  · cases hstep
  · rename_i phase hphase
    split at hstep
    · cases hstep
      exact .ended rfl view.channel.later_dropConsumer rfl
    · obtain ⟨⟨pass, passed⟩, hpass, hview⟩ := Option.map_eq_some_iff.mp hstep
      cases hview
      exact passStep_cases h hphase hpass
  · rename_i hphase
    split at hstep
    · cases hstep
      exact .ended rfl view.channel.later_dropConsumer rfl
    · split at hstep
      · rename_i channel hfound
        obtain rfl : view.channel.receive.2 = channel := congrArg Prod.snd hfound
        cases hstep
        exact .woken hphase
      · rename_i channel hfound
        obtain rfl : view.channel.receive.2 = channel := congrArg Prod.snd hfound
        cases hstep
        exact .ended rfl (hreceive.trans (Channel.later_dropConsumer _)) rfl
      · cases hstep
        exact .ended rfl view.channel.later_dropConsumer rfl
      · cases hstep
  · rename_i hphase
    have htry := tryReceive_snd view.channel
    split at hstep
    · rename_i channel hfound
      obtain rfl : view.channel.receive.2 = channel := by rw [← htry, hfound]
      cases hstep
      exact .drained hphase
    · rename_i channel hfound
      obtain rfl : view.channel.receive.2 = channel := by rw [← htry, hfound]
      cases hstep
      exact .ended rfl (hreceive.trans (Channel.later_dropConsumer _)) rfl
    · rename_i channel hfound
      obtain rfl : view.channel.receive.2 = channel := by rw [← htry, hfound]
      cases hstep
      exact .resumed hphase

end Processor

/-! ## Where a pass leaves the checkpoint -/

namespace PassAction

/-- The position committed last by a list of actions, or the one before them. -/
def goal (position : Position) : List PassAction → Position
  | [] => position
  | .commit next :: rest => goal next rest
  | .handle _ _ :: rest => goal position rest

theorem goal_append (position : Position) (earlier later : List PassAction) :
    goal position (earlier ++ later) = goal (goal position earlier) later := by
  induction earlier generalizing position with
  | nil => rfl
  | cons action rest ih =>
    cases action with
    | commit next => exact ih next
    | handle record place => exact ih position

/-- The position of the last record, or one given for the case that there is none. -/
theorem getLast?_cons_position (stream : StreamId) (record : Record) (rest : List Record)
    (position : Position) :
    ((record :: rest).getLast?.map (·.positionIn stream)).getD position
      = (rest.getLast?.map (·.positionIn stream)).getD (record.positionIn stream) := by
  rw [List.getLast?_cons]
  cases rest.getLast? <;> rfl

/-- A pass commits the position of the last record, if there is one; when it commits before handling, the
position before the first record must be committed already. -/
theorem goal_planFrom (strategy : CommitStrategy) (stream : StreamId) (records : List Record)
    {previous : Option Position} {position : Position}
    (before : strategy = .beforeHandling → ∀ last ∈ previous, last = position) :
    goal position (planFrom strategy stream previous records)
      = (records.getLast?.map (·.positionIn stream)).getD position := by
  induction records generalizing previous position with
  | nil => rfl
  | cons record rest ih =>
    have hnext : strategy = .beforeHandling →
        ∀ last ∈ some (record.positionIn stream), last = record.positionIn stream :=
      fun _ last hlast => (Option.some.inj hlast).symm
    simp only [planFrom]
    rw [goal_append, getLast?_cons_position, ← ih hnext]
    cases strategy with
    | beforeHandling =>
      congr 1
      by_cases hsame : previous = some (record.positionIn stream)
      · have hposition := before rfl _ hsame
        simp only [hsame, ne_eq, not_true_eq_false, decide_false, Bool.false_eq_true, if_false,
          List.nil_append, goal]
        exact hposition.symm
      · simp only [hsame, ne_eq, not_false_eq_true, decide_true, if_true, List.singleton_append,
          goal]
    | afterHandling =>
      -- a position shared with the next record is committed with that one
      by_cases hshared : rest.head?.map (·.positionIn stream) = some (record.positionIn stream)
      · simp only [hshared, ne_eq, not_true_eq_false, decide_false, Bool.false_eq_true, if_false,
          goal]
        have hstrategy : CommitStrategy.afterHandling ≠ .beforeHandling := by decide
        rw [ih (absurd · hstrategy), ih (absurd · hstrategy)]
        cases rest with
        | nil => cases hshared
        | cons next others => rw [getLast?_cons_position, getLast?_cons_position]
      · simp only [hshared, ne_eq, not_false_eq_true, decide_true, if_true, goal]

theorem goal_plan (strategy : CommitStrategy) (stream : StreamId) (records : List Record)
    (position : Position) :
    goal position (plan strategy stream records)
      = (records.getLast?.map (·.positionIn stream)).getD position :=
  goal_planFrom strategy stream records fun _ => nofun

end PassAction

/-! ## Runs on a journal -/

/-- A run of a processor on a journal. -/
structure Watch (κ η : Type) where
  journal : Journal
  /-- The number of the run's subscription. -/
  number : Nat
  phase : RunPhase
  cancelled : Bool
  checkpoints : κ
  handler : η
  stats : ProcessorStats

namespace Watch

variable {κ η : Type}

/-- What can happen while a processor runs on a journal. -/
inductive Action where
  /-- Something else happens to the journal, or the pump of the run's subscription makes a step. -/
  | others (action : Journal.Action)
  /-- The run makes a step. -/
  | run
  | cancel
  deriving Repr, DecidableEq, Inhabited

/-- A run at its beginning: its subscription was just opened. -/
def start (processor : Processor MemoryStore κ η) (journal : Journal) (checkpoints : κ)
    (handler : η) : Watch κ η where
  journal := journal.step (.subscribe processor.config.stream processor.config.wakeUps)
  number := journal.feeds.length
  phase := RunView.begin
  cancelled := false
  checkpoints := checkpoints
  handler := handler
  stats := ⟨0, 0⟩

/-- What the run sees of itself and of the journal. -/
def view (watch : Watch κ η) (channel : Channel) : RunView MemoryStore κ η :=
  ⟨watch.phase, watch.cancelled, channel,
    ⟨watch.journal.store, watch.checkpoints, watch.handler, watch.stats⟩⟩

/-- Takes over what a step of the run changed. -/
def resume (watch : Watch κ η) (view : RunView MemoryStore κ η) : Watch κ η where
  journal := { watch.journal.updateChannel watch.number fun _ => view.channel with
    store := view.place.store }
  number := watch.number
  phase := view.phase
  cancelled := view.cancelled
  checkpoints := view.place.checkpoints
  handler := view.place.handler
  stats := view.place.stats

/-- The run makes a step; nothing when it ended or waits. -/
def stepRun (processor : Processor MemoryStore κ η) (watch : Watch κ η) : Option (Watch κ η) :=
  match watch.journal.feeds[watch.number]? with
  | none => none
  | some feed => (processor.runStep (watch.view feed.channel)).map fun (view, _) => watch.resume view

/-- A run after an action. What only the consumer of its subscription can do, others do not. -/
def step (processor : Processor MemoryStore κ η) (watch : Watch κ η) : Action → Watch κ η
  | .others action =>
    if action.uses watch.number then watch
    else { watch with journal := watch.journal.step action }
  | .run => (watch.stepRun processor).getD watch
  | .cancel => { watch with cancelled := true }

/-- A run after a list of actions. -/
def run (processor : Processor MemoryStore κ η) (watch : Watch κ η) : List Action → Watch κ η
  | [] => watch
  | action :: rest => (watch.step processor action).run processor rest

/-- The records appended in an action. -/
def fresh (watch : Watch κ η) : Action → List Record
  | .others action =>
    if action.uses watch.number then []
    else (watch.journal.news action).filterMap LiveMessage.record?
  | _ => []

/-- The records appended in a list of actions, in order. -/
def appended (processor : Processor MemoryStore κ η) (watch : Watch κ η) :
    List Action → List Record
  | [] => []
  | action :: rest => watch.fresh action ++ (watch.step processor action).appended processor rest

end Watch

end EventJournal
