import EventJournal.Proofs.Process.Polling

/-!
# What a run over a log server can miss

Over a log server a run is woken by a poller, a task of its own: at some moment after the run began it
finds out where the stream ends, and it delivers what comes later. The first pass reads the stream at a
moment of its own. A record that is appended after the pass read and before the poller found the end is
seen by neither, and the run waits although there is something to read.

There is no other way to miss a record. A `Lookout` is such a run with the server and the poller; it
takes down the last commit position at three moments: when a pass read last (`read`), when the poller
found the end (`located`) and when it polled last (`polled`).

* `Foresees` — what was appended after the last read of a pass is what the poller lets the run know of.
* `attentive_step` and `attentive_run` — the invariant of a run.
* `missed_before_located` — the main statement. The trace after it is one where a record is missed.
* `waits_until_written` — a missed record stays so until a later one wakes the run.
-/

namespace EventJournal

open MemoryStore (Write)

/-! ## Runs over a log server -/

/-- A processor over a log server. -/
def Processor.overServer (config : ProcessorConfig) (checkpoints : CheckpointStore κ)
    (handler : Handler η) (fresh : EventId) : Processor LogModel κ η :=
  ⟨config, LogServer.store LogModel.client fresh, checkpoints, handler⟩

/-- The last commit position of the last read of a pass, taken down at a step of the run. -/
def RunPhase.readAt (phase : RunPhase) (commit read : Nat) : Nat :=
  match phase with
  | .passing (.reading _) => commit
  | _ => read

/-- A run over a log server, with the poller of its subscription. Nothing depends on what it takes down. -/
structure Lookout (κ η : Type) where
  /-- The run, its channel and the server. -/
  view : RunView LogModel κ η
  poll : PollPhase
  /-- How many poll intervals have passed. -/
  clock : Nat
  /-- The last commit position when a pass read last. -/
  read : Nat
  /-- The last commit position when the poller found the end of the stream. -/
  located : Nat
  /-- The last commit position when the poller polled last. -/
  polled : Nat

namespace Lookout

variable {κ η : Type}

def server (lookout : Lookout κ η) : LogModel := lookout.view.place.store

def poller (lookout : Lookout κ η) : Poller := ⟨lookout.poll, lookout.view.channel⟩

/-- What can happen while a processor runs over a log server. -/
inductive Action where
  /-- Somebody calls a store over the same server. -/
  | call (issued : IssuedCall)
  /-- The run makes a step. -/
  | run
  /-- The poller makes a step. -/
  | poll
  /-- A poll interval passes. -/
  | tick
  | cancel
  deriving Repr, DecidableEq, Inhabited

/-- The writes that an action makes. -/
def Action.writes : Action → List Write
  | .call issued => issued.writes
  | _ => []

/-- A run at its beginning: its subscription was just opened. -/
def start (processor : Processor LogModel κ η) (server : LogModel) (checkpoints : κ) (handler : η) :
    Lookout κ η :=
  let poller := Poller.create (.create processor.config.stream processor.config.wakeUps)
  { view := ⟨RunView.begin, false, poller.channel, ⟨server, checkpoints, handler, ⟨0, 0⟩⟩⟩,
    poll := poller.phase, clock := 0, read := 0, located := 0, polled := 0 }

/-- Somebody makes a call. -/
def call (lookout : Lookout κ η) (issued : IssuedCall) : Lookout κ η :=
  { lookout with
    view.place.store := (issued.run (.logServer LogModel.client) lookout.server).2 }

/-- The run makes a step; nothing when it ended or waits. -/
def stepRun (processor : Processor LogModel κ η) (lookout : Lookout κ η) : Option (Lookout κ η) :=
  (processor.runStep lookout.view).map fun (view, _) =>
    { lookout with
      view, read := lookout.view.phase.readAt lookout.server.lastCommit lookout.read }

/-- The poller makes a step; nothing when it ended or waits. -/
def stepPoll (lookout : Lookout κ η) : Option (Lookout κ η) :=
  (lookout.poller.step LogModel.client lookout.clock lookout.server).map fun (poller, server) =>
    { lookout with
      view.channel := poller.channel, view.place.store := server, poll := poller.phase,
      located := lookout.poller.locatedAt lookout.server.lastCommit lookout.located,
      polled := lookout.poller.polledAt lookout.server.lastCommit lookout.polled }

/-- A run after an action. -/
def step (processor : Processor LogModel κ η) (lookout : Lookout κ η) : Action → Lookout κ η
  | .call issued => lookout.call issued
  | .run => (lookout.stepRun processor).getD lookout
  | .poll => lookout.stepPoll.getD lookout
  | .tick => { lookout with clock := lookout.clock + 1 }
  | .cancel => { lookout with view.cancelled := true }

/-- A run after a list of actions. -/
def run (processor : Processor LogModel κ η) (lookout : Lookout κ η) : List Action → Lookout κ η
  | [] => lookout
  | action :: rest => (lookout.step processor action).run processor rest

/-- The poller rests, having polled since the last append, and all that it delivered is received. -/
structure Idle (lookout : Lookout κ η) : Prop where
  rests : ∃ cursor due, lookout.poll = .resting cursor due
  polled : lookout.polled = lookout.server.lastCommit
  record : lookout.view.channel.record = none
  error : lookout.view.channel.error = none

end Lookout

/-! ## Reading through the server -/

section

variable {κ η : Type} {processor : Processor LogModel κ η}

/-- A processor reads its records from a log server. -/
structure Processor.ReadsServer (processor : Processor LogModel κ η) : Prop where
  read : ∀ stream options server, processor.store.read stream options server
    = LogServer.read LogModel.client stream options server

theorem Processor.overServer_readsServer (config : ProcessorConfig)
    (checkpoints : CheckpointStore κ) (handler : Handler η) (fresh : EventId) :
    (Processor.overServer config checkpoints handler fresh).ReadsServer :=
  ⟨fun _ _ _ => rfl⟩

theorem Processor.ReadsServer.readsOnly (reads : processor.ReadsServer) : processor.ReadsOnly := by
  intro position server
  simp only [readAfter, reads.read, read_eq]
  cases server.readable? processor.config.stream <;> rfl

/-- The same processor over the store in memory. -/
def Processor.inMemoryToo (processor : Processor LogModel κ η) : Processor MemoryStore κ η :=
  .inMemory processor.config processor.checkpoints processor.handler default default

/-- A processor reads the same over both kinds of store, up to the times of records. -/
theorem Processor.ReadsServer.readAfter_ok (reads : processor.ReadsServer) {store : MemoryStore}
    {server : LogModel} (agrees : Agrees store server) {position : Position} {records : List Record}
    (h : (processor.readAfter position server).outcome = .ok records) :
    ∃ stored, (processor.inMemoryToo.readAfter position store).outcome = .ok stored ∧
      stored.map Record.untimed = records.map Record.untimed := by
  have hmemory : processor.inMemoryToo.ReadsMemory := Processor.inMemory_readsMemory ..
  have hconfig : processor.inMemoryToo.config = processor.config := rfl
  simp only [readAfter, hmemory.read, hconfig]
  simp only [readAfter, reads.read] at h
  rcases (read_matches agrees processor.config.stream
      { ReadOptions.forward with position, filter := processor.config.filter }).outcome_cases with
    ⟨error, hstore, hserver⟩ | ⟨stored, slice, hstore, hserver, hsame⟩
  · rw [hserver] at h
    dsimp only at hstore
    rw [hstore]
    exact ⟨records, h, rfl⟩
  · rw [hserver] at h
    cases h
    dsimp only at hstore
    rw [hstore]
    exact ⟨stored.records, rfl, congrArg Slice.records hsame⟩

/-- A record that a read through the server gives is stored, beyond the position and of a type that is
admitted. -/
theorem Processor.ReadsServer.stored_of_read (reads : processor.ReadsServer) {store : MemoryStore}
    {server : LogModel} (agrees : Agrees store server) (sound : store.Sound) {position : Position}
    {slice : Slice}
    (h : (LogServer.read LogModel.client processor.config.stream
      { ReadOptions.forward with position, filter := processor.config.filter } server).outcome
        = .ok slice)
    {record : Record} (hrecord : record ∈ slice.records) :
    ∃ twin ∈ store.readable processor.config.stream, twin.untimed = record.untimed ∧
      position < twin.positionIn processor.config.stream ∧
      admitsType processor.config.filter twin.typeName = true := by
  have hread : (processor.readAfter position server).outcome = .ok slice.records := by
    simp only [readAfter, reads.read, h]
  obtain ⟨stored, hstored, hsame⟩ := reads.readAfter_ok agrees hread
  obtain ⟨-, hmem⟩ := Processor.readAfter_ok (Processor.inMemory_readsMemory ..) sound hstored
  have hfound : record.untimed ∈ stored.map Record.untimed := by
    rw [hsame]
    exact List.mem_map_of_mem hrecord
  obtain ⟨twin, htwin, huntimed⟩ := List.mem_map.mp hfound
  obtain ⟨hin, hconcerns, hbeyond, hadmits⟩ := (hmem twin).mp htwin
  exact ⟨twin, MemoryStore.mem_readable.mpr ⟨hin, hconcerns⟩, huntimed, hbeyond, hadmits⟩

/-- When a pass has read, it will commit a position beyond which there is nothing to read. -/
theorem Processor.ReadsServer.goal_plan (reads : processor.ReadsServer) {store : MemoryStore}
    {server : LogModel} (agrees : Agrees store server) (sound : store.Sound) {position : Position}
    {records : List Record} (h : (processor.readAfter position server).outcome = .ok records) :
    Covers processor.config processor.config.Admits store
      (PassAction.goal position
        (PassAction.plan processor.config.strategy processor.config.stream records)) [] := by
  obtain ⟨stored, hstored, hsame⟩ := reads.readAfter_ok agrees h
  have hcovers : Covers processor.config processor.config.Admits store (PassAction.goal position
      (PassAction.plan processor.config.strategy processor.config.stream stored)) [] :=
    covers_goal_plan (Processor.inMemory_readsMemory ..) sound hstored []
  rw [PassAction.goal_plan, last_position_congr _ hsame] at hcovers
  rw [PassAction.goal_plan]
  exact hcovers

end

/-! ## What a run foresees -/

/-- Every stored record beyond a position that a run is to handle was appended after the last read of a
pass, and the poller lets the run know of it. -/
def Foresees (config : ProcessorConfig) (store : MemoryStore) (poller : Poller) (read located : Nat)
    (position : Position) : Prop :=
  ∀ record ∈ store.readable config.stream, admitsType config.filter record.typeName = true →
    position < record.positionIn config.stream →
      read < record.sequence.toInt ∧ poller.Sees config.stream located record

theorem Foresees.onward {config : ProcessorConfig} {store store' : MemoryStore} {poller : Poller}
    {read located polled : Nat} {position : Position}
    (h : Foresees config store poller read located position)
    (onward : MemoryStore.Onward config.stream store store') (known : read < store.nextSequence.toInt)
    (follows : poller.Follows config store polled) :
    Foresees config store' poller read located position := by
  intro record hrecord hadmits hbeyond
  rcases onward.fresh record hrecord with hold | ⟨hfar, hfresh⟩
  · exact h record hold hadmits hbeyond
  · -- a fresh record lies beyond all that the poller reaches
    refine ⟨by omega, fun reach hreach => .inr (.inl ?_)⟩
    have hreached := follows.reached reach hreach
    rw [Position.lt_iff_toInt]
    omega

theorem PollMove.foresees {config : ProcessorConfig} {store : MemoryStore} {server : LogModel}
    {poller poller' : Poller} {read located polled : Nat} (move : PollMove server poller poller')
    (sound : store.Sound) (agrees : Agrees store server) (follows : poller.Follows config store polled)
    {position : Position} (h : Foresees config store poller read located position) :
    Foresees config store poller' read (poller.locatedAt server.lastCommit located) position := by
  intro record hrecord hadmits hbeyond
  obtain ⟨hread, hsees⟩ := h record hrecord hadmits hbeyond
  exact ⟨hread, move.sees sound agrees follows hrecord hadmits hsees⟩

/-- What a phase aims at does not depend on when a pass read last, if it is about to read again. -/
theorem RunPhase.Aims.readAt {config : ProcessorConfig} {store : MemoryStore} {poller : Poller}
    {read located : Nat} {persisted : Checkpoint} {phase : RunPhase}
    (h : phase.Aims persisted (Foresees config store poller read located)) (commit : Nat) :
    phase.Aims persisted (Foresees config store poller (phase.readAt commit read) located) := by
  cases phase with
  | passing phase =>
    cases phase with
    | loading => trivial
    | reading checkpoint => exact h
    | acting checkpoint actions => exact h
    | ended outcome => trivial
  | waiting => exact h
  | draining => trivial
  | ended outcome => trivial

namespace Lookout

variable {κ η : Type}

/-- The invariant of a run, with a store in memory that agrees with the server: until the run ends, its
poller follows, and what its phase aims at is foreseen. -/
structure Attentive (config : ProcessorConfig) (saved : String → κ → Option Checkpoint)
    (store : MemoryStore) (lookout : Lookout κ η) : Prop where
  sound : store.Sound
  agrees : Agrees store lookout.server
  read : lookout.read ≤ lookout.server.lastCommit
  polled : lookout.polled ≤ lookout.server.lastCommit
  attends : (∃ outcome, lookout.view.phase = .ended outcome) ∨
    lookout.poller.Follows config store lookout.polled ∧
      lookout.view.phase.Aims (config.persisted saved lookout.view.place.checkpoints)
        (Foresees config store lookout.poller lookout.read lookout.located)

variable {saved : String → κ → Option Checkpoint} {processor : Processor LogModel κ η}
  {store : MemoryStore} {lookout : Lookout κ η}

theorem attentive_start {server : LogModel} (sound : store.Sound) (agrees : Agrees store server)
    (checkpoints : κ) (handler : η) :
    Attentive processor.config saved store (start processor server checkpoints handler) where
  sound := sound
  agrees := agrees
  read := Nat.zero_le _
  polled := Nat.zero_le _
  attends := .inr ⟨⟨rfl, rfl, rfl, rfl, trivial, fun _ => rfl, nofun, nofun⟩, trivial⟩

theorem attentive_call {config : ProcessorConfig} (h : Attentive config saved store lookout)
    (issued : IssuedCall) (spares : ∀ write ∈ issued.writes, write.Spares config.stream) (count : Nat)
    (hcount : store.nextSequence.toInt ≤ count + 1)
    (few : (count : Int) + (MemoryStore.appendedBy issued.writes store).length
      < Int64.maxValue.toInt) :
    Attentive config saved (store.run issued.writes) (lookout.call issued) := by
  have ample : MemoryStore.Ample store issued.writes := ⟨h.sound, count, hcount, few⟩
  have honward := ample.onward_run spares
  have hagrees := issued.run_agrees h.agrees h.sound (by omega)
  have hcommit := h.agrees.commit
  have hcommit' := hagrees.commit
  have hnext := honward.next
  have hread := h.read
  have hpolled := h.polled
  constructor
  case sound => exact (h.sound.run issued.writes count hcount few).1
  case agrees => exact hagrees
  case read =>
    show lookout.read ≤ (issued.run (.logServer LogModel.client) lookout.server).2.lastCommit
    omega
  case polled =>
    show lookout.polled ≤ (issued.run (.logServer LogModel.client) lookout.server).2.lastCommit
    omega
  case attends =>
    rcases h.attends with hended | ⟨follows, aims⟩
    · exact .inl hended
    · exact .inr ⟨follows.onward honward (by omega),
        aims.imp fun _ hforesees => hforesees.onward honward (by omega) follows⟩

theorem attentive_poll {config : ProcessorConfig} (h : Attentive config saved store lookout)
    {after : Lookout κ η} (hstep : lookout.stepPoll = some after) :
    Attentive config saved store after := by
  obtain ⟨⟨poller, server⟩, hpoll, rfl⟩ := Option.map_eq_some_iff.mp hstep
  obtain rfl := Poller.step_state hpoll
  constructor
  case sound => exact h.sound
  case agrees => exact h.agrees
  case read => exact h.read
  case polled =>
    have hpolled := h.polled
    show lookout.poller.polledAt _ _ ≤ lookout.server.lastCommit
    unfold Poller.polledAt
    split <;> omega
  case attends =>
    rcases h.attends with hended | ⟨follows, aims⟩
    · exact .inl hended
    · have move := Poller.step_cases follows.isOpen follows.undisturbed hpoll
      exact .inr ⟨move.follows h.sound h.agrees follows,
        aims.imp fun _ hforesees => move.foresees h.sound h.agrees follows hforesees⟩

theorem attentive_stepRun (reads : processor.ReadsServer)
    (keeps : processor.checkpoints.Keeps saved)
    (h : Attentive processor.config saved store lookout) {after : Lookout κ η}
    (hstep : lookout.stepRun processor = some after) :
    Attentive processor.config saved store after := by
  obtain ⟨⟨view, samples⟩, hview, rfl⟩ := Option.map_eq_some_iff.mp hstep
  have move := Processor.runStep_cases reads.readsOnly hview
  have hread : lookout.view.phase.readAt lookout.server.lastCommit lookout.read
      ≤ lookout.server.lastCommit := by
    have hle := h.read
    unfold RunPhase.readAt
    split <;> omega
  rcases h.attends with ⟨outcome, hended⟩ | ⟨follows, aims⟩
  · simp only [Processor.runStep, hended] at hview
    cases hview
  · -- nothing is stored beyond the last record read; whatever comes later is appended after the read
    have hplan : ∀ position records,
        (processor.readAfter position lookout.view.place.store).outcome = .ok records →
          Foresees processor.config store lookout.poller
            (lookout.view.phase.readAt lookout.server.lastCommit lookout.read) lookout.located
            (PassAction.goal position
              (PassAction.plan processor.config.strategy processor.config.stream records)) := by
      intro position records hrecords record hrecord hadmits hbeyond
      obtain ⟨hstored, hconcerns⟩ := MemoryStore.mem_readable.mp hrecord
      exact absurd (reads.goal_plan h.agrees h.sound hrecords record hstored hconcerns hadmits hbeyond)
        List.not_mem_nil
    obtain ⟨hstore, hlater, hcases⟩ := move.aims keeps hplan (aims.readAt lookout.server.lastCommit)
    have hserver : view.place.store = lookout.server := hstore
    refine ⟨h.sound, ?_, ?_, ?_, ?_⟩
    · show Agrees store view.place.store
      rw [hserver]
      exact h.agrees
    · show _ ≤ view.place.store.lastCommit
      rw [hserver]
      exact hread
    · show _ ≤ view.place.store.lastCommit
      rw [hserver]
      exact h.polled
    · rcases hcases with hended | ⟨hchannel, haims⟩ | ⟨hchannel, haims⟩
      · exact .inl hended
      · refine .inr ⟨?_, ?_⟩
        · show Poller.Follows ⟨lookout.poll, view.channel⟩ _ _ _
          rw [hchannel]
          exact follows
        · show view.phase.Aims _ (Foresees _ _ ⟨lookout.poll, view.channel⟩ _ _)
          rw [hchannel]
          exact haims
      · refine .inr ⟨follows.of_reach hlater ?_ follows.undisturbed ?_, haims _⟩
        · show view.channel.isClosed = false
          rw [hchannel]
          exact (Channel.isClosed_receive follows.sink).trans follows.isOpen
        · show Poller.reach ⟨lookout.poll, view.channel⟩ = Poller.reach ⟨lookout.poll, _⟩
          simp only [Poller.reach, hlater.stream]

/-- Every action keeps a run attentive; `count` records were appended before it. -/
theorem attentive_step (reads : processor.ReadsServer)
    (keeps : processor.checkpoints.Keeps saved)
    (h : Attentive processor.config saved store lookout) (action : Action)
    (spares : ∀ write ∈ action.writes, write.Spares processor.config.stream) (count : Nat)
    (hcount : store.nextSequence.toInt ≤ count + 1)
    (few : (count : Int) + (MemoryStore.appendedBy action.writes store).length
      < Int64.maxValue.toInt) :
    Attentive processor.config saved (store.run action.writes) (lookout.step processor action) := by
  cases action with
  | call issued => exact attentive_call h issued spares count hcount few
  | run =>
    show Attentive _ _ store ((lookout.stepRun processor).getD lookout)
    cases hstep : lookout.stepRun processor with
    | none => exact h
    | some after => exact attentive_stepRun reads keeps h hstep
  | poll =>
    show Attentive _ _ store (lookout.stepPoll.getD lookout)
    cases hstep : lookout.stepPoll with
    | none => exact h
    | some after => exact attentive_poll h hstep
  | tick => exact ⟨h.sound, h.agrees, h.read, h.polled, h.attends⟩
  | cancel => exact ⟨h.sound, h.agrees, h.read, h.polled, h.attends⟩

/-- A run stays attentive; `count` records were appended before it. -/
theorem attentive_run (reads : processor.ReadsServer)
    (keeps : processor.checkpoints.Keeps saved)
    (h : Attentive processor.config saved store lookout) (actions : List Action)
    (spares : ∀ action ∈ actions, ∀ write ∈ action.writes, write.Spares processor.config.stream)
    (count : Nat) (hcount : store.nextSequence.toInt ≤ count + 1)
    (few : (count : Int) + (MemoryStore.appendedBy (actions.flatMap Action.writes) store).length
      < Int64.maxValue.toInt) :
    Attentive processor.config saved (store.run (actions.flatMap Action.writes))
      (lookout.run processor actions) := by
  induction actions generalizing lookout store count with
  | nil => exact h
  | cons action rest ih =>
    rw [List.flatMap_cons, MemoryStore.appendedBy_append, List.length_append, Int.natCast_add] at few
    rw [List.flatMap_cons, MemoryStore.run_append]
    have hnext := (h.sound.run action.writes count hcount (by omega)).2
    have hstep := attentive_step reads keeps h action (spares action List.mem_cons_self) count hcount
      (by omega)
    exact ih hstep (fun other hother => spares other (List.mem_cons_of_mem _ hother))
      (count + (MemoryStore.appendedBy action.writes store).length) (by omega) (by omega)

/-- A run over a server that was empty once is attentive. -/
theorem attentive_afterCalls (reads : processor.ReadsServer)
    (keeps : processor.checkpoints.Keeps saved) (before : List IssuedCall) (checkpoints : κ)
    (state : η) (actions : List Action)
    (spares : ∀ action ∈ actions, ∀ write ∈ action.writes, write.Spares processor.config.stream)
    (few : ((MemoryStore.appendedBy
        (before.flatMap IssuedCall.writes ++ actions.flatMap Action.writes) .empty).length : Int)
      < Int64.maxValue.toInt) :
    ∃ store, Attentive processor.config saved store
      ((start processor ((Backend.logServer LogModel.client).after before .empty) checkpoints
        state).run processor actions) := by
  have hempty : MemoryStore.empty.Sound := .empty .empty
  rw [MemoryStore.appendedBy_append, List.length_append, Int.natCast_add] at few
  obtain ⟨hsound, hnext⟩ := hempty.run (before.flatMap IssuedCall.writes) 0 (by decide) (by omega)
  have hagrees := Backend.after_agrees .empty hempty before 0 (by decide) (by omega)
  exact ⟨_, attentive_run reads keeps (attentive_start hsound hagrees checkpoints state) actions spares _
    hnext (by omega)⟩

/-- The last poll of an idle poller began after the last append, so it came past every record. -/
theorem Idle.passed {config : ProcessorConfig} (idle : lookout.Idle)
    (follows : lookout.poller.Follows config store lookout.polled)
    (agrees : Agrees store lookout.server) (sound : store.Sound) {cursor : Position} {due : Nat}
    (resting : lookout.poll = .resting cursor due) {record : Record}
    (hrecord : record ∈ store.readable config.stream) :
    record.positionIn config.stream ≤ cursor := by
  have hreach : lookout.poller.reach = some cursor := by
    rw [poller, resting]
    rfl
  have hlast := (sound.numbered record (MemoryStore.mem_readable.mp hrecord).1).2
  have hcommit := agrees.commit
  have hpolled := idle.polled
  rw [SequenceNumber.lt_iff_toInt] at hlast
  exact follows.polled cursor hreach record hrecord (by omega)

/-- When a poller is idle, what it lets its run know of was appended before it found the end. -/
theorem Idle.of_sees {config : ProcessorConfig} (idle : lookout.Idle)
    (follows : lookout.poller.Follows config store lookout.polled)
    (agrees : Agrees store lookout.server) (sound : store.Sound) {record : Record}
    (hrecord : record ∈ store.readable config.stream)
    (sees : lookout.poller.Sees config.stream lookout.located record) :
    record.sequence.toInt ≤ lookout.located := by
  obtain ⟨cursor, due, hresting⟩ := idle.rests
  have hle := idle.passed follows agrees sound hresting hrecord
  rw [poller, hresting] at sees
  rcases sees cursor rfl with hearly | hbeyond | hdue
  · exact hearly
  · exact absurd hbeyond (Std.not_lt.mpr hle)
  · have hnone : Poller.due ⟨.resting cursor due, lookout.view.channel⟩ = [] := by
      show lookout.view.channel.record.toList ++ [] = []
      rw [idle.record]
      rfl
    rw [hnone] at hdue
    cases hdue

/-- **What can be missed**: whatever is called before a run over a log server begins and during it, as
long as its stream is not deleted: when the run waits and its poller is idle, each record that a read
from the checkpoint that is kept gives was appended after the last read of a pass and before the poller
found the end of the stream. So there is none once a pass has read after that. -/
theorem missed_before_located (config : ProcessorConfig) (checkpointStore : CheckpointStore κ)
    (keeps : checkpointStore.Keeps saved) (handler : Handler η) (fresh : EventId)
    (before : List IssuedCall) (checkpoints : κ) (state : η) (actions : List Action)
    (spares : ∀ action ∈ actions, ∀ write ∈ action.writes, write.Spares config.stream)
    (few : ((MemoryStore.appendedBy
        (before.flatMap IssuedCall.writes ++ actions.flatMap Action.writes) .empty).length : Int)
      < Int64.maxValue.toInt) :
    let processor := Processor.overServer config checkpointStore handler fresh
    let server := (Backend.logServer LogModel.client).after before .empty
    let lookout := (start processor server checkpoints state).run processor actions
    lookout.view.phase = .waiting → lookout.Idle →
      ∀ slice, (LogServer.read LogModel.client config.stream
          { ReadOptions.forward with
            position := (config.persisted saved lookout.view.place.checkpoints).position,
            filter := config.filter } lookout.server).outcome
        = .ok slice →
          ∀ record ∈ slice.records,
            lookout.read < record.sequence.toInt ∧ record.sequence.toInt ≤ lookout.located := by
  intro processor server lookout hwaiting hidle slice hread record hrecord
  have reads := Processor.overServer_readsServer config checkpointStore handler fresh
  obtain ⟨store, hrun⟩ : ∃ store, Attentive processor.config saved store lookout :=
    attentive_afterCalls reads keeps before checkpoints state actions spares few
  rcases hrun.attends with ⟨outcome, hended⟩ | ⟨follows, aims⟩
  · cases hwaiting.symm.trans hended
  · change lookout.view.phase.Aims _ _ at aims
    rw [hwaiting] at aims
    obtain ⟨twin, htwin, hsame, hbeyond, hadmits⟩ :=
      reads.stored_of_read hrun.agrees hrun.sound hread hrecord
    obtain ⟨hlater, hsees⟩ := aims twin htwin hadmits hbeyond
    have hsequence : twin.sequence = record.sequence := by
      have hsequence := congrArg Record.sequence hsame
      exact hsequence
    rw [← hsequence]
    exact ⟨hlater, hidle.of_sees follows hrun.agrees hrun.sound htwin hsees⟩

/-- A processor that notes the ids it handles and rejects a type. -/
def sampleProcessor : Processor LogModel CheckpointTable (List EventId) :=
  .overServer ⟨"p", ⟨"a"⟩, some (.exclude ["u"]), .afterHandling⟩ CheckpointTable.store
    (fun record seen => (.ok (), seen ++ [record.id])) default

def sampleBefore : List IssuedCall :=
  [⟨.append ⟨"a"⟩ [⟨⟨"1"⟩, "t", .null, .empty⟩] none, default, default⟩]

/-- A batch is appended after the first pass read and before the poller finds the end. Then the pass is
over, and the poller rests and polls again. -/
def sampleActions : List Action :=
  [.run, .run,
    .call ⟨.append ⟨"a"⟩ [⟨⟨"2"⟩, "t", .null, .empty⟩, ⟨⟨"3"⟩, "u", .null, .empty⟩] none,
      default, default⟩,
    .poll, .poll, .run, .poll, .run, .run, .tick, .poll, .poll, .poll]

def sampleLookout : Lookout CheckpointTable (List EventId) :=
  (start sampleProcessor ((Backend.logServer LogModel.client).after sampleBefore .empty) .empty []).run
    sampleProcessor sampleActions

/-- The run waits with a record to handle that nothing will tell it of. -/
theorem missed_before_located_sample :
    (∀ action ∈ sampleActions, ∀ write ∈ action.writes, write.Spares ⟨"a"⟩) ∧
      ((MemoryStore.appendedBy (sampleBefore.flatMap IssuedCall.writes
        ++ sampleActions.flatMap Action.writes) .empty).length : Int) < Int64.maxValue.toInt ∧
      sampleLookout.view.phase = .waiting ∧ sampleLookout.Idle ∧
      sampleLookout.stepRun sampleProcessor = none ∧
      sampleLookout.view.place.handler = [⟨"1"⟩] ∧
      sampleLookout.view.place.checkpoints = ⟨[⟨"p", ⟨"a"⟩, ⟨0⟩⟩]⟩ ∧
      ∃ slice, (LogServer.read LogModel.client ⟨"a"⟩
          { ReadOptions.forward with position := ⟨0⟩, filter := some (.exclude ["u"]) }
          sampleLookout.server).outcome = .ok slice ∧
        slice.records.map Record.id = [⟨"2"⟩] ∧
        ∀ record ∈ slice.records,
          sampleLookout.read < record.sequence.toInt ∧
            record.sequence.toInt ≤ sampleLookout.located :=
  have spares : ∀ action ∈ sampleActions, ∀ write ∈ action.writes, write.Spares ⟨"a"⟩ := by decide
  have few : ((MemoryStore.appendedBy (sampleBefore.flatMap IssuedCall.writes
      ++ sampleActions.flatMap Action.writes) .empty).length : Int) < Int64.maxValue.toInt := by decide
  have idle : sampleLookout.Idle := ⟨⟨_, _, rfl⟩, by decide, by decide, by decide⟩
  have read : (LogServer.read LogModel.client ⟨"a"⟩
      { ReadOptions.forward with position := ⟨0⟩, filter := some (.exclude ["u"]) }
      sampleLookout.server).outcome = .ok _ := rfl
  ⟨spares, few, rfl, idle, rfl, by decide, by decide, _, read, by decide,
    missed_before_located _ CheckpointTable.store CheckpointTable.keeps _ default sampleBefore .empty
      [] sampleActions spares few rfl idle _ read⟩

/-! ### Waiting on -/

/-- A run that waits on an empty channel, with a poller that has nothing to deliver. -/
structure Asleep (lookout : Lookout κ η) : Prop where
  waiting : lookout.view.phase = .waiting
  going : lookout.view.cancelled = false
  isOpen : lookout.view.channel.isClosed = false
  sink : lookout.view.channel.sinkGone = false
  record : lookout.view.channel.record = none
  error : lookout.view.channel.error = none
  exhausted : Exhausted lookout.view.channel.stream lookout.server lookout.poll

theorem Asleep.stepRun (h : lookout.Asleep) : lookout.stepRun processor = none := by
  have hclosed := (Bool.or_eq_false_iff.mp h.isOpen).1
  have hreceive : lookout.view.channel.receive = (.pending, lookout.view.channel) := by
    simp only [Channel.receive, hclosed, h.error, h.record, h.sink, Bool.false_eq_true, if_false]
  simp only [Lookout.stepRun, Processor.runStep, h.waiting, h.going, hreceive, Bool.false_eq_true,
    if_false, Option.map_none]

theorem Asleep.of_view (h : lookout.Asleep) {after : Lookout κ η} (view : after.view = lookout.view)
    (exhausted : Exhausted lookout.view.channel.stream lookout.server after.poll) :
    after.Asleep := by
  obtain ⟨waiting, going, isOpen, sink, record, error, -⟩ := h
  rw [server] at exhausted
  rw [← view] at waiting going isOpen sink record error exhausted
  exact ⟨waiting, going, isOpen, sink, record, error, exhausted⟩

theorem Asleep.stepPoll (h : lookout.Asleep) {after : Lookout κ η}
    (hstep : lookout.stepPoll = some after) : after.Asleep ∧ after.view = lookout.view := by
  obtain ⟨⟨poller, server⟩, hpoll, rfl⟩ := Option.map_eq_some_iff.mp hstep
  obtain rfl := Poller.step_state hpoll
  have move := Poller.step_cases h.isOpen h.exhausted.undisturbed hpoll
  obtain ⟨hexhausted, hchannel⟩ := h.exhausted.move move
  have hview : { lookout.view with
      channel := poller.channel, place.store := lookout.server } = lookout.view := by
    rw [hchannel]
    rfl
  exact ⟨h.of_view hview hexhausted, hview⟩

/-- An action that neither writes nor cancels. -/
def Action.Idles : Action → Prop
  | .call issued => issued.writes = []
  | .cancel => False
  | _ => True

instance (action : Action) : Decidable action.Idles :=
  match action with
  | .call issued => inferInstanceAs (Decidable (issued.writes = []))
  | .cancel => isFalse id
  | .run => isTrue trivial
  | .poll => isTrue trivial
  | .tick => isTrue trivial

theorem Asleep.step (h : lookout.Asleep) {action : Action} (idles : action.Idles) :
    (lookout.step processor action).Asleep ∧
      (lookout.step processor action).view = lookout.view := by
  cases action with
  | call issued =>
    have hserver := IssuedCall.run_of_writes_nil idles lookout.server
    have hview : { lookout.view with
        place.store := (issued.run (.logServer LogModel.client) lookout.server).2 }
          = lookout.view := by
      rw [hserver]
      rfl
    exact ⟨h.of_view hview h.exhausted, hview⟩
  | run =>
    show ((lookout.stepRun processor).getD lookout).Asleep ∧ Lookout.view (Option.getD _ _) = _
    rw [h.stepRun]
    exact ⟨h, rfl⟩
  | poll =>
    show (lookout.stepPoll.getD lookout).Asleep ∧ Lookout.view (Option.getD _ _) = _
    cases hstep : lookout.stepPoll with
    | none => exact ⟨h, rfl⟩
    | some after => exact h.stepPoll hstep
  | tick => exact ⟨h.of_view rfl h.exhausted, rfl⟩
  | cancel => exact idles.elim

theorem Asleep.run (h : lookout.Asleep) (actions : List Action)
    (idles : ∀ action ∈ actions, action.Idles) :
    (lookout.run processor actions).view = lookout.view := by
  induction actions generalizing lookout with
  | nil => rfl
  | cons action rest ih =>
    obtain ⟨hasleep, hview⟩ : (lookout.step processor action).Asleep ∧ _ :=
      h.step (idles action List.mem_cons_self)
    have hrest := ih hasleep fun other hother => idles other (List.mem_cons_of_mem _ hother)
    exact hrest.trans hview

/-- A run that waits while its poller is idle is asleep. -/
theorem Attentive.asleep {config : ProcessorConfig} (h : Attentive config saved store lookout)
    (waiting : lookout.view.phase = .waiting) (going : lookout.view.cancelled = false)
    (idle : lookout.Idle) : lookout.Asleep := by
  rcases h.attends with ⟨outcome, hended⟩ | ⟨follows, -⟩
  · cases waiting.symm.trans hended
  · obtain ⟨cursor, due, hphase⟩ := idle.rests
    have hstream : lookout.view.channel.stream = config.stream := follows.sameStream
    have hread := readRecords_eq lookout.view.channel.stream (.forward cursor) lookout.server
    refine ⟨waiting, going, follows.isOpen, follows.sink, idle.record, idle.error, ?_⟩
    rw [hphase]
    refine .resting ⟨_, hread, ?_⟩
    rw [hstream] at hread ⊢
    have hpoll := h.agrees.poll h.sound hread
    have hnone : (store.readable config.stream).filter (fun record =>
        cursor < record.positionIn config.stream) = [] :=
      List.filter_eq_nil_iff.mpr fun record hrecord hbeyond =>
        Std.not_lt.mpr (idle.passed follows h.agrees h.sound hphase hrecord)
          (of_decide_eq_true hbeyond)
    rw [hnone] at hpoll
    exact List.map_eq_nil_iff.mp hpoll

/-- **A record that is missed stays so**: when a run waits and its poller is idle, nothing changes, not
even what the poller delivers, until somebody writes or cancels the run. -/
theorem waits_until_written (config : ProcessorConfig) (checkpointStore : CheckpointStore κ)
    (keeps : checkpointStore.Keeps saved) (handler : Handler η) (fresh : EventId)
    (before : List IssuedCall) (checkpoints : κ) (state : η) (actions later : List Action)
    (spares : ∀ action ∈ actions, ∀ write ∈ action.writes, write.Spares config.stream)
    (few : ((MemoryStore.appendedBy
        (before.flatMap IssuedCall.writes ++ actions.flatMap Action.writes) .empty).length : Int)
      < Int64.maxValue.toInt)
    (idles : ∀ action ∈ later, action.Idles) :
    let processor := Processor.overServer config checkpointStore handler fresh
    let server := (Backend.logServer LogModel.client).after before .empty
    let lookout := (start processor server checkpoints state).run processor actions
    lookout.view.phase = .waiting → lookout.view.cancelled = false → lookout.Idle →
      (lookout.run processor later).view = lookout.view := by
  intro processor server lookout waiting going idle
  have reads := Processor.overServer_readsServer config checkpointStore handler fresh
  obtain ⟨store, hrun⟩ : ∃ store, Attentive processor.config saved store lookout :=
    attentive_afterCalls reads keeps before checkpoints state actions spares few
  exact (hrun.asleep waiting going idle).run later idles

/-- The next record wakes the run up, and what was missed is handled with it. -/
example :
    (sampleLookout.run sampleProcessor
      [.call ⟨.append ⟨"a"⟩ [⟨⟨"4"⟩, "t", .null, .empty⟩] none, default, default⟩, .tick, .poll, .poll,
        .poll, .run, .run, .run, .run, .run, .run, .run, .run]).view.place.handler
      = [⟨"1"⟩, ⟨"2"⟩, ⟨"4"⟩] := by decide

end Lookout

end EventJournal
