import EventJournal.Process.Run
import EventJournal.Session.Backend
import EventJournal.Session.Rehearsal
import EventJournal.Upcast.Store

/-!
# Sessions

A session is a journal in use: a store, its subscriptions and what feeds them, checkpoints,
processors and their live runs, and a clock that counts poll intervals.

Feeders and live runs are tasks. `Session.settle` runs them one after another, each until it waits, in
the order in which they began, until all wait.
-/

namespace EventJournal

/-- Checkpoints on which faults may be planned. -/
abbrev SessionCheckpoints := Faulty CheckpointOperation CheckpointTable

/-- What a session is made of, as far as it is fixed. -/
structure SessionSetup (σ : Type) where
  backend : Backend σ
  checkpoints : CheckpointStore SessionCheckpoints
  /-- Reads go through this chain. -/
  chain : Option UpcastChain

/-- A task of a session. -/
inductive Task where
  /-- Feeds the channel of a number. -/
  | feed (channel : Nat) (feeder : Feeder)
  /-- A live run of the processor of a number on the channel of a number. -/
  | run (processor channel : Nat) (phase : RunPhase) (cancelled : Bool)
  deriving Inhabited

/-- A processor of a session. -/
structure SessionProcessor where
  config : ProcessorConfig
  /-- The types it publishes, if it publishes typed events. -/
  registry : Option Registry
  rehearsal : Rehearsal
  stats : ProcessorStats
  /-- The number of the task of its latest run whose outcome was not asked for. -/
  run : Option Nat
  deriving Inhabited

/-- What changes in a session. -/
structure Session (σ : Type) where
  state : σ
  checkpoints : SessionCheckpoints
  /-- The poll intervals passed so far. -/
  clock : Nat
  /-- How many ids were made up for markers. -/
  markers : Nat
  samples : MetricLog
  channels : List Channel
  tasks : List Task
  processors : List SessionProcessor
  /-- The subscriptions by name: the numbers of their channels, the latest first. -/
  subscriptions : List (String × Nat)
  /-- The channels whose closing is watched, by name, the latest first. -/
  watched : List (String × Nat)
  /-- The processors by name, the latest first. -/
  processorNames : List (String × Nat)

namespace Session

variable {σ α : Type}

/-- A session with nothing done yet. -/
def create (state : σ) : Session σ :=
  ⟨state, .create .empty, 0, 0, [], [], [], [], [], [], []⟩

/-- An id that no other marker has, in the form of a random identifier. -/
def markerId (number : Nat) : EventId :=
  let digits := String.ofList ((Nat.toDigits 16 number).leftpad 12 '0')
  ⟨"00000000-0000-4000-8000-" ++ digits⟩

/-- The store of a session; `direct` leaves the chain out. -/
def store (setup : SessionSetup σ) (session : Session σ) (direct : Bool) : Store σ :=
  let inner := setup.backend.store .start2024 (markerId session.markers)
  match setup.chain with
  | some chain => if direct then inner else inner.upcasting chain
  | none => inner

/-- A session after an answer of its store. -/
def afterAnswer (session : Session σ) (answer : Answer σ α) : Session σ :=
  { session with state := answer.state, samples := session.samples ++ answer.samples }

/-! ## Processors -/

/-- The processor of an entry. -/
def processor (setup : SessionSetup σ) (session : Session σ) (entry : SessionProcessor) :
    Processor σ SessionCheckpoints Rehearsal :=
  { config := entry.config, store := session.store setup false, checkpoints := setup.checkpoints,
    handler := Rehearsal.handler entry.registry }

/-- What the processor of an entry works on. -/
def workplace (session : Session σ) (entry : SessionProcessor) :
    Workplace σ SessionCheckpoints Rehearsal :=
  ⟨session.state, session.checkpoints, entry.rehearsal, entry.stats⟩

/-- A session after the processor of a number worked. -/
def afterWork (session : Session σ) (number : Nat) (entry : SessionProcessor)
    (place : Workplace σ SessionCheckpoints Rehearsal) (samples : MetricLog) : Session σ :=
  let entry := { entry with rehearsal := place.handler, stats := place.stats }
  { session with
    state := place.store, checkpoints := place.checkpoints,
    processors := session.processors.set number entry,
    samples := session.samples ++ samples }

/-! ## Tasks -/

/-- One step of a feeder. -/
def stepFeed (setup : SessionSetup σ) (session : Session σ) (task number : Nat) (feeder : Feeder) :
    Option (Session σ) := do
  let channel ← session.channels[number]?
  let (view, samples) ← setup.backend.feed session.clock ⟨feeder, channel, session.state⟩
  pure { session with
    state := view.state,
    channels := session.channels.set number view.channel,
    tasks := session.tasks.set task (.feed number view.feeder),
    samples := session.samples ++ samples }

/-- One step of a live run. -/
def stepRun (setup : SessionSetup σ) (session : Session σ) (task : Nat) (number channel : Nat)
    (phase : RunPhase) (cancelled : Bool) : Option (Session σ) := do
  let entry ← session.processors[number]?
  let subscription ← session.channels[channel]?
  let (view, samples) ← (session.processor setup entry).runStep
    ⟨phase, cancelled, subscription, session.workplace entry⟩
  let after := session.afterWork number entry view.place samples
  pure { after with
    channels := after.channels.set channel view.channel,
    tasks := after.tasks.set task (.run number channel view.phase view.cancelled) }

/-- One step of the task of a number; nothing when it ended or waits. -/
def stepTask (setup : SessionSetup σ) (session : Session σ) (task : Nat) : Option (Session σ) :=
  match session.tasks[task]? with
  | none => none
  | some (.feed channel feeder) => session.stepFeed setup task channel feeder
  | some (.run number channel phase cancelled) =>
    session.stepRun setup task number channel phase cancelled

/-- Runs a task until it waits, for so many steps at most; says whether it moved. -/
def runTask (setup : SessionSetup σ) (task : Nat) : Nat → Session σ → Session σ × Bool
  | 0, session => (session, false)
  | fuel + 1, session =>
    match session.stepTask setup task with
    | none => (session, false)
    | some session => ((runTask setup task fuel session).1, true)

/-- Runs each task in turn until it waits; says whether one moved. -/
def round (setup : SessionSetup σ) (fuel : Nat) (session : Session σ) : Session σ × Bool :=
  (List.range session.tasks.length).foldl
    (fun (session, moved) task =>
      let (session, again) := runTask setup task fuel session
      (session, moved || again))
    (session, false)

/-- Runs rounds until all tasks wait, for so many rounds at most. -/
def settleWithin (setup : SessionSetup σ) : Nat → Session σ → Session σ
  | 0, session => session
  | fuel + 1, session =>
    let (session, moved) := session.round setup (fuel + 1)
    if moved then settleWithin setup fuel session else session

/-- The greatest number of rounds, and of steps of one task in a round, that settling takes. Tasks come to
wait long before: a step delivers a record, hands one over or saves a checkpoint. -/
def patience : Nat := 1000000

/-- Runs the tasks until all wait. -/
def settle (setup : SessionSetup σ) (session : Session σ) : Session σ :=
  session.settleWithin setup patience

/-! ## Subscriptions -/

/-- Opens a subscription: the number of its channel, fed by a new task. -/
def openChannel (setup : SessionSetup σ) (session : Session σ) (stream : StreamId)
    (options : SubscribeOptions) : Outcome Nat × Session σ :=
  let answer := setup.backend.subscribe stream options session.state
  let session := session.afterAnswer answer
  match answer.outcome with
  | .error error => (.error error, session)
  | .ok (channel, feeder) =>
    let number := session.channels.length
    (.ok number, { session with
      channels := session.channels ++ [channel],
      tasks := session.tasks ++ [.feed number feeder] })

/-- Changes the channel of a number. -/
def updateChannel (session : Session σ) (number : Nat) (change : Channel → Channel) : Session σ :=
  { session with channels := session.channels.modify number change }

end Session

end EventJournal
