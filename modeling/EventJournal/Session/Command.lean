import EventJournal.Session.Basic

/-!
# Commands of a session

What one can do in a session, and what one is told. After each command the tasks run until all wait.
A command that names what is not there is told so and does nothing.
-/

namespace EventJournal

/-- An operation of the store. -/
inductive StoreCommand where
  | append (stream : StreamId) (events : List Event) (expected : Option StreamVersion)
  | read (stream : StreamId) (options : ReadOptions)
  | truncate (stream : StreamId) (before : Position)
  | delete (stream : StreamId)
  | clear
  | exists (stream : StreamId)
  | bounds (stream : StreamId)
  | name
  deriving Repr, DecidableEq, Inhabited

/-- A command. -/
inductive Command where
  /-- An operation of the store; `direct` leaves the chain of upcasters out. -/
  | store (operation : StoreCommand) (direct : Bool)
  | size
  | subscribe (name : String) (stream : StreamId) (options : SubscribeOptions)
  /-- Receives once. -/
  | receive (name : String)
  /-- Receives what is waiting already. -/
  | tryReceive (name : String)
  /-- Receives until nothing is waiting, so often at most. -/
  | drain (name : String) (limit : Option Nat)
  | close (name : String)
  | inspect (name : String)
  | drop (name : String)
  /-- Watches the closing of a subscription from now on. -/
  | watch (name : String)
  /-- Closes the watched subscription from outside. -/
  | closeWatched (name : String)
  | inspectWatched (name : String)
  /-- Lets so many poll intervals pass. -/
  | tick (times : Nat)
  | saveCheckpoint (checkpoint : Checkpoint)
  | loadCheckpoint (id : String)
  | deleteCheckpoint (id : String)
  | planCheckpointFault (fault : Fault CheckpointOperation)
  | addProcessor (name : String) (config : ProcessorConfig) (registry : Option Registry)
      (failures : List (EventId × Int))
  | setFailures (name : String) (failures : List (EventId × Int))
  | catchUp (name : String)
  | checkpoint (name : String)
  | reset (name : String)
  | stats (name : String)
  | handled (name : String)
  /-- Starts a live run, cancelled from the beginning or not. -/
  | start (name : String) (cancelled : Bool)
  | cancel (name : String)
  /-- Takes the outcome of the latest run, once. -/
  | join (name : String)
  | metrics
  deriving Inhabited

/-- What a command is told. -/
inductive Reply where
  | nothing
  /-- There is nothing of that name. -/
  | unknownName
  | records (outcome : Outcome (List Record))
  | slice (outcome : Outcome Slice)
  | done (outcome : Outcome Unit)
  | existence (outcome : Outcome Bool)
  | bounds (outcome : Outcome StreamBounds)
  | name (name : String)
  | size (count : Option Nat)
  | subscribed (outcome : Outcome String)
  | received (received : Received)
  | drained (outcomes : List (Outcome Record))
  | closed (yes : Bool)
  | subscription (channel : Channel)
  | flag (yes : Bool)
  | checkpoint (outcome : Outcome (Option Checkpoint))
  | processor (config : ProcessorConfig)
  | caughtUp (outcome : Outcome Checkpoint) (handled : List Handled)
  | stats (stats : ProcessorStats)
  | handled (handled : List Handled)
  | running
  | metrics (lines : List String)

namespace Session

variable {σ α : Type}

/-! ## The store -/

/-- The session after an answer, and the reply made of its outcome. -/
def answered (session : Session σ) (answer : Answer σ α) (reply : Outcome α → Reply) :
    Reply × Session σ :=
  (reply answer.outcome, session.afterAnswer answer)

/-- Does an operation of the store. -/
def onStore (setup : SessionSetup σ) (session : Session σ) (operation : StoreCommand)
    (direct : Bool) : Reply × Session σ :=
  let store := session.store setup direct
  let next := { session with markers := session.markers + 1 }
  match operation with
  | .append stream events expected =>
    session.answered (store.append stream events expected session.state) .records
  | .read stream options => session.answered (store.read stream options session.state) .slice
  | .truncate stream before => next.answered (store.truncate stream before session.state) .done
  | .delete stream => next.answered (store.delete stream session.state) .done
  | .clear => session.answered (store.clear session.state) .done
  | .exists stream => session.answered (store.exists? stream session.state) .existence
  | .bounds stream => session.answered (store.bounds stream session.state) .bounds
  | .name => (.name store.name, session)

/-! ## Subscriptions -/

/-- Does something with the subscription of a name. -/
def withSubscription (session : Session σ) (name : String)
    (action : Nat → Channel → Reply × Session σ) : Reply × Session σ :=
  match session.subscriptions.lookup name with
  | none => (.unknownName, session)
  | some number =>
    match session.channels[number]? with
    | none => (.unknownName, session)
    | some channel => action number channel

/-- The consumer of the subscription of a name goes away, if there is one. -/
def dropNamed (session : Session σ) (name : String) : Session σ :=
  match session.subscriptions.lookup name with
  | none => session
  | some number =>
    { session.updateChannel number Channel.dropConsumer with
      subscriptions := session.subscriptions.filter (·.1 ≠ name) }

/-- Opens a subscription under a name; one that had the name goes away. -/
def subscribe (setup : SessionSetup σ) (session : Session σ) (name : String) (stream : StreamId)
    (options : SubscribeOptions) : Reply × Session σ :=
  match session.openChannel setup stream options with
  | (.error error, session) => (.subscribed (.error error), session)
  | (.ok number, session) =>
    let session := session.dropNamed name
    (.subscribed (.ok (Channel.create stream options).debugText),
      { session with subscriptions := (name, number) :: session.subscriptions })

/-- Receives from the channel of a number. -/
def receiveFrom (session : Session σ) (number : Nat) (channel : Channel) : Received × Session σ :=
  let (received, channel) := channel.receive
  (received, session.updateChannel number fun _ => channel)

/-- Receives until nothing is waiting, letting the tasks run before each time. -/
def drainFrom (setup : SessionSetup σ) (number : Nat) :
    Nat → Session σ → List (Outcome Record) × Session σ
  | 0, session => ([], session)
  | fuel + 1, session =>
    let session := session.settle setup
    match session.channels[number]? with
    | none => ([], session)
    | some channel =>
      match session.receiveFrom number channel with
      | (.item outcome, session) =>
        let (rest, session) := drainFrom setup number fuel session
        (outcome :: rest, session)
      | (_, session) => ([], session)

/-- Lets poll intervals pass one by one. -/
def tick (setup : SessionSetup σ) : Nat → Session σ → Session σ
  | 0, session => session
  | times + 1, session =>
    tick setup times ({ session with clock := session.clock + 1 }.settle setup)

/-! ## Processors -/

/-- Does something with the processor of a name. -/
def withProcessor (session : Session σ) (name : String)
    (action : Nat → SessionProcessor → Reply × Session σ) : Reply × Session σ :=
  match session.processorNames.lookup name with
  | none => (.unknownName, session)
  | some number =>
    match session.processors[number]? with
    | none => (.unknownName, session)
    | some entry => action number entry

/-- Changes the entry of a processor. -/
def updateProcessor (session : Session σ) (number : Nat)
    (change : SessionProcessor → SessionProcessor) : Session σ :=
  { session with processors := session.processors.modify number change }

/-- Takes the notes of a processor's handler away. -/
def takeHandled (session : Session σ) (number : Nat) : List Handled × Session σ :=
  let handled := (session.processors[number]?).elim [] (·.rehearsal.handled)
  (handled, session.updateProcessor number fun entry =>
    { entry with rehearsal := { entry.rehearsal with handled := [] } })

/-- Makes a pass. -/
def catchUp (setup : SessionSetup σ) (session : Session σ) (number : Nat)
    (entry : SessionProcessor) : Reply × Session σ :=
  let answer := (session.processor setup entry).catchUp (session.workplace entry)
  let session := session.afterWork number entry answer.state answer.samples
  let (handled, session) := session.takeHandled number
  (.caughtUp answer.outcome handled, session)

/-- Starts a live run: its subscription is opened first, for new records only. -/
def start (setup : SessionSetup σ) (session : Session σ) (number : Nat) (entry : SessionProcessor)
    (cancelled : Bool) : Session σ :=
  let task := session.tasks.length
  let begun := session.updateProcessor number fun entry => { entry with run := some task }
  let idle : Task := .run number 0 (.ended (.ok ())) cancelled
  let queued := { begun with tasks := begun.tasks ++ [idle] }
  match queued.openChannel setup entry.config.stream entry.config.wakeUps with
  | (.error error, session) =>
    { session with tasks := session.tasks.set task (.run number 0 (.ended (.error error)) cancelled) }
  | (.ok channel, session) =>
    { session with tasks := session.tasks.set task (.run number channel RunView.begin cancelled) }

/-- Cancels the latest run of a processor. -/
def cancel (session : Session σ) (entry : SessionProcessor) : Session σ :=
  match entry.run with
  | none => session
  | some task =>
    { session with
      tasks := session.tasks.modify task fun
        | .run number channel phase _ => .run number channel phase true
        | other => other }

/-- Takes the outcome of the latest run of a processor. -/
def join (session : Session σ) (number : Nat) (entry : SessionProcessor) : Reply × Session σ :=
  match entry.run.bind (session.tasks[·]?) with
  | some (.run _ _ (.ended outcome) _) =>
    (.done outcome, session.updateProcessor number fun entry => { entry with run := none })
  | _ => (.running, session)

/-! ## Commands -/

/-- Does an operation of the checkpoints. -/
def onCheckpoints (session : Session σ)
    (operation : SessionCheckpoints → Outcome α × SessionCheckpoints) (reply : Outcome α → Reply) :
    Reply × Session σ :=
  let (outcome, checkpoints) := operation session.checkpoints
  (reply outcome, { session with checkpoints })

/-- Does a command; the tasks do not run yet. -/
def execute (setup : SessionSetup σ) (session : Session σ) : Command → Reply × Session σ
  | .store operation direct => session.onStore setup operation direct
  | .size => (.size (setup.backend.size? session.state), session)
  | .subscribe name stream options => session.subscribe setup name stream options
  | .receive name => session.withSubscription name fun number channel =>
    let (received, session) := session.receiveFrom number channel
    (.received received, session)
  | .tryReceive name => session.withSubscription name fun number channel =>
    match session.receiveFrom number channel with
    | (.pending, session) => (.received .closed, session)
    | (received, session) => (.received received, session)
  | .drain name limit => session.withSubscription name fun number _ =>
    let (outcomes, session) := drainFrom setup number (limit.getD patience) session
    (.drained outcomes, session)
  | .close name => session.withSubscription name fun number channel =>
    (.closed channel.close.closed, session.updateChannel number Channel.close)
  | .inspect name => session.withSubscription name fun _ channel => (.subscription channel, session)
  | .drop name => session.withSubscription name fun _ _ => (.nothing, session.dropNamed name)
  | .watch name => session.withSubscription name fun number _ =>
    (.nothing, { session with watched := (name, number) :: session.watched })
  | .closeWatched name =>
    match session.watched.lookup name with
    | none => (.unknownName, session)
    | some number => (.nothing, session.updateChannel number Channel.close)
  | .inspectWatched name =>
    match (session.watched.lookup name).bind (session.channels[·]?) with
    | none => (.unknownName, session)
    | some channel => (.flag channel.closed, session)
  | .tick times => (.nothing, tick setup times session)
  | .saveCheckpoint checkpoint => session.onCheckpoints (setup.checkpoints.save checkpoint) .done
  | .loadCheckpoint id => session.onCheckpoints (setup.checkpoints.load id) .checkpoint
  | .deleteCheckpoint id => session.onCheckpoints (setup.checkpoints.delete id) .done
  | .planCheckpointFault fault =>
    (.nothing, { session with checkpoints := session.checkpoints.plan fault })
  | .addProcessor name config registry failures =>
    let entry : SessionProcessor := ⟨config, registry, ⟨failures, []⟩, ⟨0, 0⟩, none⟩
    (.processor config, { session with
      processors := session.processors ++ [entry],
      processorNames := (name, session.processors.length) :: session.processorNames })
  | .setFailures name failures => session.withProcessor name fun number _ =>
    (.nothing, session.updateProcessor number fun entry =>
      { entry with rehearsal := { entry.rehearsal with failures } })
  | .catchUp name => session.withProcessor name (session.catchUp setup)
  | .checkpoint name => session.withProcessor name fun _ entry =>
    session.onCheckpoints (session.processor setup entry).checkpoint
      fun outcome => .checkpoint (outcome.map some)
  | .reset name => session.withProcessor name fun _ entry =>
    let answer := (session.processor setup entry).reset session.checkpoints
    (.done answer.outcome, { session with
      checkpoints := answer.state, samples := session.samples ++ answer.samples })
  | .stats name => session.withProcessor name fun _ entry => (.stats entry.stats, session)
  | .handled name => session.withProcessor name fun number _ =>
    let (handled, session) := session.takeHandled number
    (.handled handled, session)
  | .start name cancelled => session.withProcessor name fun number entry =>
    (.nothing, session.start setup number entry cancelled)
  | .cancel name => session.withProcessor name fun _ entry => (.nothing, session.cancel entry)
  | .join name => session.withProcessor name session.join
  | .metrics => (.metrics session.samples.lines, session)

/-- Does a command, then lets the tasks run until all wait. -/
def perform (setup : SessionSetup σ) (session : Session σ) (command : Command) :
    Reply × Session σ :=
  let (reply, session) := session.execute setup command
  (reply, session.settle setup)

end Session

end EventJournal
