import EventJournal.Feed.Pump

/-!
# The parts of a feed, one by one

Subscribers, channels and pumps put together by hand. Sinks are used directly until a pump takes them
over; pumps run after each command, each until it waits, in the order in which they began, until all
wait. A command that names what is not there is told so and does nothing.
-/

namespace EventJournal

/-- A pump at work on a channel. -/
structure WorkingPump where
  /-- The number of its channel. -/
  channel : Nat
  pump : Pump
  deriving Repr, DecidableEq, Inhabited

/-- Subscribers, channels and pumps. -/
structure FeedBench where
  subscribers : Subscribers
  channels : List Channel
  pumps : List WorkingPump
  samples : MetricLog
  /-- The registrations by name: their numbers, the latest first. -/
  listeners : List (String × Nat)
  /-- The channels by name: their numbers, the latest first. -/
  names : List (String × Nat)
  deriving Repr, DecidableEq, Inhabited

/-- A command. -/
inductive FeedCommand where
  | register (name : String) (stream : StreamId)
  | unregister (number : Nat)
  | dispatch (records : List Record)
  | failAll (detail : String)
  | resetAll
  | size
  /-- Takes the oldest message of a subscriber. -/
  | take (name : String)
  /-- A subscriber stops listening. -/
  | deafen (name : String)
  | channel (name : String) (stream : StreamId) (options : SubscribeOptions)
  | offer (name : String) (record : Record)
  | fail (name : String) (error : StoreError)
  | inspectSink (name : String)
  | dropSink (name : String)
  /-- Hands a sink and a subscriber's queue to a pump. -/
  | pump (name listener : String) (backlog : List Record)
  | pumpEnded (name : String)
  | receive (name : String)
  | tryReceive (name : String)
  | drain (name : String)
  | close (name : String)
  | inspect (name : String)
  | drop (name : String)
  | metrics
  deriving Repr, DecidableEq, Inhabited

/-- What a command is told. -/
inductive FeedReply where
  | nothing
  /-- There is nothing of that name. -/
  | unknownName
  | number (number : Nat)
  | size (count : Nat)
  | taken (taken : Subscribers.Taken)
  | opened (channel : Channel)
  | sent (sent : Sent)
  | sink (closed : Bool)
  | flag (yes : Bool)
  | received (received : Received)
  | drained (outcomes : List (Outcome Record))
  | subscription (channel : Channel)
  | metrics (lines : List String)

namespace FeedBench

/-- Nothing yet. -/
def empty : FeedBench := ⟨.empty, [], [], [], [], []⟩

/-! ## Pumps -/

/-- One step of the pump of a number; nothing when it ended or waits. -/
def stepPump (bench : FeedBench) (number : Nat) : Option FeedBench := do
  let working ← bench.pumps[number]?
  let channel ← bench.channels[working.channel]?
  let (view, samples) ← PumpView.step ⟨working.pump, channel, bench.subscribers⟩
  pure { bench with
    subscribers := view.subscribers,
    channels := bench.channels.set working.channel view.channel,
    pumps := bench.pumps.set number { working with pump := view.pump },
    samples := bench.samples ++ samples }

/-- Runs a pump until it waits, for so many steps at most; says whether it moved. -/
def runPump (number : Nat) : Nat → FeedBench → FeedBench × Bool
  | 0, bench => (bench, false)
  | fuel + 1, bench =>
    match bench.stepPump number with
    | none => (bench, false)
    | some bench => ((runPump number fuel bench).1, true)

/-- Runs each pump in turn until it waits; says whether one moved. -/
def round (fuel : Nat) (bench : FeedBench) : FeedBench × Bool :=
  (List.range bench.pumps.length).foldl
    (fun (bench, moved) number =>
      let (bench, again) := runPump number fuel bench
      (bench, moved || again))
    (bench, false)

/-- Runs rounds until all pumps wait, for so many rounds at most. -/
def settleWithin : Nat → FeedBench → FeedBench
  | 0, bench => bench
  | fuel + 1, bench =>
    let (bench, moved) := bench.round (fuel + 1)
    if moved then settleWithin fuel bench else bench

/-- The work left for a pump: records of the backlog, messages, what waits, and its end. -/
def workLeft (bench : FeedBench) (working : WorkingPump) : Nat :=
  2 * (working.pump.backlog.length + (bench.subscribers.queueOf working.pump.number).length) + 3

/-- The work left for all pumps. -/
def allWorkLeft (bench : FeedBench) : Nat :=
  bench.pumps.foldr (fun working total => bench.workLeft working + total) 0

/-- Runs the pumps until all wait: a step of a pump leaves less work. -/
def settle (bench : FeedBench) : FeedBench := bench.settleWithin (bench.allWorkLeft + 1)

/-! ## Commands -/

/-- Changes the channel of a number. -/
def updateChannel (bench : FeedBench) (number : Nat) (change : Channel → Channel) : FeedBench :=
  { bench with channels := bench.channels.modify number change }

/-- Does something with the channel of a name. -/
def withChannel (bench : FeedBench) (name : String) (action : Nat → Channel → FeedReply × FeedBench) :
    FeedReply × FeedBench :=
  match bench.names.lookup name with
  | none => (.unknownName, bench)
  | some number =>
    match bench.channels[number]? with
    | none => (.unknownName, bench)
    | some channel => action number channel

/-- Receives from the channel of a number. -/
def receiveFrom (bench : FeedBench) (number : Nat) (channel : Channel) : Received × FeedBench :=
  let (received, channel) := channel.receive
  (received, bench.updateChannel number fun _ => channel)

/-- Receives until nothing is waiting, letting the pumps run before each time. -/
def drainFrom (number : Nat) : Nat → FeedBench → List (Outcome Record) × FeedBench
  | 0, bench => ([], bench)
  | fuel + 1, bench =>
    let bench := bench.settle
    match bench.channels[number]? with
    | none => ([], bench)
    | some channel =>
      match bench.receiveFrom number channel with
      | (.item outcome, bench) =>
        let (rest, bench) := drainFrom number fuel bench
        (outcome :: rest, bench)
      | (_, bench) => ([], bench)

/-- More than a channel can still deliver: what waits in it, what its pumps have left, and its end. -/
def deliveries (bench : FeedBench) : Nat := bench.allWorkLeft + 4

/-- Does a command; the pumps do not run yet. -/
def execute (bench : FeedBench) : FeedCommand → FeedReply × FeedBench
  | .register name stream =>
    let (number, subscribers, samples) := bench.subscribers.register stream
    (.number number, { bench with
      subscribers, samples := bench.samples ++ samples,
      listeners := (name, number) :: bench.listeners })
  | .unregister number =>
    let (subscribers, samples) := bench.subscribers.unregister number
    (.nothing, { bench with subscribers, samples := bench.samples ++ samples })
  | .dispatch records =>
    let (subscribers, samples) := bench.subscribers.dispatch records
    (.nothing, { bench with subscribers, samples := bench.samples ++ samples })
  | .failAll detail =>
    (.nothing, { bench with subscribers := bench.subscribers.failAll detail })
  | .resetAll => (.nothing, { bench with subscribers := bench.subscribers.resetAll })
  | .size => (.size bench.subscribers.size, bench)
  | .take name =>
    match bench.listeners.lookup name with
    | none => (.unknownName, bench)
    | some number =>
      let (taken, subscribers) := bench.subscribers.take number
      (.taken taken, { bench with subscribers })
  | .deafen name =>
    match bench.listeners.lookup name with
    | none => (.unknownName, bench)
    | some number =>
      (.nothing, { bench with subscribers := bench.subscribers.dropListener number })
  | .channel name stream options =>
    let channel := Channel.create stream options
    (.opened channel, { bench with
      channels := bench.channels ++ [channel],
      names := (name, bench.channels.length) :: bench.names,
      samples := bench.samples ++ [Sample.subscriptionOpened] })
  | .offer name record => bench.withChannel name fun number channel =>
    let (sent, channel) := channel.offer record
    (.sent sent, bench.updateChannel number fun _ => channel)
  | .fail name error => bench.withChannel name fun number channel =>
    let (sent, channel) := channel.fail error
    (.sent sent, bench.updateChannel number fun _ => channel)
  | .inspectSink name => bench.withChannel name fun _ channel => (.sink channel.isClosed, bench)
  | .dropSink name => bench.withChannel name fun number _ =>
    (.nothing, bench.updateChannel number Channel.dropSink)
  | .pump name listener backlog => bench.withChannel name fun channel state =>
    match bench.listeners.lookup listener with
    | none => (.unknownName, bench)
    | some number =>
      (.nothing, { bench with
        pumps := bench.pumps ++ [⟨channel, Pump.create state backlog number⟩] })
  | .pumpEnded name => bench.withChannel name fun number _ =>
    match bench.pumps.reverse.find? (·.channel = number) with
    | none => (.unknownName, bench)
    | some working => (.flag working.pump.ended, bench)
  | .receive name => bench.withChannel name fun number channel =>
    let (received, bench) := bench.receiveFrom number channel
    (.received received, bench)
  | .tryReceive name => bench.withChannel name fun number channel =>
    match bench.receiveFrom number channel with
    | (.pending, bench) => (.received .closed, bench)
    | (received, bench) => (.received received, bench)
  | .drain name => bench.withChannel name fun number _ =>
    let (outcomes, bench) := drainFrom number bench.deliveries bench
    (.drained outcomes, bench)
  | .close name => bench.withChannel name fun number _ =>
    (.nothing, bench.updateChannel number Channel.close)
  | .inspect name => bench.withChannel name fun _ channel => (.subscription channel, bench)
  | .drop name => bench.withChannel name fun number _ =>
    (.nothing, bench.updateChannel number Channel.dropConsumer)
  | .metrics => (.metrics bench.samples.lines, bench)

/-- Does a command, then lets the pumps run until all wait. -/
def perform (bench : FeedBench) (command : FeedCommand) : FeedReply × FeedBench :=
  let (reply, bench) := bench.execute command
  (reply, bench.settle)

end FeedBench

end EventJournal
