import EventJournal.Feed.Poller
import EventJournal.LogServer.Adapter
import EventJournal.Store.ClosedPool
import EventJournal.Store.Memory

/-!
# Backends

A backend is a kind of store together with the way it feeds subscriptions: the store in memory has
pumps, a log server is polled. `Backend.feed` makes one step of what feeds one channel.
-/

namespace EventJournal

/-- What feeds a channel. -/
inductive Feeder where
  | pump (pump : Pump)
  | poller (phase : PollPhase)
  deriving Repr, DecidableEq, Inhabited

/-- A feeder with its channel and the state of the backend. -/
structure FeedView (σ : Type) where
  feeder : Feeder
  channel : Channel
  state : σ

/-- A kind of store with subscriptions, over a state `σ`. -/
structure Backend (σ : Type) where
  /-- The store at a moment, with an id for the next marker. -/
  store : Timestamp → EventId → Store σ
  subscribe : StreamId → SubscribeOptions → σ → Answer σ (Channel × Feeder)
  /-- One step of a feeder at a moment of the clock; nothing when it ended or waits. -/
  feed : Nat → FeedView σ → Option (FeedView σ × MetricLog)
  /-- How many records there are, if that is known. -/
  size? : σ → Option Nat

namespace Backend

/-- The store in memory. -/
def memory : Backend MemoryStore where
  store := MemoryStore.store
  subscribe stream options store :=
    let (store, channel, pump, samples) := store.subscribe stream options
    ⟨.ok (channel, .pump pump), store, samples⟩
  feed _ view :=
    match view.feeder with
    | .poller _ => none
    | .pump pump =>
      let before : PumpView := ⟨pump, view.channel, view.state.subscribers⟩
      before.step.map fun (after, samples) =>
        (⟨.pump after.pump, after.channel, { view.state with subscribers := after.subscribers }⟩,
          samples)
  size? store := some store.records.length

/-- A log server. -/
def logServer (client : LogClient σ) : Backend σ where
  store _ fresh := LogServer.store client fresh
  subscribe stream options state :=
    let channel := Channel.create stream options
    ⟨.ok (channel, .poller (Poller.create channel).phase), state, [Sample.subscriptionOpened]⟩
  feed now view :=
    match view.feeder with
    | .pump _ => none
    | .poller phase =>
      (Poller.step client now ⟨phase, view.channel⟩ view.state).map fun (poller, state) =>
        (⟨.poller poller.phase, poller.channel, state⟩, [])
  size? _ := none

/-- A relational store whose pool of connections is closed. -/
def closedPool : Backend σ where
  store _ _ := ClosedPool.store
  subscribe stream _ := ClosedPool.refuse "subscribe_to_stream" stream
  feed _ _ := none
  size? _ := none

end Backend

end EventJournal
