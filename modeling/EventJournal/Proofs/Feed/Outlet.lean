import EventJournal.Proofs.Feed.Relay

/-!
# Subscriptions on a relay

An `Outlet` is a subscription at work on a relay: its pump and its consumer act, and in between whatever
happens on the relay.

* `Feed.dueErrors` — the errors on their way to a consumer, beside the records. `PumpMove.dueErrors`: a
  move of the pump loses none.
* `Outlet.step`, `Outlet.run` — actions, each atomic, in any order; `Outlet.history`, `Outlet.received`,
  `Outlet.errors`, what happens to the records in them and what the consumer gets.
* `Outlet.step_change` — what an action does to the feed, and what it leaves to announce.
-/

namespace EventJournal

/-! ## Errors in flight -/

/-- The error that a pump is about to deliver. -/
def Pump.heldError (pump : Pump) : List StoreError :=
  match pump.pending with
  | some (.failure error) => [error]
  | _ => []

/-- The error that a consumer finds when it receives. -/
def Channel.foundError (channel : Channel) : List StoreError :=
  match channel.receive.1 with
  | .item (.error error) => [error]
  | _ => []

namespace Feed

/-- The errors that the consumer will still receive, when the pump has this queue. -/
def dueErrors (feed : Feed) (queue : List LiveMessage) : List StoreError :=
  feed.channel.error.toList ++ feed.pump.heldError ++ queue.filterMap LiveMessage.error?

theorem dueErrors_append (feed : Feed) (queue more : List LiveMessage) :
    feed.dueErrors (queue ++ more) = feed.dueErrors queue ++ more.filterMap LiveMessage.error? := by
  rw [dueErrors, dueErrors, List.filterMap_append, List.append_assoc (_ ++ _)]

theorem dueErrors_of_drained {feed : Feed} {queue : List LiveMessage} (h : feed.Drained queue)
    (error : feed.channel.error = none) : feed.dueErrors queue = [] := by
  obtain ⟨-, hpending, -, rfl⟩ := h
  rw [dueErrors, error, Pump.heldError, hpending]
  rfl

end Feed

/-- A move of the pump of an open feed keeps the errors that are due. -/
theorem PumpMove.dueErrors {feed feed' : Feed} {subscriber subscriber' : Subscriber} {number : Nat}
    (move : PumpMove feed subscriber feed' subscriber') (h : feed.Wired number subscriber)
    (isOpen : feed.channel.isClosed = false) :
    feed'.dueErrors subscriber'.queue = feed.dueErrors subscriber.queue := by
  cases move with
  | offered active pending accepted =>
    rcases (Channel.offer_accepted accepted).2 with ⟨-, rfl⟩ | ⟨-, -, rfl⟩
    · rw [Feed.dueErrors, Feed.dueErrors, Pump.heldError, Pump.heldError, pending]
    · rw [Feed.dueErrors, Feed.dueErrors, Pump.heldError, Pump.heldError, pending]
  | failed active pending accepted =>
    obtain ⟨-, hnone, rfl⟩ := Channel.fail_accepted accepted
    rw [Feed.dueErrors, Feed.dueErrors, Pump.heldError, Pump.heldError, pending, hnone]
    rfl
  | tookUp active pending backlog =>
    rw [Feed.dueErrors, Feed.dueErrors, Pump.heldError, Pump.heldError, pending]
    rfl
  | @heard message rest active pending backlog queue =>
    have hheld : feed.pump.heldError = [] := by rw [Pump.heldError, pending]
    rw [Feed.dueErrors, Feed.dueErrors, hheld, queue]
    cases message with
    | record record =>
      have hkept : (feed.pump.receive (.record record)).heldError = [] := by
        rw [Pump.receive]
        split
        · exact hheld
        · rfl
      rw [hkept]
      rfl
    | failed detail =>
      show feed.channel.error.toList ++ [.notification detail] ++ _ = _
      rw [List.append_assoc, List.append_nil]
      rfl
    | reset =>
      have hkept : (feed.pump.receive .reset).heldError = [] := hheld
      rw [hkept]
      rfl
  | finished active because =>
    -- neither reason to end applies to an open subscription
    rcases because with hclosed | hgone
    · rw [hclosed] at isOpen
      cases isOpen
    · rw [h.registered, active] at hgone
      cases hgone

/-- As long as its producer is there, a consumer that receives is handed the error that waits. -/
theorem Channel.foundError_append_error {channel : Channel} (sink : channel.sinkGone = false) :
    channel.foundError ++ channel.receive.2.error.toList = channel.error.toList := by
  unfold foundError receive
  split <;> rename_i h <;> split at h <;> grind

/-- What closes a channel hands nothing over, as long as its producer is there. -/
theorem Channel.found_of_closed {channel : Channel} (agreed : channel.Agreed)
    (sink : channel.isClosed = false → channel.sinkGone = false)
    (closed : channel.receive.2.isClosed = true) : channel.found = [] ∧ channel.foundError = [] := by
  cases hclosed : channel.isClosed with
  | true =>
    have hreceive := Channel.receive_of_closed (agreed hclosed)
    rw [found, foundError, hreceive]
    exact ⟨rfl, rfl⟩
  | false =>
    exfalso
    have hsink := sink hclosed
    have hunclosed : channel.closed = false := (Bool.or_eq_false_iff.mp hclosed).1
    have hkept : channel.receive.2.isClosed = channel.isClosed := by
      unfold receive
      rw [if_neg (by rw [hunclosed]; exact Bool.false_ne_true)]
      split
      · rfl
      · rfl
      · rw [hsink, if_neg Bool.false_ne_true]
    rw [hkept, hclosed] at closed
    cases closed

/-! ## Outlets -/

/-- A subscription at work on a relay. -/
structure Outlet where
  relay : Relay
  feed : Feed
  deriving Repr, DecidableEq, Inhabited

/-- A subscription gets to work: what it starts with is read, and its pump takes over the queue that was
registered for it under a number. -/
def Relay.outlet (relay : Relay) (number : Nat) (stream : StreamId) (options : SubscribeOptions) :
    Outlet :=
  let channel := Channel.create stream options
  ⟨relay, channel, Pump.create channel (relay.backlog stream options) number⟩

namespace Outlet

/-- What can happen to a subscription on a relay. -/
inductive Action where
  | relay (action : Relay.Action)
  /-- The pump makes a step. -/
  | pump
  /-- The consumer receives, if something is waiting. -/
  | receive
  | close
  | drop
  deriving Repr, DecidableEq, Inhabited

/-- The failures that an action announces. -/
def Action.failures : Action → List StoreError
  | .relay action => action.failures
  | _ => []

/-- Whether an action only carries on what is under way. -/
def Action.carriesOn : Action → Bool
  | .relay (.announce _) => true
  | .pump => true
  | .receive => true
  | _ => false

/-- The pump with what it works on. -/
def view (outlet : Outlet) : PumpView :=
  ⟨outlet.feed.pump, outlet.feed.channel, outlet.relay.subscribers⟩

/-- Changes the channel. -/
def updateChannel (outlet : Outlet) (change : Channel → Channel) : Outlet :=
  { outlet with feed := { outlet.feed with channel := change outlet.feed.channel } }

/-- The outlet after an action. -/
def step (outlet : Outlet) : Action → Outlet
  | .relay action => { outlet with relay := outlet.relay.step outlet.feed.pump.number action }
  | .pump =>
    match outlet.view.step with
    | none => outlet
    | some (view, _) =>
      ⟨{ outlet.relay with subscribers := view.subscribers }, view.channel, view.pump⟩
  | .receive => outlet.updateChannel (·.receive.2)
  | .close => outlet.updateChannel Channel.close
  | .drop => outlet.updateChannel Channel.dropConsumer

/-- What happens to the records in an action. -/
def news (outlet : Outlet) : Action → List LiveMessage
  | .relay action => outlet.relay.news action
  | _ => []

/-- The record that the consumer receives in an action. -/
def handed (outlet : Outlet) : Action → List Record
  | .receive => outlet.feed.channel.found
  | _ => []

/-- The error that the consumer receives in an action. -/
def handedError (outlet : Outlet) : Action → List StoreError
  | .receive => outlet.feed.channel.foundError
  | _ => []

/-- The outlet after a list of actions. -/
def run (outlet : Outlet) : List Action → Outlet
  | [] => outlet
  | action :: rest => (outlet.step action).run rest

/-- What can be seen in each of a list of actions, in order. -/
def collect {α : Type} (seen : Outlet → Action → List α) (outlet : Outlet) : List Action → List α
  | [] => []
  | action :: rest => seen outlet action ++ (outlet.step action).collect seen rest

/-- What happens to the records in a list of actions, in order. -/
def history (outlet : Outlet) (actions : List Action) : List LiveMessage := outlet.collect news actions

/-- The records that the consumer receives in a list of actions, in order. -/
def received (outlet : Outlet) (actions : List Action) : List Record := outlet.collect handed actions

/-- The errors that the consumer receives in a list of actions, in order. -/
def errors (outlet : Outlet) (actions : List Action) : List StoreError :=
  outlet.collect handedError actions

/-- An open subscription where nothing is under way: all is announced, the pump can make no step, and
the channel is empty. -/
structure Idle (outlet : Outlet) : Prop where
  isOpen : outlet.feed.channel.isClosed = false
  announced : outlet.relay.unannounced = []
  waits : outlet.view.step = none
  record : outlet.feed.channel.record = none
  error : outlet.feed.channel.error = none

theorem collect_append {α : Type} (seen : Outlet → Action → List α) (outlet : Outlet)
    (earlier later : List Action) :
    outlet.collect seen (earlier ++ later)
      = outlet.collect seen earlier ++ (outlet.run earlier).collect seen later := by
  induction earlier generalizing outlet with
  | nil => rfl
  | cons action rest ih =>
    rw [List.cons_append, collect, collect, ih, List.append_assoc]
    rfl

/-- While only the relay acts, the feed stands still and nothing is received. -/
theorem run_relay (outlet : Outlet) (actions : List Relay.Action) :
    outlet.run (actions.map .relay)
        = { outlet with relay := outlet.relay.run outlet.feed.pump.number actions } ∧
      outlet.history (actions.map .relay)
        = outlet.relay.history outlet.feed.pump.number actions ∧
      outlet.received (actions.map .relay) = [] ∧ outlet.errors (actions.map .relay) = [] := by
  induction actions generalizing outlet with
  | nil => exact ⟨rfl, rfl, rfl, rfl⟩
  | cons action rest ih =>
    obtain ⟨hrun, hhistory, hreceived, herrors⟩ := ih (outlet.step (.relay action))
    exact ⟨hrun, congrArg (outlet.relay.news action ++ ·) hhistory, hreceived, herrors⟩

/-! ## What an action does -/

/-- The pump of an outlet is registered under its number, and its entry agrees with it. -/
structure Attached (outlet : Outlet) (subscriber : Subscriber) : Prop where
  entry : outlet.relay.subscribers.table[outlet.feed.pump.number]? = some subscriber
  wired : outlet.feed.Wired outlet.feed.pump.number subscriber

variable {outlet : Outlet} {subscriber : Subscriber}

theorem Attached.updateChannel (h : outlet.Attached subscriber) {change : Channel → Channel}
    (later : outlet.feed.channel.Later (change outlet.feed.channel)) :
    (outlet.updateChannel change).Attached subscriber :=
  ⟨h.entry, h.wired.later later⟩

/-- What is announced in the end of an action. -/
theorem announced_step (outlet : Outlet) (action : Action) :
    Announced outlet.relay.next (outlet.step action).relay.next (outlet.news action) := by
  have hnone : Announced outlet.relay.next outlet.relay.next [] :=
    .appended (Int.le_refl _) .nil (List.forall_mem_nil _) (List.forall_mem_nil _)
  cases action with
  | relay action => exact outlet.relay.announced_step outlet.feed.pump.number action
  | pump =>
    show Announced _ (outlet.step .pump).relay.next []
    rw [step]
    split <;> exact hnone
  | receive => exact hnone
  | close => exact hnone
  | drop => exact hnone

theorem first_step (h : 1 ≤ outlet.relay.next.toInt) (action : Action) :
    1 ≤ (outlet.step action).relay.next.toInt := by
  cases action with
  | relay action => exact outlet.relay.first_step h outlet.feed.pump.number action
  | pump =>
    rw [step]
    split <;> exact h
  | receive => exact h
  | close => exact h
  | drop => exact h

/-- The pump of an outlet waits, or moves on its own feed and its own entry. -/
theorem step_pump (h : outlet.Attached subscriber) :
    outlet.view.step = none ∧ outlet.step .pump = outlet ∨
      ∃ subscriber', PumpMove outlet.feed subscriber (outlet.step .pump).feed subscriber' ∧
        (outlet.step .pump).Attached subscriber' ∧
        (outlet.step .pump).relay.unannounced = outlet.relay.unannounced := by
  cases hstep : outlet.view.step with
  | none =>
    refine .inl ⟨rfl, ?_⟩
    rw [step, hstep]
  | some after =>
    obtain ⟨view, samples⟩ := after
    obtain ⟨feed', subscriber', move, rfl⟩ := PumpView.step_cases h.entry hstep
    have hwired := move.wired h.wired
    rw [step, hstep]
    refine .inr ⟨subscriber', move, ⟨?_, ?_⟩, rfl⟩
    · show (outlet.relay.subscribers.table.set _ subscriber')[feed'.pump.number]? = _
      rw [hwired.number]
      exact List.getElem?_set_self (List.getElem?_eq_some_iff.mp h.entry).1
    · show feed'.Wired feed'.pump.number subscriber'
      rw [hwired.number]
      exact hwired

/-- **What an action does**: the feed is told something of what was left to announce and of the news, its
pump moves, its consumer receives, or it is shut. While it is open it gets the errors that were due. -/
theorem step_change (h : outlet.Attached subscriber) (action : Action) :
    ∃ subscriber' told, (outlet.step action).Attached subscriber' ∧
      Feed.Change outlet.feed subscriber told (outlet.handed action) (outlet.step action).feed
        subscriber' ∧
      tidings (told ++ (outlet.step action).relay.unannounced)
        = tidings (outlet.relay.unannounced ++ outlet.news action) ∧
      ((outlet.step action).feed.channel.isClosed = false →
        outlet.handedError action ++ (outlet.step action).feed.dueErrors subscriber'.queue
          = outlet.feed.dueErrors subscriber.queue ++ action.failures) := by
  have hnone : tidings ([] ++ outlet.relay.unannounced)
      = tidings (outlet.relay.unannounced ++ []) := by
    rw [List.append_nil, List.nil_append]
  cases action with
  | relay action =>
    have hlistening := h.wired.listening.trans h.wired.registered.symm
    obtain ⟨told, hentry, herrors, htidings⟩ := outlet.relay.entry_step h.entry hlistening action
    refine ⟨subscriber.tell told, told, ⟨hentry, h.wired.tell told⟩, .told told, htidings,
      fun isOpen => ?_⟩
    have hregistered : subscriber.registered = true := by
      rw [h.wired.registered, h.wired.active isOpen]
      rfl
    rw [Subscriber.tell, if_pos hregistered]
    show outlet.feed.dueErrors (_ ++ _) = _
    rw [Feed.dueErrors_append, Relay.failures_concerned, herrors]
    rfl
  | pump =>
    show ∃ subscriber' told, (outlet.step .pump).Attached subscriber' ∧
      Feed.Change outlet.feed subscriber told [] (outlet.step .pump).feed subscriber' ∧
      tidings (told ++ (outlet.step .pump).relay.unannounced)
        = tidings (outlet.relay.unannounced ++ []) ∧
      ((outlet.step .pump).feed.channel.isClosed = false →
        (outlet.step .pump).feed.dueErrors subscriber'.queue
          = outlet.feed.dueErrors subscriber.queue ++ [])
    rw [List.append_nil (outlet.feed.dueErrors _)]
    rcases step_pump h with ⟨-, hsame⟩ | ⟨subscriber', move, hattached, hleft⟩
    · rw [hsame]
      exact ⟨subscriber, [], h, .none _ _, hnone, fun _ => rfl⟩
    · refine ⟨subscriber', [], hattached, .moved move, ?_, fun isOpen => ?_⟩
      · rw [hleft]
        exact hnone
      · exact move.dueErrors h.wired (move.channel_frame.2.2 ▸ isOpen)
  | receive =>
    have hlater := outlet.feed.channel.later_receive
    have hattached : (outlet.step .receive).Attached subscriber :=
      @Attached.updateChannel outlet subscriber h (·.receive.2) hlater
    refine ⟨subscriber, [], hattached, .received, hnone, fun isOpen => ?_⟩
    have hopen : outlet.feed.channel.isClosed = false := hlater.isOpen isOpen
    have hsink : outlet.feed.channel.sinkGone = false :=
      h.wired.sink.trans (h.wired.active hopen)
    show _ ++ (_ ++ _ ++ _) = _ ++ []
    rw [← List.append_assoc, ← List.append_assoc]
    show outlet.feed.channel.foundError ++ outlet.feed.channel.receive.2.error.toList ++ _ ++ _ = _
    rw [Channel.foundError_append_error hsink, List.append_nil]
    rfl
  | close =>
    refine ⟨subscriber, [], h.updateChannel outlet.feed.channel.later_close, .shut rfl, hnone,
      fun isOpen => ?_⟩
    exact (Bool.false_ne_true isOpen.symm).elim
  | drop =>
    refine ⟨subscriber, [], h.updateChannel outlet.feed.channel.later_dropConsumer, .shut rfl, hnone,
      fun isOpen => ?_⟩
    exact (Bool.false_ne_true isOpen.symm).elim

end Outlet

end EventJournal
