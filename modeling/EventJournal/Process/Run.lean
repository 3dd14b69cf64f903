import EventJournal.Process.Pass
import EventJournal.Feed.Channel

/-!
# Live runs

A live run makes a pass, waits for a record to arrive on its subscription, drains what else waits
there and makes the next pass. A record on the subscription is a wake-up only: the pass reads from the
checkpoint, so one pass serves all wake-ups drained before it.

The subscription is opened before the first pass, for new records only, so that nothing appended
during the pass is missed. A run ends well when it is cancelled or its subscription is closed, and with
an error when a pass fails or the subscription delivers one. An ended run closes its subscription.

A run is a machine of small steps, as is a pass; a step gives nothing when the run has ended or waits.
-/

namespace EventJournal

/-- What a run is doing. -/
inductive RunPhase where
  | passing (phase : PassPhase)
  /-- Waiting for a wake-up. -/
  | waiting
  /-- Taking the wake-ups that are there already. -/
  | draining
  | ended (outcome : Outcome Unit)
  deriving Inhabited

/-- A run with its subscription and what it works on. -/
structure RunView (σ κ η : Type) where
  phase : RunPhase
  cancelled : Bool
  channel : Channel
  place : Workplace σ κ η

/-- The options of a run's subscription: new records of the types it processes. -/
def ProcessorConfig.wakeUps (config : ProcessorConfig) : SubscribeOptions := ⟨.last, config.filter⟩

namespace RunView

variable {σ κ η : Type}

/-- The first phase of a run. -/
def begin : RunPhase := .passing .loading

/-- The run ends and leaves its subscription. -/
def finish (view : RunView σ κ η) (outcome : Outcome Unit) : RunView σ κ η :=
  { view with phase := .ended outcome, channel := view.channel.dropConsumer }

/-- The run after a step of its pass: a pass that ended well is followed by waiting. -/
def afterPass (view : RunView σ κ η) (pass : PassView σ κ η) : RunView σ κ η :=
  let view := { view with place := pass.place }
  match pass.phase with
  | .ended (.ok _) => { view with phase := .waiting }
  | .ended (.error error) => view.finish (.error error)
  | phase => { view with phase := .passing phase }

end RunView

/-- One step of a run; nothing when it ended or waits. -/
def Processor.runStep (processor : Processor σ κ η) (view : RunView σ κ η) :
    Option (RunView σ κ η × MetricLog) :=
  match view.phase with
  | .ended _ => none
  | .passing phase =>
    if view.cancelled then some (view.finish (.ok ()), [])
    else (processor.passStep ⟨phase, view.place⟩).map fun (pass, samples) =>
      (view.afterPass pass, samples)
  | .waiting =>
    if view.cancelled then some (view.finish (.ok ()), [])
    else match view.channel.receive with
      | (.item (.ok _), channel) => some ({ view with phase := .draining, channel }, [])
      | (.item (.error error), channel) => some ({ view with channel }.finish (.error error), [])
      | (.closed, _) => some (view.finish (.ok ()), [])
      | (.pending, _) => none
  | .draining =>
    match view.channel.tryReceive with
    | (some (.ok _), channel) => some ({ view with channel }, [])
    | (some (.error error), channel) => some ({ view with channel }.finish (.error error), [])
    | (none, channel) => some ({ view with phase := RunView.begin, channel }, [])

end EventJournal
