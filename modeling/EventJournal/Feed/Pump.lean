import EventJournal.Feed.Channel
import EventJournal.Feed.Subscribers

/-!
# Pumps

A pump feeds a channel: first the records stored when the subscription was opened, then what its queue
brings. It skips live records that the backlog covered already, and those at or before the position
where the subscription starts, until news of a clear arrives; after that every record is new.

A pump is a machine of small steps. `Pump.step` makes one step; it gives nothing when the pump has
ended or waits, for a place in the channel or for a message.
-/

namespace EventJournal

/-- What a pump is about to deliver. -/
inductive Delivery where
  | record (record : Record)
  | failure (error : StoreError)
  deriving Repr, DecidableEq, Inhabited

/-- The state of a pump. -/
structure Pump where
  /-- The number of its registration. -/
  number : Nat
  stream : StreamId
  /-- Live records at or before this position are old, unless it is the last one. -/
  start : Position
  /-- The sequence number of the record delivered last. -/
  delivered : Option SequenceNumber
  /-- Records of the backlog not delivered yet. -/
  backlog : List Record
  /-- What waits for a place in the channel. -/
  pending : Option Delivery
  ended : Bool
  deriving Repr, DecidableEq, Inhabited

/-- A pump with the channel it feeds and the subscribers it is one of. -/
structure PumpView where
  pump : Pump
  channel : Channel
  subscribers : Subscribers

namespace Pump

/-- A pump for a channel. -/
def create (channel : Channel) (backlog : List Record) (number : Nat) : Pump :=
  ⟨number, channel.stream, channel.options.position, none, backlog, none, false⟩

/-- Whether a live record was delivered already or lies before the start. -/
def isOld (pump : Pump) (record : Record) : Bool :=
  pump.delivered.any (fun sequence => record.sequence ≤ sequence) ||
    (!pump.start.isLast && record.positionIn pump.stream ≤ pump.start)

/-- Takes up a record for delivery. -/
def takeUp (pump : Pump) (record : Record) : Pump :=
  { pump with delivered := some record.sequence, pending := some (.record record) }

/-- What a pump does with a message. -/
def receive (pump : Pump) : LiveMessage → Pump
  | .record record => if pump.isOld record then pump else pump.takeUp record
  | .failed detail => { pump with pending := some (.failure (.notification detail)) }
  | .reset => { pump with delivered := none, start := .start }

end Pump

namespace PumpView

/-- The pump ends: it leaves the subscribers and lets go of its queue and its channel. -/
def finish (view : PumpView) : PumpView × MetricLog :=
  let (subscribers, samples) := view.subscribers.unregister view.pump.number
  ({ pump := { view.pump with ended := true, pending := none },
     channel := view.channel.dropSink,
     subscribers := subscribers.dropListener view.pump.number }, samples)

/-- Hands a delivery to the channel. -/
def send (view : PumpView) : Delivery → Sent × Channel
  | .record record => view.channel.offer record
  | .failure error => view.channel.fail error

/-- One step of a pump; nothing when it ended or waits. -/
def step (view : PumpView) : Option (PumpView × MetricLog) :=
  if view.pump.ended then none
  else match view.pump.pending with
    | some delivery =>
      match view.send delivery with
      | (.accepted, channel) =>
        some ({ view with channel, pump := { view.pump with pending := none } }, [])
      | (.refused, _) => some view.finish
      | (.blocked, _) => none
    | none =>
      match view.pump.backlog with
      | record :: rest =>
        some ({ view with pump := { view.pump with backlog := rest }.takeUp record }, [])
      | [] =>
        if view.channel.isClosed then some view.finish
        else match view.subscribers.take view.pump.number with
          | (.message message, subscribers) =>
            some ({ view with subscribers, pump := view.pump.receive message }, [])
          | (.disconnected, _) => some view.finish
          | (.empty, _) => none

end PumpView

end EventJournal
