import EventJournal.Event.Options
import EventJournal.Error.Basic
import EventJournal.Text.Quoted

/-!
# The channel of a subscription

A channel joins a producer, the sink, with a consumer, the subscription. It holds one record and one
error at most; a producer waits while the place it needs is taken. Errors are received first.

The consumer closes the channel by closing the subscription or by dropping it; after that nothing is
delivered. When the sink is gone and all is received, the consumer learns once that the subscription
closed.

Main statements: `receive_of_closed`, `offer_of_closed`, `fail_of_closed`: a closed channel gives and
takes nothing.
-/

namespace EventJournal

/-- The state of a channel. -/
structure Channel where
  stream : StreamId
  options : SubscribeOptions
  /-- The record waiting for the consumer. -/
  record : Option Record
  /-- The error waiting for the consumer. -/
  error : Option StoreError
  closed : Bool
  sinkGone : Bool
  consumerGone : Bool
  deriving Repr, DecidableEq, Inhabited

/-- What became of an attempt to deliver. -/
inductive Sent where
  /-- It is delivered, or skipped by the filter. -/
  | accepted
  /-- The subscription is closed. -/
  | refused
  /-- The place is taken; nothing happened. -/
  | blocked
  deriving Repr, DecidableEq, Inhabited

/-- What an attempt to receive gives. -/
inductive Received where
  | item (outcome : Outcome Record)
  /-- Nothing any more. -/
  | closed
  /-- Nothing yet. -/
  | pending

namespace Channel

/-- A fresh channel. -/
def create (stream : StreamId) (options : SubscribeOptions) : Channel :=
  ⟨stream, options, none, none, false, false, false⟩

/-! ## The sink -/

/-- Whether the producer may stop. -/
def isClosed (channel : Channel) : Bool := channel.closed || channel.consumerGone

/-- Delivers a record; one the filter rejects is skipped. -/
def offer (channel : Channel) (record : Record) : Sent × Channel :=
  if channel.isClosed then (.refused, channel)
  else if !channel.options.admitsType record.typeName then (.accepted, channel)
  else match channel.record with
    | some _ => (.blocked, channel)
    | none => (.accepted, { channel with record := some record })

/-- Delivers an error. -/
def fail (channel : Channel) (error : StoreError) : Sent × Channel :=
  if channel.isClosed then (.refused, channel)
  else match channel.error with
    | some _ => (.blocked, channel)
    | none => (.accepted, { channel with error := some error })

/-- The producer goes away. -/
def dropSink (channel : Channel) : Channel := { channel with sinkGone := true }

/-! ## The subscription -/

/-- Receives the next error or record. -/
def receive (channel : Channel) : Received × Channel :=
  if channel.closed then (.closed, channel)
  else match channel.error, channel.record with
    | some error, _ => (.item (.error error), { channel with error := none })
    | none, some record => (.item (.ok record), { channel with record := none })
    | none, none =>
      if channel.sinkGone then
        (.item (.error (.subscriptionClosed channel.stream)), { channel with closed := true })
      else (.pending, channel)

/-- Receives what is waiting already. -/
def tryReceive (channel : Channel) : Option (Outcome Record) × Channel :=
  match channel.receive with
  | (.item outcome, after) => (some outcome, after)
  | (_, after) => (none, after)

/-- Closes the subscription. -/
def close (channel : Channel) : Channel := { channel with closed := true }

/-- The consumer goes away, and with it what was waiting. -/
def dropConsumer (channel : Channel) : Channel :=
  { channel with closed := true, consumerGone := true, record := none, error := none }

/-- The subscription as diagnostics show it. -/
def debugText (channel : Channel) : String :=
  "Subscription \x7b stream_id: StreamId(" ++ Text.quoted channel.stream.name ++ "), closed: " ++
    toString channel.closed ++ " \x7d"

/-! ## A closed channel -/

theorem receive_of_closed {channel : Channel} (h : channel.closed = true) :
    channel.receive = (.closed, channel) := by
  simp [receive, h]

theorem tryReceive_of_closed {channel : Channel} (h : channel.closed = true) :
    channel.tryReceive = (none, channel) := by
  simp [tryReceive, receive_of_closed h]

theorem offer_of_closed {channel : Channel} (h : channel.closed = true) (record : Record) :
    channel.offer record = (.refused, channel) := by
  simp [offer, isClosed, h]

theorem fail_of_closed {channel : Channel} (h : channel.closed = true) (error : StoreError) :
    channel.fail error = (.refused, channel) := by
  simp [fail, isClosed, h]

end Channel

end EventJournal
