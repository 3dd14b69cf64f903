import EventJournal.Feed.Channel
import EventJournal.LogServer.Adapter

/-!
# Pollers

A poller feeds a channel from a log server: it reads what lies beyond its cursor, delivers it record by
record, moves the cursor along, filtered records included, and rests until the next poll is due. A
failed read is delivered as an error and moves nothing. A subscription to new records only starts from
the position of the last record the first read finds; if that read fails, its error is the last thing
delivered.

A poller is a machine of small steps; a step gives nothing when the poller has ended or waits, for a
place in the channel or for the clock.
-/

namespace EventJournal

/-- What a poller is doing. -/
inductive PollPhase where
  /-- It is about to find out where the stream ends. -/
  | locating
  /-- It is about to deliver the failure of that, and end. -/
  | givingUp (error : StoreError)
  /-- It is about to read beyond a cursor. -/
  | reading (cursor : Position)
  /-- It is about to deliver records. -/
  | delivering (cursor : Position) (records : List Record)
  /-- It is about to deliver the failure of a read. -/
  | failing (cursor : Position) (error : StoreError)
  /-- It rests until a moment of the clock. -/
  | resting (cursor : Position) (due : Nat)
  | ended
  deriving Repr, DecidableEq, Inhabited

/-- A poller with the channel it feeds. -/
structure Poller where
  phase : PollPhase
  channel : Channel
  deriving Repr, DecidableEq, Inhabited

namespace Poller

/-- A poller for a channel. -/
def create (channel : Channel) : Poller :=
  if channel.options.position.isLast then ⟨.locating, channel⟩
  else ⟨.reading channel.options.position, channel⟩

/-- The poller ends. -/
def finish (poller : Poller) : Poller := ⟨.ended, poller.channel.dropSink⟩

/-- One step of a poller at a moment of the clock, which counts poll intervals; nothing when it ended
or waits. -/
def step (client : LogClient σ) (now : Nat) (poller : Poller) (state : σ) : Option (Poller × σ) :=
  let stream := poller.channel.stream
  match poller.phase with
  | .ended => none
  | .locating =>
    match LogServer.headPosition client stream state with
    | (.ok position, state) => some ({ poller with phase := .reading position }, state)
    | (.error error, state) => some ({ poller with phase := .givingUp error }, state)
  | .givingUp error =>
    match poller.channel.fail error with
    | (.accepted, channel) => some (finish { poller with channel }, state)
    | (.refused, _) => some (poller.finish, state)
    | (.blocked, _) => none
  | .reading cursor =>
    match LogServer.readRecords client stream (.forward cursor) state with
    | (.ok records, state) =>
      some ({ poller with phase := .delivering cursor (records.getD []) }, state)
    | (.error error, state) => some ({ poller with phase := .failing cursor error }, state)
  | .delivering cursor [] => some ({ poller with phase := .resting cursor (now + 1) }, state)
  | .delivering _ (record :: rest) =>
    match poller.channel.offer record with
    | (.accepted, channel) => some (⟨.delivering (record.positionIn stream) rest, channel⟩, state)
    | (.refused, _) => some (poller.finish, state)
    | (.blocked, _) => none
  | .failing cursor error =>
    match poller.channel.fail error with
    | (.accepted, channel) => some (⟨.resting cursor (now + 1), channel⟩, state)
    | (.refused, _) => some (poller.finish, state)
    | (.blocked, _) => none
  | .resting cursor due =>
    if poller.channel.isClosed then some (poller.finish, state)
    else if due ≤ now then some ({ poller with phase := .reading cursor }, state)
    else none

end Poller

end EventJournal
