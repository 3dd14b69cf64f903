import EventJournal.Store.Basic

/-!
# Live subscribers

A store passes what it appends to its subscribers, each of whom has a queue without bound. A
subscriber of the global stream gets every record, any other the records of its stream. A subscriber
is known by its place in the table and keeps it; one that left is marked so.

* `dispatch` queues fresh records, `failAll` a failure of the change feed, `resetAll` the news that
  the store was cleared and numbering starts anew.
* A subscriber that no longer listens is found out by the next record meant for it, and removed.

Main statements: `queueOf_dispatch`, what dispatch adds to a listening subscriber's queue.
-/

namespace EventJournal

/-- News from a store to a subscriber. -/
inductive LiveMessage where
  | record (record : Record)
  /-- The change feed failed and carries on. -/
  | failed (detail : String)
  /-- The store was cleared; forget what was delivered. -/
  | reset
  deriving Repr, DecidableEq, Inhabited

/-- A subscriber's place. -/
structure Subscriber where
  stream : StreamId
  /-- Messages not taken yet, the oldest first. -/
  queue : List LiveMessage
  registered : Bool
  listening : Bool
  deriving Repr, DecidableEq, Inhabited

namespace Subscriber

/-- Queues messages for a subscriber that is registered and listens. -/
def push (subscriber : Subscriber) (messages : List LiveMessage) : Subscriber :=
  if subscriber.registered && subscriber.listening then
    { subscriber with queue := subscriber.queue ++ messages }
  else subscriber

/-- The records a subscriber is meant to get. -/
def wanted (subscriber : Subscriber) (records : List Record) : List Record :=
  records.filter subscriber.stream.concerns

/-- Queues the records a subscriber is meant to get, or removes it if it no longer listens. -/
def deliver (subscriber : Subscriber) (records : List Record) : Subscriber :=
  if subscriber.registered && !subscriber.listening && !(subscriber.wanted records).isEmpty then
    { subscriber with registered := false }
  else subscriber.push ((subscriber.wanted records).map .record)

end Subscriber

/-- The subscribers of a store, by the number of their registration. -/
structure Subscribers where
  table : List Subscriber
  deriving Repr, DecidableEq, Inhabited

namespace Subscribers

/-- No subscriber yet. -/
def empty : Subscribers := ⟨[]⟩

/-- How many are registered. -/
def size (subscribers : Subscribers) : Nat := subscribers.table.countP (·.registered)

/-- The gauge of registered subscribers. -/
def gauge (subscribers : Subscribers) : Sample := .activeSubscriptions subscribers.size

/-- Registers a subscriber; its number is the next one. -/
def register (subscribers : Subscribers) (stream : StreamId) : Nat × Subscribers × MetricLog :=
  let after : Subscribers := ⟨subscribers.table ++ [⟨stream, [], true, true⟩]⟩
  (subscribers.table.length, after, [after.gauge])

/-- Whether a number is registered. -/
def isRegistered (subscribers : Subscribers) (number : Nat) : Bool :=
  (subscribers.table[number]?).any (·.registered)

/-- Removes a registration; the subscriber may still take what is queued. -/
def unregister (subscribers : Subscribers) (number : Nat) : Subscribers × MetricLog :=
  if subscribers.isRegistered number then
    let after : Subscribers :=
      ⟨subscribers.table.modify number fun subscriber => { subscriber with registered := false }⟩
    (after, [after.gauge])
  else (subscribers, [])

/-- Queues fresh records for every subscriber meant to get them. -/
def dispatch (subscribers : Subscribers) (records : List Record) : Subscribers × MetricLog :=
  let after : Subscribers := ⟨subscribers.table.map (·.deliver records)⟩
  (after, if after.size = subscribers.size then [] else [after.gauge])

/-- Tells every subscriber that the change feed failed. -/
def failAll (subscribers : Subscribers) (detail : String) : Subscribers :=
  ⟨subscribers.table.map (·.push [.failed detail])⟩

/-- Tells every subscriber that the store was cleared. -/
def resetAll (subscribers : Subscribers) : Subscribers :=
  ⟨subscribers.table.map (·.push [.reset])⟩

/-- What a subscriber finds in its queue. -/
inductive Taken where
  | message (message : LiveMessage)
  /-- Nothing yet. -/
  | empty
  /-- Nothing, and nothing will come. -/
  | disconnected

/-- Takes the oldest message of a subscriber. -/
def take (subscribers : Subscribers) (number : Nat) : Taken × Subscribers :=
  match subscribers.table[number]? with
  | none => (.disconnected, subscribers)
  | some subscriber =>
    match subscriber.queue with
    | message :: rest =>
      (.message message,
        ⟨subscribers.table.modify number fun subscriber => { subscriber with queue := rest }⟩)
    | [] => (if subscriber.registered then .empty else .disconnected, subscribers)

/-- A subscriber stops listening; what is queued for it is lost. -/
def dropListener (subscribers : Subscribers) (number : Nat) : Subscribers :=
  ⟨subscribers.table.modify number fun subscriber =>
    { subscriber with listening := false, queue := [] }⟩

/-- The messages queued for a subscriber. -/
def queueOf (subscribers : Subscribers) (number : Nat) : List LiveMessage :=
  (subscribers.table[number]?).elim [] (·.queue)

theorem queueOf_dispatch (subscribers : Subscribers) (records : List Record) {number : Nat}
    {subscriber : Subscriber} (h : subscribers.table[number]? = some subscriber)
    (registered : subscriber.registered = true) (listening : subscriber.listening = true) :
    (subscribers.dispatch records).1.queueOf number =
      subscriber.queue ++ (subscriber.wanted records).map .record := by
  simp [dispatch, queueOf, h, Subscriber.deliver, Subscriber.push, registered, listening]

end Subscribers

end EventJournal
