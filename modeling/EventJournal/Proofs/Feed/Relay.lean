import EventJournal.Proofs.Feed.Delivery

/-!
# Stores that announce later

A store can keep its records in one place and announce them from another: a listener learns some time
after a write what was written, and tells the subscribers then. Such a store cannot register a subscriber
and read its backlog in one step. It registers the subscriber first, so that nothing is missed, and the
queue then holds records that the backlog has too.

`Relay` is such a store with its subscribers, around one of them. Writers append, remove and clear; the
listener announces in the order of the writes, or fails; other subscribers come, go and take from their
queues. What was written and is not announced yet is part of the state, so that the listener may lag
behind by any number of records.

* `Relay.step`, `Relay.run` — actions around a subscriber, each atomic, in any order.
* `Relay.step_cases` — what an action does to the records.
* `Relay.entry_step` — what a subscriber is told in an action and what is left to announce make up what
  was left before and the news.
* `Relay.Ready` — no clear is left to announce, and what is left is stored. `Ready.step`, `Ready.run`.
-/

namespace EventJournal

/-! ## Failures among messages -/

/-- The error that a message brings. -/
def LiveMessage.error? : LiveMessage → Option StoreError
  | .failed detail => some (.notification detail)
  | _ => none

/-- What a list of messages says about the records. -/
def tidings (messages : List LiveMessage) : List LiveMessage :=
  messages.filter (·.error?.isNone)

theorem tidings_append (earlier later : List LiveMessage) :
    tidings (earlier ++ later) = tidings earlier ++ tidings later :=
  List.filter_append ..

theorem tidings_of_plain {messages : List LiveMessage}
    (h : ∀ message ∈ messages, message.error? = none) : tidings messages = messages :=
  List.filter_eq_self.mpr fun message hmessage => by rw [h message hmessage]; rfl

theorem tidings_filter (messages : List LiveMessage) (keep : LiveMessage → Bool) :
    tidings (messages.filter keep) = (tidings messages).filter keep :=
  List.filter_comm ..

/-- A failure does not change what a pump takes up, nor what it remembers. -/
theorem PumpMemory.takes_tidings (memory : PumpMemory) (messages : List LiveMessage) :
    memory.takes messages = memory.takes (tidings messages) ∧
      memory.hearAll messages = memory.hearAll (tidings messages) := by
  induction messages generalizing memory with
  | nil => exact ⟨rfl, rfl⟩
  | cons message rest ih =>
    obtain ⟨htakes, hhears⟩ := ih (memory.hear message)
    cases message with
    | record record => exact ⟨congrArg (memory.taken (.record record) ++ ·) htakes, hhears⟩
    | failed detail => exact ⟨htakes, hhears⟩
    | reset => exact ⟨htakes, hhears⟩

/-- What is due depends on what the queue says about the records. -/
theorem Feed.due_congr {feed : Feed} {queue queue' : List LiveMessage}
    (h : tidings queue = tidings queue') :
    feed.due queue = feed.due queue' ∧ feed.outlook queue = feed.outlook queue' := by
  obtain ⟨htakes, hhears⟩ := feed.pump.memory.takes_tidings queue
  obtain ⟨htakes', hhears'⟩ := feed.pump.memory.takes_tidings queue'
  refine ⟨?_, ?_⟩
  · rw [due, due, htakes, htakes', h]
  · rw [outlook, outlook, hhears, hhears', h]

/-! ## Relays -/

/-- A store that announces what happened to its records some time after it happened. -/
structure Relay where
  /-- The records that a reader finds, the oldest first. -/
  stored : List Record
  /-- The least sequence number not used yet. -/
  next : SequenceNumber
  /-- What happened and is not announced yet, the oldest first. -/
  unannounced : List LiveMessage
  subscribers : Subscribers
  deriving Repr, DecidableEq, Inhabited

namespace Relay

/-- What can happen around a subscriber. -/
inductive Action where
  /-- Records are appended; the sequence numbers before the next one are used up. -/
  | append (records : List Record) (next : SequenceNumber)
  /-- The records of these numbers are removed. -/
  | remove (numbers : List SequenceNumber)
  | clear
  /-- The listener announces what is oldest: a clear, or records, so many at most. -/
  | announce (count : Nat)
  /-- The listener fails and carries on. -/
  | fail (detail : String)
  /-- Another subscriber registers. -/
  | join (stream : StreamId)
  /-- The entry of another subscriber changes. -/
  | other (place : Nat) (entry : Subscriber)
  deriving Repr, DecidableEq, Inhabited

/-- Whether an action leaves what is stored. -/
def Action.keeps : Action → Bool
  | .remove _ => false
  | .clear => false
  | _ => true

/-- The failures that an action announces. -/
def Action.failures : Action → List StoreError
  | .fail detail => [.notification detail]
  | _ => []

/-- Whether records can be appended: they are numbered in order, from the next number on. -/
def Admits (relay : Relay) (records : List Record) (next : SequenceNumber) : Prop :=
  relay.next.toInt ≤ next.toInt ∧ records.Pairwise (·.sequence < ·.sequence) ∧
    ∀ record ∈ records, relay.next.toInt ≤ record.sequence.toInt ∧ record.sequence < next ∧
      0 ≤ record.version.toInt

instance (relay : Relay) (records : List Record) (next : SequenceNumber) :
    Decidable (relay.Admits records next) :=
  inferInstanceAs (Decidable (_ ∧ _ ∧ _))

/-- What happens to the records in an action. -/
def news (relay : Relay) : Action → List LiveMessage
  | .append records next => if relay.Admits records next then records.map .record else []
  | .clear => [.reset]
  | _ => []

/-- The relay after the listener announced what is oldest. -/
def announce (relay : Relay) (count : Nat) : Relay :=
  match relay.unannounced with
  | .reset :: rest =>
    { relay with unannounced := rest, subscribers := relay.subscribers.resetAll }
  | news =>
    let batch := (news.take count).takeWhile (·.record?.isSome)
    { relay with
      unannounced := news.drop batch.length,
      subscribers := (relay.subscribers.dispatch (batch.filterMap LiveMessage.record?)).1 }

/-- The relay after an action around the subscriber of a number. -/
def step (relay : Relay) (number : Nat) : Action → Relay
  | .append records next =>
    if relay.Admits records next then
      { relay with
        stored := relay.stored ++ records,
        next,
        unannounced := relay.unannounced ++ records.map .record }
    else relay
  | .remove numbers =>
    { relay with stored := relay.stored.filter fun record => record.sequence ∉ numbers }
  | .clear =>
    { relay with stored := [], next := .first, unannounced := relay.unannounced ++ [.reset] }
  | .announce count => relay.announce count
  | .fail detail => { relay with subscribers := relay.subscribers.failAll detail }
  | .join stream => { relay with subscribers := (relay.subscribers.register stream).2.1 }
  | .other place entry =>
    if place = number then relay
    else { relay with subscribers := ⟨relay.subscribers.table.set place entry⟩ }

/-- The relay after a list of actions. -/
def run (relay : Relay) (number : Nat) : List Action → Relay
  | [] => relay
  | action :: rest => (relay.step number action).run number rest

/-- What happens to the records in a list of actions, in order. -/
def history (relay : Relay) (number : Nat) : List Action → List LiveMessage
  | [] => []
  | action :: rest => relay.news action ++ (relay.step number action).history number rest

/-- A relay without records and subscribers. -/
def empty : Relay := ⟨[], .first, [], .empty⟩

/-- A subscriber registers. -/
def register (relay : Relay) (stream : StreamId) : Relay :=
  { relay with subscribers := (relay.subscribers.register stream).2.1 }

/-- The records that a subscription starts with, when they are read now. -/
def backlog (relay : Relay) (stream : StreamId) (options : SubscribeOptions) : List Record :=
  match options.backlogStart with
  | some position =>
    selectRecords stream (relay.stored.filter stream.concerns) { ReadOptions.forward with position }
  | none => []

variable {relay : Relay} {number : Nat}

/-- A subscription starts with the stored records beyond its position. -/
theorem backlog_eq (relay : Relay) (stream : StreamId) (options : SubscribeOptions) :
    relay.backlog stream options = expected stream options.position relay.stored [] :=
  MemoryStore.backlog_eq { MemoryStore.empty with records := relay.stored } stream options

/-! ## News and what is stored -/

/-- Messages that all carry a record are given by their records. -/
theorem map_record_of_isSome {messages : List LiveMessage}
    (h : messages.all (·.record?.isSome) = true) :
    (messages.filterMap LiveMessage.record?).map .record = messages := by
  induction messages with
  | nil => rfl
  | cons message rest ih =>
    rw [List.all_cons, Bool.and_eq_true] at h
    cases message with
    | record record => exact congrArg (LiveMessage.record record :: ·) (ih h.2)
    | failed detail => cases h.1
    | reset => cases h.1

/-- What the listener announces is the oldest of what is left; it is a clear, or records. -/
theorem announce_cases (relay : Relay) (count : Nat) :
    (relay.announce count).stored = relay.stored ∧ (relay.announce count).next = relay.next ∧
      ∃ announced, relay.unannounced = announced ++ (relay.announce count).unannounced ∧
        (announced = [.reset] ∧ (relay.announce count).subscribers = relay.subscribers.resetAll ∨
          ∃ records, announced = records.map .record ∧
            (relay.announce count).subscribers = (relay.subscribers.dispatch records).1) := by
  unfold announce
  split
  · rename_i rest hrest
    exact ⟨rfl, rfl, [.reset], hrest, .inl ⟨rfl, rfl⟩⟩
  · have hprefix : (relay.unannounced.take count).takeWhile (·.record?.isSome)
        <+: relay.unannounced :=
      (List.takeWhile_prefix _).trans (List.take_prefix ..)
    refine ⟨rfl, rfl, _, (List.prefix_iff_eq_append.mp hprefix).symm, .inr ⟨_, ?_, rfl⟩⟩
    exact (map_record_of_isSome List.all_takeWhile).symm

/-- **What an action does** to the records and to what is left to announce: it appends, it clears, or it
brings no news; then it takes nothing but what was removed or announced. -/
theorem step_cases (relay : Relay) (number : Nat) (action : Action) :
    let after := relay.step number action
    (∃ records, relay.Admits records after.next ∧ relay.news action = records.map .record ∧
        after.stored = relay.stored ++ records ∧
        after.unannounced = relay.unannounced ++ records.map .record) ∨
      (action.keeps = false ∧ relay.news action = [.reset] ∧ after.stored = [] ∧
        after.next = .first ∧ after.unannounced = relay.unannounced ++ [.reset]) ∨
      (relay.news action = [] ∧ after.stored.Sublist relay.stored ∧
        (action.keeps = true → after.stored = relay.stored) ∧ after.next = relay.next ∧
        after.unannounced <:+ relay.unannounced) := by
  intro after
  cases action with
  | append records next =>
    by_cases hadmits : relay.Admits records next
    · have hafter : after = { relay with
          stored := relay.stored ++ records
          next
          unannounced := relay.unannounced ++ records.map .record } := if_pos hadmits
      rw [hafter]
      exact .inl ⟨records, hadmits, if_pos hadmits, rfl, rfl⟩
    · have hafter : after = relay := if_neg hadmits
      rw [hafter]
      exact .inr (.inr ⟨if_neg hadmits, .refl _, fun _ => rfl, rfl, List.suffix_refl _⟩)
  | remove numbers =>
    exact .inr (.inr ⟨rfl, List.filter_sublist, fun keeps => (nomatch keeps), rfl,
      List.suffix_refl _⟩)
  | clear => exact .inr (.inl ⟨rfl, rfl, rfl, rfl, rfl⟩)
  | announce count =>
    obtain ⟨hstored, hnext, announced, hsplit, -⟩ := relay.announce_cases count
    exact .inr (.inr ⟨rfl, hstored ▸ .refl _, fun _ => hstored, hnext, announced, hsplit.symm⟩)
  | fail detail => exact .inr (.inr ⟨rfl, .refl _, fun _ => rfl, rfl, List.suffix_refl _⟩)
  | join stream => exact .inr (.inr ⟨rfl, .refl _, fun _ => rfl, rfl, List.suffix_refl _⟩)
  | other place entry =>
    by_cases hplace : place = number
    · have hafter : after = relay := if_pos hplace
      rw [hafter]
      exact .inr (.inr ⟨rfl, .refl _, fun _ => rfl, rfl, List.suffix_refl _⟩)
    · have hafter : after = { relay with subscribers := ⟨relay.subscribers.table.set place entry⟩ } :=
        if_neg hplace
      rw [hafter]
      exact .inr (.inr ⟨rfl, .refl _, fun _ => rfl, rfl, List.suffix_refl _⟩)

/-- A relay announces, in the end, a clear or fresh records in order. -/
theorem announced_step (relay : Relay) (number : Nat) (action : Action) :
    Announced relay.next (relay.step number action).next (relay.news action) := by
  rcases relay.step_cases number action with
    ⟨records, ⟨hlater, hordered, hnumbered⟩, hnews, -⟩ | ⟨-, hnews, -⟩ | ⟨hnews, -, -, hnext, -⟩
  · rw [hnews]
    exact .appended hlater hordered
      (fun record hrecord => ⟨(hnumbered record hrecord).1, (hnumbered record hrecord).2.1⟩)
      fun record hrecord => (hnumbered record hrecord).2.2
  · rw [hnews]
    exact .cleared
  · rw [hnews, hnext]
    exact .appended (Int.le_refl _) .nil (List.forall_mem_nil _) (List.forall_mem_nil _)

/-- Sequence numbers count from one. -/
theorem first_step (h : 1 ≤ relay.next.toInt) (number : Nat) (action : Action) :
    1 ≤ (relay.step number action).next.toInt := by
  rcases relay.step_cases number action with
    ⟨records, ⟨hlater, -⟩, -⟩ | ⟨-, -, -, hnext, -⟩ | ⟨-, -, -, hnext, -⟩
  · exact Int.le_trans h hlater
  · rw [hnext]
    exact Int.le_of_eq SequenceNumber.toInt_first.symm
  · rw [hnext]
    exact h

/-- What is stored was stored before or appended since. -/
theorem stored_sublist (relay : Relay) (number : Nat) (actions : List Action) :
    (relay.run number actions).stored.Sublist
      (relay.stored ++ (relay.history number actions).filterMap LiveMessage.record?) := by
  induction actions generalizing relay with
  | nil => exact List.sublist_append_left ..
  | cons action rest ih =>
    have hstep : (relay.step number action).stored.Sublist
        (relay.stored ++ (relay.news action).filterMap LiveMessage.record?) := by
      rcases relay.step_cases number action with
        ⟨records, -, hnews, hstored, -⟩ | ⟨-, -, hstored, -⟩ | ⟨-, hstored, -⟩
      · rw [hstored, hnews, Journal.filterMap_record?_map]
      · rw [hstored]
        exact List.nil_sublist _
      · exact hstored.trans (List.sublist_append_left ..)
    rw [history, List.filterMap_append, ← List.append_assoc]
    exact (ih _).trans (hstep.append (.refl _))

/-- What is left to announce happened to records; failures are announced at once. -/
def Plain (relay : Relay) : Prop := ∀ message ∈ relay.unannounced, message.error? = none

theorem plain_step (h : relay.Plain) (number : Nat) (action : Action) :
    (relay.step number action).Plain := by
  have hmore : ∀ {news : List LiveMessage}, (∀ message ∈ news, message.error? = none) →
      (relay.step number action).unannounced = relay.unannounced ++ news →
        (relay.step number action).Plain := fun hnews hleft message hmessage => by
    rw [hleft] at hmessage
    exact (List.mem_append.mp hmessage).elim (h message) (hnews message)
  rcases relay.step_cases number action with
    ⟨records, -, -, -, hleft⟩ | ⟨-, -, -, -, hleft⟩ | ⟨-, -, -, -, hleft⟩
  · exact hmore (List.forall_mem_map.mpr fun _ _ => rfl) hleft
  · exact hmore (List.forall_mem_singleton.mpr rfl) hleft
  · exact fun message hmessage => h message (hleft.subset hmessage)

/-- The listener can always announce what is oldest. -/
theorem announce_one (h : relay.Plain) {oldest : LiveMessage} {rest : List LiveMessage}
    (hleft : relay.unannounced = oldest :: rest) : (relay.announce 1).unannounced = rest := by
  unfold announce
  rw [hleft]
  cases oldest with
  | record record => rfl
  | failed detail =>
    have hfailed := h (.failed detail) (by rw [hleft]; exact List.mem_cons_self)
    cases hfailed
  | reset => rfl

/-! ## What a subscriber is told -/

/-- What is on its way to a subscriber: what it has not taken yet, and what is not announced yet. -/
def awaited (relay : Relay) (subscriber : Subscriber) : List LiveMessage :=
  subscriber.queue ++ relay.unannounced.filter subscriber.concerned

/-- **What a subscriber is told in an action**: failures, and the oldest of what was left to announce;
so that it and what is left then make up what was left before and the news. -/
theorem entry_step {subscriber : Subscriber}
    (hentry : relay.subscribers.table[number]? = some subscriber)
    (hlistening : subscriber.listening = subscriber.registered) (action : Action) :
    ∃ told, (relay.step number action).subscribers.table[number]? = some (subscriber.tell told) ∧
      told.filterMap LiveMessage.error? = action.failures ∧
      tidings (told ++ (relay.step number action).unannounced)
        = tidings (relay.unannounced ++ relay.news action) := by
  have hkept : relay.subscribers.table[number]? = some (subscriber.tell []) := by
    rw [Subscriber.tell_nil]
    exact hentry
  have hnone : tidings ([] ++ relay.unannounced) = tidings (relay.unannounced ++ []) := by
    rw [List.append_nil, List.nil_append]
  cases action with
  | append records next =>
    refine ⟨[], ?_, rfl, ?_⟩
    · rw [step]
      split <;> exact hkept
    · rw [step, news]
      split
      · rfl
      · exact hnone
  | remove numbers => exact ⟨[], hkept, rfl, hnone⟩
  | clear => exact ⟨[], hkept, rfl, rfl⟩
  | announce count =>
    obtain ⟨-, -, announced, hsplit, hcases⟩ := relay.announce_cases count
    have hleft : tidings (announced ++ (relay.announce count).unannounced)
        = tidings (relay.unannounced ++ []) := by
      rw [← hsplit, List.append_nil]
    refine ⟨announced, ?_, ?_, hleft⟩
    · show (relay.announce count).subscribers.table[number]? = _
      rcases hcases with ⟨rfl, hsubscribers⟩ | ⟨records, rfl, hsubscribers⟩
      · rw [hsubscribers, Subscribers.resetAll, List.getElem?_map, hentry, Option.map_some,
          Subscriber.push_eq_tell hlistening (List.forall_mem_singleton.mpr rfl)]
      · rw [hsubscribers, Subscribers.dispatch, List.getElem?_map, hentry, Option.map_some,
          Subscriber.deliver_eq_tell hlistening]
    · rcases hcases with ⟨rfl, -⟩ | ⟨records, rfl, -⟩
      · rfl
      · rw [List.filterMap_map]
        exact List.filterMap_eq_nil_iff.mpr fun _ _ => rfl
  | fail detail =>
    refine ⟨[.failed detail], ?_, rfl, ?_⟩
    · show (relay.subscribers.failAll detail).table[number]? = _
      rw [Subscribers.failAll, List.getElem?_map, hentry, Option.map_some,
        Subscriber.push_eq_tell hlistening (List.forall_mem_singleton.mpr rfl)]
    · rw [tidings_append]
      exact hnone
  | join stream =>
    refine ⟨[], ?_, rfl, hnone⟩
    exact (List.getElem?_append_left (List.getElem?_eq_some_iff.mp hentry).1).trans hkept
  | other place entry =>
    refine ⟨[], ?_, rfl, ?_⟩
    · rw [step]
      split
      · exact hkept
      · rename_i hplace
        exact (List.getElem?_set_ne hplace).trans hkept
    · rw [step]
      split <;> exact hnone

/-- What is left unannounced counts as awaited, so that announcing changes nothing in what is awaited. -/
theorem tidings_told {told left left' news : List LiveMessage}
    (h : tidings (told ++ left') = tidings (left ++ news)) (queue : List LiveMessage)
    (keep : LiveMessage → Bool) :
    tidings (queue ++ told.filter keep ++ left'.filter keep)
      = tidings (queue ++ left.filter keep ++ news.filter keep) := by
  rw [List.append_assoc, List.append_assoc, ← List.filter_append, ← List.filter_append,
    tidings_append, tidings_append, tidings_filter, tidings_filter, h]

theorem failures_concerned (subscriber : Subscriber) (messages : List LiveMessage) :
    (messages.filter subscriber.concerned).filterMap LiveMessage.error?
      = messages.filterMap LiveMessage.error? := by
  rw [List.filterMap_filter]
  refine List.filterMap_congr fun message _ => ?_
  cases message with
  | record record => exact ite_self _
  | failed detail => rfl
  | reset => rfl

/-- In a run a subscriber that does not take anything awaits what it awaited before and the news that
concern it, and finds every failure in its queue. -/
theorem entry_run {subscriber : Subscriber}
    (hentry : relay.subscribers.table[number]? = some subscriber)
    (hregistered : subscriber.registered = true) (hlistening : subscriber.listening = true)
    (actions : List Action) :
    ∃ queue, (relay.run number actions).subscribers.table[number]? = some { subscriber with queue } ∧
      queue.filterMap LiveMessage.error?
        = subscriber.queue.filterMap LiveMessage.error? ++ actions.flatMap Action.failures ∧
      tidings ((relay.run number actions).awaited { subscriber with queue })
        = tidings (relay.awaited subscriber
            ++ (relay.history number actions).filter subscriber.concerned) := by
  induction actions generalizing relay subscriber with
  | nil =>
    refine ⟨subscriber.queue, hentry, (List.append_nil _).symm, ?_⟩
    show _ = tidings (relay.awaited subscriber ++ [])
    rw [List.append_nil]
    rfl
  | cons action rest ih =>
    obtain ⟨told, htold, herrors, htidings⟩ :=
      relay.entry_step hentry (hlistening.trans hregistered.symm) action
    rw [Subscriber.tell, if_pos hregistered] at htold
    obtain ⟨queue, hqueue, hfailures, hawaited⟩ := ih htold hregistered hlistening
    refine ⟨queue, hqueue, ?_, ?_⟩
    · rw [hfailures, List.filterMap_append, failures_concerned, herrors, List.append_assoc]
      rfl
    · have hstep := tidings_told htidings subscriber.queue subscriber.concerned
      rw [history, List.filter_append, ← List.append_assoc, tidings_append]
      refine hawaited.trans ?_
      rw [tidings_append]
      exact congrArg (· ++ _) hstep

/-! ## Before anything is cleared -/

/-- No clear is left to announce: the records are in the order of their numbers, and of them are those
that are left to announce. -/
structure Ready (relay : Relay) : Prop where
  first : 1 ≤ relay.next.toInt
  ordered : relay.stored.Pairwise (·.sequence < ·.sequence)
  numbered : ∀ record ∈ relay.stored, record.sequence < relay.next
  stored : ∃ records : List Record, relay.unannounced = records.map .record ∧
    records.Sublist relay.stored

namespace Ready

theorem empty : Relay.empty.Ready where
  first := Int.le_of_eq SequenceNumber.toInt_first.symm
  ordered := .nil
  numbered := List.forall_mem_nil _
  stored := ⟨[], rfl, .slnil⟩

theorem plain (h : relay.Ready) : relay.Plain := by
  obtain ⟨left, hleft, -⟩ := h.stored
  intro message hmessage
  rw [hleft] at hmessage
  obtain ⟨record, -, rfl⟩ := List.mem_map.mp hmessage
  rfl

theorem of_announced (h : relay.Ready) {after : Relay} (stored : after.stored = relay.stored)
    (next : after.next = relay.next) (left : after.unannounced <:+ relay.unannounced) :
    after.Ready := by
  obtain ⟨records, hrecords, hsublist⟩ := h.stored
  refine ⟨?_, ?_, ?_, ?_⟩
  · rw [next]
    exact h.first
  · rw [stored]
    exact h.ordered
  · rw [stored, next]
    exact h.numbered
  · obtain ⟨announced, hsplit⟩ := left
    obtain ⟨gone, rest, rfl, -, hrest⟩ := List.map_eq_append_iff.mp (hrecords.symm.trans hsplit.symm)
    rw [stored]
    exact ⟨rest, hrest.symm, (List.sublist_append_right gone rest).trans hsublist⟩

theorem of_appended (h : relay.Ready) {after : Relay} {records : List Record}
    (admits : relay.Admits records after.next) (stored : after.stored = relay.stored ++ records)
    (left : after.unannounced = relay.unannounced ++ records.map .record) : after.Ready := by
  obtain ⟨hlater, hordered, hnumbered⟩ := admits
  refine ⟨Int.le_trans h.first hlater, ?_, ?_, ?_⟩
  · rw [stored]
    refine List.pairwise_append.mpr ⟨h.ordered, hordered, fun old hold record hrecord => ?_⟩
    have hbelow := h.numbered old hold
    have hle := (hnumbered record hrecord).1
    rw [SequenceNumber.lt_iff_toInt] at hbelow ⊢
    omega
  · intro record hrecord
    rw [stored] at hrecord
    rcases List.mem_append.mp hrecord with hold | hnew
    · have hbelow := h.numbered record hold
      rw [SequenceNumber.lt_iff_toInt] at hbelow ⊢
      omega
    · exact (hnumbered record hnew).2.1
  · obtain ⟨before, hbefore, hsublist⟩ := h.stored
    rw [left, stored, hbefore]
    exact ⟨before ++ records, List.map_append.symm, hsublist.append (.refl records)⟩

/-- An action that leaves what is stored adds its news to it. -/
theorem step (h : relay.Ready) (number : Nat) {action : Action} (keeps : action.keeps = true) :
    (relay.step number action).Ready ∧ ∃ fresh : List Record,
      relay.news action = fresh.map .record ∧
        (relay.step number action).stored = relay.stored ++ fresh := by
  rcases relay.step_cases number action with
    ⟨records, admits, hnews, hstored, hleft⟩ | ⟨hclears, -⟩ | ⟨hnews, -, hstored, hnext, hleft⟩
  · exact ⟨h.of_appended admits hstored hleft, records, hnews, hstored⟩
  · rw [keeps] at hclears
    cases hclears
  · refine ⟨h.of_announced (hstored keeps) hnext hleft, [], hnews, ?_⟩
    rw [hstored keeps, List.append_nil]

/-- A run without removals and clears adds its news to what is stored. -/
theorem run (h : relay.Ready) (number : Nat) {actions : List Action}
    (keeps : ∀ action ∈ actions, action.keeps = true) :
    (relay.run number actions).Ready ∧ ∃ fresh : List Record,
      relay.history number actions = fresh.map .record ∧
        (relay.run number actions).stored = relay.stored ++ fresh := by
  induction actions generalizing relay with
  | nil => exact ⟨h, [], rfl, (List.append_nil _).symm⟩
  | cons action rest ih =>
    obtain ⟨hready, fresh, hnews, hstored⟩ := h.step number (keeps action List.mem_cons_self)
    obtain ⟨hready', fresh', hhistory, hstored'⟩ :=
      ih hready fun other hother => keeps other (List.mem_cons_of_mem _ hother)
    refine ⟨hready', fresh ++ fresh', ?_, ?_⟩
    · rw [history, hnews, hhistory, List.map_append]
    · rw [Relay.run, hstored', hstored, List.append_assoc]

end Ready

end Relay

end EventJournal
