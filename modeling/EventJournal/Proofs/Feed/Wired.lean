import EventJournal.Proofs.Feed.Journal

/-!
# Feeds and subscribers belong together

A subscription is known by its place among those ever opened, which is also the number under which its
pump is registered. `Journal.Wired` is the invariant that keeps the two together.

* `PumpMove` — the moves of a pump, on its own feed and its own queue only.
* `PumpView.step_cases`, `Journal.stepPump_cases` — a step of a pump is one of them.
* `Wired.step` — a pump is registered and listens exactly until it ends, and it ends only when its
  subscription is closed.
-/

namespace EventJournal

/-! ## Moves of a pump -/

/-- The moves of a pump, with its channel and its entry among the subscribers. -/
inductive PumpMove : Feed → Subscriber → Feed → Subscriber → Prop where
  /-- The channel takes a record, or its filter skips it. -/
  | offered {feed : Feed} {subscriber : Subscriber} {record : Record} {channel : Channel}
      (active : feed.pump.ended = false) (pending : feed.pump.pending = some (.record record))
      (accepted : feed.channel.offer record = (.accepted, channel)) :
      PumpMove feed subscriber ⟨channel, { feed.pump with pending := none }⟩ subscriber
  /-- The channel takes a failure. -/
  | failed {feed : Feed} {subscriber : Subscriber} {error : StoreError} {channel : Channel}
      (active : feed.pump.ended = false) (pending : feed.pump.pending = some (.failure error))
      (accepted : feed.channel.fail error = (.accepted, channel)) :
      PumpMove feed subscriber ⟨channel, { feed.pump with pending := none }⟩ subscriber
  /-- The next record of the backlog is taken up. -/
  | tookUp {feed : Feed} {subscriber : Subscriber} {record : Record} {rest : List Record}
      (active : feed.pump.ended = false) (pending : feed.pump.pending = none)
      (backlog : feed.pump.backlog = record :: rest) :
      PumpMove feed subscriber
        ⟨feed.channel, { feed.pump with backlog := rest }.takeUp record⟩ subscriber
  /-- The next message is taken from the queue. -/
  | heard {feed : Feed} {subscriber : Subscriber} {message : LiveMessage}
      {rest : List LiveMessage} (active : feed.pump.ended = false)
      (pending : feed.pump.pending = none) (backlog : feed.pump.backlog = [])
      (queue : subscriber.queue = message :: rest) :
      PumpMove feed subscriber
        ⟨feed.channel, feed.pump.receive message⟩ { subscriber with queue := rest }
  /-- The pump ends: its subscription is closed, or nothing will come any more. -/
  | finished {feed : Feed} {subscriber : Subscriber} (active : feed.pump.ended = false)
      (because : feed.channel.isClosed = true ∨ subscriber.registered = false) :
      PumpMove feed subscriber
        ⟨feed.channel.dropSink, { feed.pump with ended := true, pending := none }⟩
        { subscriber with registered := false, listening := false, queue := [] }

theorem modify_eq_set_of_getElem? {α : Type} {items : List α} {place : Nat} {item : α}
    (h : items[place]? = some item) (change : α → α) :
    items.modify place change = items.set place (change item) := by
  refine List.ext_getElem? fun other => ?_
  rw [List.getElem?_modify, List.getElem?_set]
  by_cases hp : place = other
  · subst hp
    obtain ⟨hlt, rfl⟩ := List.getElem?_eq_some_iff.mp h
    simp [hlt]
  · simp [hp]

theorem finish_eq (view : PumpView) {subscriber : Subscriber}
    (h : view.subscribers.table[view.pump.number]? = some subscriber) :
    view.finish.1 =
      { pump := { view.pump with ended := true, pending := none },
        channel := view.channel.dropSink,
        subscribers := ⟨view.subscribers.table.set view.pump.number
          { subscriber with registered := false, listening := false, queue := [] }⟩ } := by
  have hlt := (List.getElem?_eq_some_iff.mp h).1
  simp only [PumpView.finish, Subscribers.unregister, Subscribers.isRegistered, h,
    Option.any_some]
  split
  · simp only [Subscribers.dropListener, modify_eq_set_of_getElem? h]
    rw [modify_eq_set_of_getElem? (List.getElem?_set_self hlt), List.set_set]
  · rename_i hregistered
    simp only [Subscribers.dropListener, modify_eq_set_of_getElem? h]
    rw [Bool.not_eq_true] at hregistered
    rw [hregistered]

theorem Channel.offer_refused {channel after : Channel} {record : Record}
    (h : channel.offer record = (.refused, after)) : channel.isClosed = true := by
  unfold offer at h
  split at h
  · assumption
  · split at h
    · cases h
    · split at h <;> cases h

theorem Channel.fail_refused {channel after : Channel} {error : StoreError}
    (h : channel.fail error = (.refused, after)) : channel.isClosed = true := by
  unfold fail at h
  split at h
  · assumption
  · split at h <;> cases h

theorem isClosed_of_send_refused {view : PumpView} {delivery : Delivery} {channel : Channel}
    (h : view.send delivery = (.refused, channel)) : view.channel.isClosed = true := by
  cases delivery with
  | record record => exact Channel.offer_refused h
  | failure error => exact Channel.fail_refused h

/-- A pump moves on its own feed and its own entry among the subscribers. -/
theorem PumpView.step_cases {view after : PumpView} {samples : MetricLog} {subscriber : Subscriber}
    (hentry : view.subscribers.table[view.pump.number]? = some subscriber)
    (h : view.step = some (after, samples)) :
    ∃ feed' subscriber', PumpMove ⟨view.channel, view.pump⟩ subscriber feed' subscriber' ∧
      after = ⟨feed'.pump, feed'.channel,
        ⟨view.subscribers.table.set view.pump.number subscriber'⟩⟩ := by
  -- a move that leaves the subscribers alone writes the entry back
  have hsame : view.subscribers
      = ⟨view.subscribers.table.set view.pump.number subscriber⟩ := by
    obtain ⟨hlt, rfl⟩ := List.getElem?_eq_some_iff.mp hentry
    rw [List.set_getElem_self]
  unfold PumpView.step at h
  split at h
  · cases h
  · rename_i hactive
    rw [Bool.not_eq_true] at hactive
    split at h
    · -- what is pending goes first
      rename_i delivery hpending
      split at h
      · rename_i channel hsent
        cases h
        cases delivery with
        | record record =>
          exact ⟨_, _, .offered hactive hpending hsent, by simp only [← hsame]⟩
        | failure error =>
          exact ⟨_, _, .failed hactive hpending hsent, by simp only [← hsame]⟩
      · rename_i hsent
        obtain rfl : view.finish.1 = after := congrArg Prod.fst (Option.some.inj h)
        exact ⟨_, _, .finished hactive (.inl (isClosed_of_send_refused hsent)),
          finish_eq view hentry⟩
      · cases h
    · rename_i hpending
      split at h
      · -- then the backlog
        rename_i record rest hbacklog
        cases h
        exact ⟨_, _, .tookUp hactive hpending hbacklog, by simp only [← hsame]⟩
      · rename_i hbacklog
        split at h
        · rename_i hclosed
          obtain rfl : view.finish.1 = after := congrArg Prod.fst (Option.some.inj h)
          exact ⟨_, _, .finished hactive (.inl hclosed), finish_eq view hentry⟩
        · -- then the queue, and without a registration nothing will come any more
          simp only [Subscribers.take, hentry] at h
          cases hqueue : subscriber.queue with
          | cons message rest =>
            simp only [hqueue] at h
            cases h
            refine ⟨_, _, .heard hactive hpending hbacklog hqueue, ?_⟩
            simp only [modify_eq_set_of_getElem? hentry]
          | nil =>
            cases hregistered : subscriber.registered with
            | true => simp [hqueue, hregistered] at h
            | false =>
              simp only [hqueue, hregistered] at h
              obtain rfl : view.finish.1 = after := congrArg Prod.fst (Option.some.inj h)
              exact ⟨_, _, .finished hactive (.inr hregistered), finish_eq view hentry⟩

namespace Journal

/-- A pump that ends leaves its own entry among the subscribers, and no other. -/
theorem finish_update {journal : Journal} {number : Nat} {feed : Feed} {subscriber : Subscriber}
    (hentry : journal.store.subscribers.table[number]? = some subscriber)
    (hnumber : feed.pump.number = number) :
    let view := (PumpView.finish ⟨feed.pump, feed.channel, journal.store.subscribers⟩).1
    ({ store := { journal.store with subscribers := view.subscribers },
       feeds := journal.feeds.set number ⟨view.channel, view.pump⟩ } : Journal)
      = journal.update number
          ⟨feed.channel.dropSink, { feed.pump with ended := true, pending := none }⟩
          { subscriber with registered := false, listening := false, queue := [] } := by
  have hfinish := finish_eq ⟨feed.pump, feed.channel, journal.store.subscribers⟩ (hnumber ▸ hentry)
  simp only [hfinish, update, hnumber]

/-- The pump of a subscription moves on its own feed and its own entry among the subscribers. -/
theorem stepPump_cases {journal after : Journal} {number : Nat} {feed : Feed}
    {subscriber : Subscriber} (hfeed : journal.feeds[number]? = some feed)
    (hentry : journal.store.subscribers.table[number]? = some subscriber)
    (hnumber : feed.pump.number = number) (h : journal.stepPump number = some after) :
    ∃ feed' subscriber', PumpMove feed subscriber feed' subscriber' ∧
      after = journal.update number feed' subscriber' := by
  simp only [stepPump, hfeed, Option.map_eq_some_iff] at h
  obtain ⟨⟨view, samples⟩, hstep, rfl⟩ := h
  obtain ⟨feed', subscriber', move, rfl⟩ := PumpView.step_cases (hnumber ▸ hentry) hstep
  exact ⟨feed', subscriber', move, by simp only [update, hnumber]⟩

end Journal

/-! ## Feeds and subscribers belong together -/

/-- A feed and its entry among the subscribers agree: the pump is registered and listens until it ends,
and it ends only when the subscription is closed. -/
structure Feed.Wired (feed : Feed) (number : Nat) (subscriber : Subscriber) : Prop where
  number : feed.pump.number = number
  source : feed.pump.stream = feed.channel.stream
  stream : subscriber.stream = feed.channel.stream
  registered : subscriber.registered = !feed.pump.ended
  listening : subscriber.listening = !feed.pump.ended
  closed : feed.pump.ended = true → feed.channel.isClosed = true
  sink : feed.channel.sinkGone = feed.pump.ended

/-- Every feed agrees with the entry of its number. -/
structure Journal.Wired (journal : Journal) : Prop where
  size : journal.feeds.length = journal.store.subscribers.table.length
  feeds : ∀ {number : Nat} {feed : Feed} {subscriber : Subscriber},
    journal.feeds[number]? = some feed →
      journal.store.subscribers.table[number]? = some subscriber → feed.Wired number subscriber

namespace Channel

/-- A later state of a channel: it is still the same, and once closed stays closed. -/
structure Later (before after : Channel) : Prop where
  stream : after.stream = before.stream
  options : after.options = before.options
  sink : after.sinkGone = before.sinkGone
  closed : before.isClosed = true → after.isClosed = true

theorem Later.refl (channel : Channel) : channel.Later channel := ⟨rfl, rfl, rfl, id⟩

theorem Later.trans {first second third : Channel} (h : first.Later second)
    (h' : second.Later third) : first.Later third where
  stream := h'.stream.trans h.stream
  options := h'.options.trans h.options
  sink := h'.sink.trans h.sink
  closed := h'.closed ∘ h.closed

theorem Later.isOpen {before after : Channel} (h : before.Later after)
    (isOpen : after.isClosed = false) : before.isClosed = false := by
  rw [Bool.eq_false_iff]
  intro hclosed
  rw [h.closed hclosed] at isOpen
  cases isOpen

theorem later_receive (channel : Channel) : channel.Later channel.receive.2 := by
  unfold receive
  split
  · exact ⟨rfl, rfl, rfl, id⟩
  · split
    · exact ⟨rfl, rfl, rfl, id⟩
    · exact ⟨rfl, rfl, rfl, id⟩
    · split
      · exact ⟨rfl, rfl, rfl, fun _ => rfl⟩
      · exact ⟨rfl, rfl, rfl, id⟩

theorem later_close (channel : Channel) : channel.Later channel.close :=
  ⟨rfl, rfl, rfl, fun _ => rfl⟩

theorem later_dropConsumer (channel : Channel) : channel.Later channel.dropConsumer :=
  ⟨rfl, rfl, rfl, fun _ => rfl⟩

/-- A channel that one side finds closed is closed for the other, too. -/
def Agreed (channel : Channel) : Prop := channel.isClosed = true → channel.closed = true

theorem agreed_receive {channel : Channel} (h : channel.Agreed) : channel.receive.2.Agreed := by
  unfold receive
  split
  · exact h
  · split
    · exact h
    · exact h
    · split
      · exact fun _ => rfl
      · exact h

theorem offer_accepted {channel after : Channel} {record : Record}
    (h : channel.offer record = (.accepted, after)) :
    channel.isClosed = false ∧
      (channel.options.admitsType record.typeName = false ∧ after = channel ∨
        channel.options.admitsType record.typeName = true ∧ channel.record = none ∧
          after = { channel with record := some record }) := by
  unfold offer at h
  split at h
  · cases h
  · rename_i hclosed
    refine ⟨by simpa using hclosed, ?_⟩
    split at h
    · rename_i hadmits
      cases h
      exact .inl ⟨by simpa using hadmits, rfl⟩
    · rename_i hadmits
      split at h
      · cases h
      · rename_i hrecord
        cases h
        exact .inr ⟨by simpa using hadmits, hrecord, rfl⟩

theorem fail_accepted {channel after : Channel} {error : StoreError}
    (h : channel.fail error = (.accepted, after)) :
    channel.isClosed = false ∧ channel.error = none ∧ after = { channel with error := some error } := by
  unfold fail at h
  split at h
  · cases h
  · rename_i hclosed
    split at h
    · cases h
    · rename_i herror
      cases h
      exact ⟨by simpa using hclosed, herror, rfl⟩

end Channel

/-- A message changes neither whose pump it is nor whether it has ended. -/
theorem Pump.receive_frame (pump : Pump) (message : LiveMessage) :
    (pump.receive message).number = pump.number ∧ (pump.receive message).stream = pump.stream ∧
      (pump.receive message).ended = pump.ended := by
  cases message with
  | record record =>
    simp only [Pump.receive]
    split
    · exact ⟨rfl, rfl, rfl⟩
    · exact ⟨rfl, rfl, rfl⟩
  | failed detail => exact ⟨rfl, rfl, rfl⟩
  | reset => exact ⟨rfl, rfl, rfl⟩

/-- A move of the pump changes neither the options of the subscription nor whether it is closed. -/
theorem PumpMove.channel_frame {feed feed' : Feed} {subscriber subscriber' : Subscriber}
    (move : PumpMove feed subscriber feed' subscriber') :
    feed'.channel.stream = feed.channel.stream ∧ feed'.channel.options = feed.channel.options ∧
      feed'.channel.isClosed = feed.channel.isClosed := by
  cases move with
  | offered active pending accepted =>
    rcases (Channel.offer_accepted accepted).2 with ⟨-, rfl⟩ | ⟨-, -, rfl⟩
    · exact ⟨rfl, rfl, rfl⟩
    · exact ⟨rfl, rfl, rfl⟩
  | failed active pending accepted =>
    obtain ⟨-, -, rfl⟩ := Channel.fail_accepted accepted
    exact ⟨rfl, rfl, rfl⟩
  | tookUp active pending backlog => exact ⟨rfl, rfl, rfl⟩
  | heard active pending backlog queue => exact ⟨rfl, rfl, rfl⟩
  | finished active because => exact ⟨rfl, rfl, rfl⟩

theorem PumpMove.closed_eq {feed feed' : Feed} {subscriber subscriber' : Subscriber}
    (move : PumpMove feed subscriber feed' subscriber') :
    feed'.channel.closed = feed.channel.closed := by
  cases move with
  | offered active pending accepted =>
    rcases (Channel.offer_accepted accepted).2 with ⟨-, rfl⟩ | ⟨-, -, rfl⟩
    · rfl
    · rfl
  | failed active pending accepted =>
    obtain ⟨-, -, rfl⟩ := Channel.fail_accepted accepted
    rfl
  | tookUp active pending backlog => rfl
  | heard active pending backlog queue => rfl
  | finished active because => rfl

theorem PumpMove.wired {feed feed' : Feed} {subscriber subscriber' : Subscriber} {number : Nat}
    (move : PumpMove feed subscriber feed' subscriber') (h : feed.Wired number subscriber) :
    feed'.Wired number subscriber' := by
  cases move with
  | offered active pending accepted =>
    rcases (Channel.offer_accepted accepted).2 with ⟨-, rfl⟩ | ⟨-, -, rfl⟩
    · exact ⟨h.number, h.source, h.stream, h.registered, h.listening, h.closed, h.sink⟩
    · exact ⟨h.number, h.source, h.stream, h.registered, h.listening, h.closed, h.sink⟩
  | failed active pending accepted =>
    obtain ⟨-, -, rfl⟩ := Channel.fail_accepted accepted
    exact ⟨h.number, h.source, h.stream, h.registered, h.listening, h.closed, h.sink⟩
  | tookUp active pending backlog =>
    exact ⟨h.number, h.source, h.stream, h.registered, h.listening, h.closed, h.sink⟩
  | @heard message rest active pending backlog queue =>
    have hpump := feed.pump.receive_frame message
    exact ⟨hpump.1.trans h.number, hpump.2.1.trans h.source, h.stream, hpump.2.2 ▸ h.registered,
      hpump.2.2 ▸ h.listening, hpump.2.2 ▸ h.closed, hpump.2.2 ▸ h.sink⟩
  | finished active because =>
    refine ⟨h.number, h.source, h.stream, rfl, rfl, fun _ => ?_, rfl⟩
    rcases because with hclosed | hgone
    · exact hclosed
    · rw [h.registered, active] at hgone
      cases hgone

theorem Feed.Wired.later {feed : Feed} {subscriber : Subscriber} {number : Nat}
    {channel : Channel} (h : feed.Wired number subscriber) (later : feed.channel.Later channel) :
    Feed.Wired { feed with channel } number subscriber where
  number := h.number
  source := h.source.trans later.stream.symm
  stream := h.stream.trans later.stream.symm
  registered := h.registered
  listening := h.listening
  closed hended := later.closed (h.closed hended)
  sink := later.sink.trans h.sink

/-- The pump of an open subscription has not ended. -/
theorem Feed.Wired.active {feed : Feed} {subscriber : Subscriber} {number : Nat}
    (h : feed.Wired number subscriber) (isOpen : feed.channel.isClosed = false) :
    feed.pump.ended = false := by
  rw [Bool.eq_false_iff]
  intro hended
  rw [h.closed hended] at isOpen
  cases isOpen

theorem Feed.Wired.tell {feed : Feed} {subscriber : Subscriber} {number : Nat}
    (h : feed.Wired number subscriber) (news : List LiveMessage) :
    feed.Wired number (subscriber.tell news) := by
  unfold Subscriber.tell
  split
  · exact ⟨h.number, h.source, h.stream, h.registered, h.listening, h.closed, h.sink⟩
  · exact h

namespace Journal

namespace Wired

variable {journal : Journal}

theorem empty : Wired Journal.empty := ⟨rfl, nofun⟩

/-- Every feed has its entry. -/
theorem entry (h : Wired journal) {number : Nat} {feed : Feed}
    (hfeed : journal.feeds[number]? = some feed) :
    ∃ subscriber, journal.store.subscribers.table[number]? = some subscriber ∧
      feed.Wired number subscriber := by
  have hlt := (List.getElem?_eq_some_iff.mp hfeed).1
  rw [h.size] at hlt
  exact ⟨_, List.getElem?_eq_getElem hlt, h.feeds hfeed (List.getElem?_eq_getElem hlt)⟩

theorem feed (h : Wired journal) {number : Nat} {subscriber : Subscriber}
    (hentry : journal.store.subscribers.table[number]? = some subscriber) :
    ∃ feed, journal.feeds[number]? = some feed ∧ feed.Wired number subscriber := by
  have hlt := (List.getElem?_eq_some_iff.mp hentry).1
  rw [← h.size] at hlt
  exact ⟨_, List.getElem?_eq_getElem hlt, h.feeds (List.getElem?_eq_getElem hlt) hentry⟩

theorem listening_eq_registered (h : Wired journal) :
    ∀ subscriber ∈ journal.store.subscribers.table,
      subscriber.listening = subscriber.registered := by
  intro subscriber hmem
  obtain ⟨number, hentry⟩ := List.mem_iff_getElem?.mp hmem
  obtain ⟨feed, -, hwired⟩ := h.feed hentry
  rw [hwired.listening, hwired.registered]

theorem table_write (h : Wired journal) (write : MemoryStore.Write) :
    (journal.step (.write write)).store.subscribers.table
      = journal.store.subscribers.table.map (·.tell (write.news journal.store)) :=
  write.table_after journal.store h.listening_eq_registered

theorem update (h : Wired journal) {number : Nat} {feed : Feed} {subscriber : Subscriber}
    (hwired : feed.Wired number subscriber) : Wired (journal.update number feed subscriber) where
  size := by
    simp only [Journal.update, List.length_set]
    exact h.size
  feeds {other feed' subscriber'} hfeed hentry := by
    simp only [Journal.update, List.getElem?_set] at hfeed hentry
    by_cases ho : number = other
    · subst ho
      rw [if_pos rfl] at hfeed hentry
      split at hfeed
      · split at hentry
        · cases hfeed
          cases hentry
          exact hwired
        · cases hentry
      · cases hfeed
    · rw [if_neg ho] at hfeed hentry
      exact h.feeds hfeed hentry

theorem updateChannel (h : Wired journal) (number : Nat) (change : Channel → Channel)
    (later : ∀ feed, journal.feeds[number]? = some feed →
      feed.channel.Later (change feed.channel)) :
    Wired (journal.updateChannel number change) where
  size := by
    simp only [Journal.updateChannel, List.length_modify]
    exact h.size
  feeds {other feed' subscriber'} hfeed hentry := by
    simp only [Journal.updateChannel, List.getElem?_modify] at hfeed hentry
    obtain ⟨feed, hbefore, rfl⟩ := Option.map_eq_some_iff.mp hfeed
    have hwired := h.feeds hbefore hentry
    split
    · rename_i hsame
      exact hwired.later (later feed (hsame ▸ hbefore))
    · exact hwired

/-- Every action keeps feeds and subscribers together. -/
theorem step (h : Wired journal) (action : Action) : Wired (journal.step action) := by
  cases action with
  | write write =>
    have htable := h.table_write write
    refine ⟨?_, fun hfeed hentry => ?_⟩
    · rw [htable, List.length_map]
      exact h.size
    · rw [htable, List.getElem?_map] at hentry
      obtain ⟨subscriber, hbefore, rfl⟩ := Option.map_eq_some_iff.mp hentry
      exact (h.feeds hfeed hbefore).tell _
  | subscribe stream options =>
    refine ⟨?_, fun {number feed subscriber} hfeed hentry => ?_⟩
    · show (journal.feeds ++ [_]).length = (journal.store.subscribers.table ++ [_]).length
      rw [List.length_append, List.length_append, h.size]
      rfl
    · -- the new subscription stands at the end of both lists
      change (journal.feeds ++ [_])[number]? = _ at hfeed
      change (journal.store.subscribers.table ++ [_])[number]? = _ at hentry
      rcases Nat.lt_trichotomy number journal.feeds.length with hlt | heq | hgt
      · rw [List.getElem?_append_left hlt] at hfeed
        rw [List.getElem?_append_left (h.size ▸ hlt)] at hentry
        exact h.feeds hfeed hentry
      · subst heq
        rw [List.getElem?_concat_length] at hfeed
        rw [h.size, List.getElem?_concat_length] at hentry
        cases hfeed
        cases hentry
        exact ⟨h.size.symm, rfl, rfl, rfl, rfl, nofun, rfl⟩
      · rw [List.getElem?_eq_none (by rw [List.length_append]; exact hgt)] at hfeed
        cases hfeed
  | pump number =>
    show Wired ((journal.stepPump number).getD journal)
    cases hstep : journal.stepPump number with
    | none => exact h
    | some after =>
      cases hfeed : journal.feeds[number]? with
      | none =>
        simp only [stepPump, hfeed] at hstep
        cases hstep
      | some feed =>
        obtain ⟨subscriber, hentry, hwired⟩ := h.entry hfeed
        obtain ⟨feed', subscriber', move, rfl⟩ :=
          stepPump_cases hfeed hentry hwired.number hstep
        exact h.update (move.wired hwired)
  | receive number =>
    exact h.updateChannel number (·.receive.2) fun feed _ => feed.channel.later_receive
  | close number =>
    exact h.updateChannel number Channel.close fun feed _ => feed.channel.later_close
  | drop number =>
    exact h.updateChannel number Channel.dropConsumer fun feed _ => feed.channel.later_dropConsumer

theorem run (h : Wired journal) (actions : List Action) : Wired (journal.run actions) := by
  induction actions generalizing journal with
  | nil => exact h
  | cons action rest ih => exact ih (h.step action)

end Wired

end Journal

end EventJournal
