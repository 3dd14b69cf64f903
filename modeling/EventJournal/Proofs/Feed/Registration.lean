import EventJournal.Proofs.Feed.Gauge

/-!
# Registrations come and go with their pumps

A pump is registered when its subscription is opened and leaves when it ends, wherever it stands then: with
a record of the backlog in hand, with a live record, with a failure, or waiting for news. Nothing else takes a
registration away, so none outlives its pump; and once its subscription is closed a pump soon ends.

* `PumpView.step_of_closed` — what the pump of a closed subscription does.
* `Feed.Silenced`, `Feed.stepsLeft` — it hands over nothing more, and ends after two steps at most.
  `Journal.silenced_step`, `Journal.silenced_run`: whatever else happens.
* `Journal.registrations_settle` — the main statement, over all runs.
-/

namespace EventJournal

/-! ## Pumps of closed subscriptions -/

theorem PumpView.send_of_closed {view : PumpView} (closed : view.channel.isClosed = true)
    (delivery : Delivery) : view.send delivery = (.refused, view.channel) := by
  cases delivery with
  | record record => simp [send, Channel.offer, closed]
  | failure error => simp [send, Channel.fail, closed]

/-- The pump of a closed subscription ends with its next step, unless it first takes up a record of the
backlog, which will be refused. -/
theorem PumpView.step_of_closed {view : PumpView} (closed : view.channel.isClosed = true)
    (active : view.pump.ended = false) :
    view.step = some view.finish ∨
      ∃ record rest, view.pump.pending = none ∧ view.pump.backlog = record :: rest ∧
        view.step = some ({ view with pump := { view.pump with backlog := rest }.takeUp record }, []) := by
  unfold step
  rw [active, if_neg Bool.false_ne_true]
  cases hpending : view.pump.pending with
  | some delivery => simp only [view.send_of_closed closed, true_or]
  | none =>
    cases hbacklog : view.pump.backlog with
    | cons record rest => exact .inr ⟨record, rest, rfl, rfl, rfl⟩
    | nil => simp only [closed, if_pos, true_or]

namespace Feed

/-- How many steps the pump of a closed subscription still makes. -/
def stepsLeft (feed : Feed) : Nat :=
  if feed.pump.ended then 0
  else if feed.pump.pending = none ∧ feed.pump.backlog ≠ [] then 2
  else 1

theorem stepsLeft_le (feed : Feed) : feed.stepsLeft ≤ 2 := by
  unfold stepsLeft
  split
  · omega
  · split <;> omega

theorem ended_iff_stepsLeft {feed : Feed} : feed.pump.ended = true ↔ feed.stepsLeft = 0 := by
  unfold stepsLeft
  split
  · simp [*]
  · split <;> simp [*]

/-- What becomes of a closed subscription: it stays closed, and its channel holds at most what it held. -/
structure Silenced (before after : Feed) : Prop where
  closed : after.channel.closed = true
  record : after.channel.record = before.channel.record ∨ after.channel.record = none
  error : after.channel.error = before.channel.error ∨ after.channel.error = none

theorem Silenced.refl {feed : Feed} (closed : feed.channel.closed = true) : feed.Silenced feed :=
  ⟨closed, .inl rfl, .inl rfl⟩

theorem Silenced.trans {first second third : Feed} (h : first.Silenced second)
    (h' : second.Silenced third) : first.Silenced third where
  closed := h'.closed
  record := by
    rcases h'.record with hr | hr
    · rw [hr]
      exact h.record
    · exact .inr hr
  error := by
    rcases h'.error with he | he
    · rw [he]
      exact h.error
    · exact .inr he

end Feed

namespace Journal

variable {journal : Journal} {number : Nat} {feed : Feed} {subscriber : Subscriber}

/-- The step of another pump leaves a feed and its entry alone. -/
theorem At.stepPump_other (h : journal.At number feed subscriber) (wired : Wired journal) {other : Nat}
    (hother : other ≠ number) : (journal.step (.pump other)).At number feed subscriber := by
  show ((journal.stepPump other).getD journal).At number feed subscriber
  cases hstep : journal.stepPump other with
  | none => exact h
  | some after =>
    cases hmoving : journal.feeds[other]? with
    | none => simp [stepPump, hmoving] at hstep
    | some moving =>
      obtain ⟨entry, hentry, hwired⟩ := wired.entry hmoving
      obtain ⟨moved, subscriber', -, rfl⟩ := stepPump_cases hmoving hentry hwired.number hstep
      exact h.update_other hother

/-- A step of its pump brings a closed subscription nearer to the end of the pump. -/
theorem silenced_stepPump (h : journal.At number feed subscriber)
    (wired : feed.Wired number subscriber) (closed : feed.channel.closed = true) :
    ∃ feed' subscriber', (journal.step (.pump number)).At number feed' subscriber' ∧
      feed.Silenced feed' ∧ feed'.stepsLeft ≤ feed.stepsLeft - 1 := by
  show ∃ feed' subscriber', ((journal.stepPump number).getD journal).At number feed' subscriber' ∧ _
  cases hended : feed.pump.ended with
  | true =>
    have hwaits : journal.stepPump number = none := by
      simp [stepPump, h.feed, PumpView.step, hended]
    rw [hwaits]
    exact ⟨feed, subscriber, h, .refl closed, by simp [Feed.ended_iff_stepsLeft.mp hended]⟩
  | false =>
    have hclosed : feed.channel.isClosed = true := by simp [Channel.isClosed, closed]
    rcases @PumpView.step_of_closed ⟨feed.pump, feed.channel, journal.store.subscribers⟩
      hclosed hended with hstep | ⟨record, rest, hpending, hbacklog, hstep⟩
    · have hmoved : journal.stepPump number = some (journal.update number
          ⟨feed.channel.dropSink, { feed.pump with ended := true, pending := none }⟩
          { subscriber with registered := false, listening := false, queue := [] }) := by
        rw [← finish_update h.entry wired.number]
        simp [stepPump, h.feed, hstep]
      rw [hmoved, Option.getD_some]
      refine ⟨_, _, h.update_self, ⟨closed, .inl rfl, .inl rfl⟩, ?_⟩
      rw [Feed.ended_iff_stepsLeft.mp rfl]
      exact Nat.zero_le _
    · have hsame : journal.store.subscribers
          = ⟨journal.store.subscribers.table.set number subscriber⟩ := by
        obtain ⟨hlt, rfl⟩ := List.getElem?_eq_some_iff.mp h.entry
        rw [List.set_getElem_self]
      have hmoved : journal.stepPump number = some (journal.update number
          ⟨feed.channel, { feed.pump with backlog := rest }.takeUp record⟩ subscriber) := by
        simp only [stepPump, h.feed, hstep, Option.map_some, update, ← hsame]
      have hfull : feed.pump.pending = none ∧ feed.pump.backlog ≠ [] :=
        ⟨hpending, fun hnil => List.cons_ne_nil record rest (hbacklog.symm.trans hnil)⟩
      have htwo : feed.stepsLeft = 2 := by
        rw [Feed.stepsLeft, hended, if_neg Bool.false_ne_true, if_pos hfull]
      rw [hmoved, Option.getD_some, htwo]
      refine ⟨_, _, h.update_self, ⟨closed, .inl rfl, .inl rfl⟩, ?_⟩
      simp [Feed.stepsLeft, Pump.takeUp, hended]

/-- A change to some channel leaves the pump of a feed alone. -/
theorem silenced_updateChannel (h : journal.At number feed subscriber)
    (closed : feed.channel.closed = true) (other : Nat) (change : Channel → Channel)
    (silenced : feed.Silenced { feed with channel := change feed.channel }) :
    ∃ feed' subscriber', (journal.updateChannel other change).At number feed' subscriber' ∧
      feed.Silenced feed' ∧ feed'.stepsLeft ≤ feed.stepsLeft - 0 := by
  by_cases hother : other = number
  · subst hother
    exact ⟨_, _, h.updateChannel_self change, silenced, Nat.le_refl _⟩
  · exact ⟨_, _, h.updateChannel_other hother change, .refl closed, Nat.le_refl _⟩

/-- No action makes a closed subscription hold more, and the pump gets on with each of its own steps. -/
theorem silenced_step (wired : Wired journal) (h : journal.At number feed subscriber)
    (closed : feed.channel.closed = true) (action : Action) :
    ∃ feed' subscriber', (journal.step action).At number feed' subscriber' ∧
      feed.Silenced feed' ∧ feed'.stepsLeft ≤ feed.stepsLeft - [action].count (.pump number) := by
  cases action with
  | write write =>
    refine ⟨feed, subscriber.tell (write.news journal.store), ⟨h.feed, ?_⟩, .refl closed, ?_⟩
    · rw [wired.table_write write, List.getElem?_map, h.entry]
      rfl
    · simp
  | subscribe stream options =>
    refine ⟨feed, subscriber, ⟨?_, ?_⟩, .refl closed, by simp⟩
    · exact (List.getElem?_append_left (List.getElem?_eq_some_iff.mp h.feed).1).trans h.feed
    · exact (List.getElem?_append_left (List.getElem?_eq_some_iff.mp h.entry).1).trans h.entry
  | pump other =>
    by_cases hother : other = number
    · subst hother
      obtain ⟨feed', subscriber', hat, hsilenced, hsteps⟩ :=
        silenced_stepPump h (wired.feeds h.feed h.entry) closed
      exact ⟨feed', subscriber', hat, hsilenced, by simpa using hsteps⟩
    · have hcount : [Action.pump other].count (.pump number) = 0 := by simp [hother]
      rw [hcount, Nat.sub_zero]
      exact ⟨feed, subscriber, h.stepPump_other wired hother, .refl closed, Nat.le_refl _⟩
  | receive other =>
    refine silenced_updateChannel h closed other (·.receive.2) ?_
    rw [Channel.receive_of_closed closed]
    exact .refl closed
  | close other =>
    exact silenced_updateChannel h closed other Channel.close ⟨rfl, .inl rfl, .inl rfl⟩
  | drop other =>
    exact silenced_updateChannel h closed other Channel.dropConsumer ⟨rfl, .inr rfl, .inr rfl⟩

/-- So it is along a run: a closed subscription gets nothing any more, and its pump ends with its second
step from there at the latest. -/
theorem silenced_run (wired : Wired journal) (h : journal.At number feed subscriber)
    (closed : feed.channel.closed = true) (actions : List Action) :
    ∃ feed' subscriber', (journal.run actions).At number feed' subscriber' ∧
      feed.Silenced feed' ∧ feed'.stepsLeft ≤ feed.stepsLeft - actions.count (.pump number) := by
  induction actions generalizing journal feed subscriber with
  | nil => exact ⟨feed, subscriber, h, .refl closed, Nat.le_refl _⟩
  | cons action rest ih =>
    obtain ⟨next, entry, hat, hsilenced, hsteps⟩ := silenced_step wired h closed action
    obtain ⟨feed', subscriber', hat', hsilenced', hsteps'⟩ :=
      ih (wired.step action) hat hsilenced.closed
    refine ⟨feed', subscriber', hat', hsilenced.trans hsilenced', ?_⟩
    have hcount : ([action] ++ rest).count (.pump number)
        = [action].count (.pump number) + rest.count (.pump number) := List.count_append
    rw [List.singleton_append] at hcount
    omega

end Journal

/-! ## Closed for both sides -/

namespace Journal

variable {journal : Journal} {number : Nat} {feed : Feed} {subscriber : Subscriber}

theorem agreed_updateChannel (h : ∀ feed ∈ journal.feeds, feed.channel.Agreed) (number : Nat)
    {change : Channel → Channel} (keeps : ∀ channel : Channel, channel.Agreed → (change channel).Agreed) :
    ∀ feed ∈ (journal.updateChannel number change).feeds, feed.channel.Agreed := by
  intro feed hmem
  obtain ⟨place, hplace⟩ := List.mem_iff_getElem?.mp hmem
  simp only [updateChannel, List.getElem?_modify] at hplace
  obtain ⟨before, hbefore, rfl⟩ := Option.map_eq_some_iff.mp hplace
  have hagreed := h before (List.mem_of_getElem? hbefore)
  split
  · exact keeps _ hagreed
  · exact hagreed

theorem agreed_step (wired : Wired journal) (h : ∀ feed ∈ journal.feeds, feed.channel.Agreed)
    (action : Action) : ∀ feed ∈ (journal.step action).feeds, feed.channel.Agreed := by
  cases action with
  | write write => exact h
  | subscribe stream options =>
    intro feed hmem
    rcases List.mem_append.mp hmem with hold | hnew
    · exact h feed hold
    · cases List.mem_singleton.mp hnew
      exact nofun
  | pump number =>
    show ∀ feed ∈ ((journal.stepPump number).getD journal).feeds, feed.channel.Agreed
    cases hstep : journal.stepPump number with
    | none => exact h
    | some after =>
      cases hmoving : journal.feeds[number]? with
      | none => simp [stepPump, hmoving] at hstep
      | some moving =>
        obtain ⟨entry, hentry, hwired⟩ := wired.entry hmoving
        obtain ⟨moved, subscriber', move, rfl⟩ := stepPump_cases hmoving hentry hwired.number hstep
        intro feed hmem
        rcases List.mem_or_eq_of_mem_set hmem with hold | rfl
        · exact h feed hold
        · intro hclosed
          rw [move.channel_frame.2.2] at hclosed
          rw [move.closed_eq]
          exact h moving (List.mem_of_getElem? hmoving) hclosed
  | receive number => exact agreed_updateChannel h number fun _ => Channel.agreed_receive
  | close number => exact agreed_updateChannel h number fun _ _ _ => rfl
  | drop number => exact agreed_updateChannel h number fun _ _ _ => rfl

theorem agreed_run (wired : Wired journal) (h : ∀ feed ∈ journal.feeds, feed.channel.Agreed)
    (actions : List Action) : ∀ feed ∈ (journal.run actions).feeds, feed.channel.Agreed := by
  induction actions generalizing journal with
  | nil => exact h
  | cons action rest ih => exact ih (wired.step action) (agreed_step wired h action)

/-! ## Entries, pumps and subscriptions -/

theorem Wired.isRegistered_iff (wired : Wired journal) (number : Nat) :
    journal.store.subscribers.isRegistered number = true ↔
      ∃ feed, journal.feeds[number]? = some feed ∧ feed.pump.number = number ∧
        feed.pump.ended = false := by
  unfold Subscribers.isRegistered
  constructor
  · intro hregistered
    cases hentry : journal.store.subscribers.table[number]? with
    | none => simp [hentry] at hregistered
    | some subscriber =>
      obtain ⟨feed, hfeed, hwired⟩ := wired.feed hentry
      refine ⟨feed, hfeed, hwired.number, ?_⟩
      simpa [hentry, hwired.registered] using hregistered
  · rintro ⟨feed, hfeed, -, hactive⟩
    obtain ⟨subscriber, hentry, hwired⟩ := wired.entry hfeed
    simp [hentry, hwired.registered, hactive]

theorem Wired.registered_eq (wired : Wired journal) :
    journal.store.subscribers.table.map (·.registered) = journal.feeds.map (!·.pump.ended) := by
  refine List.ext_getElem? fun number => ?_
  rw [List.getElem?_map, List.getElem?_map]
  cases hentry : journal.store.subscribers.table[number]? with
  | none =>
    have hnone : journal.feeds[number]? = none := by
      rw [List.getElem?_eq_none_iff] at hentry ⊢
      rw [wired.size]
      exact hentry
    rw [hnone]
    rfl
  | some subscriber =>
    obtain ⟨feed, hfeed, hwired⟩ := wired.feed hentry
    rw [hfeed, Option.map_some, Option.map_some, hwired.registered]

/-- A pump that can make no step has not ended exactly as long as its subscription is open. -/
theorem active_iff_open_of_blocked (wired : Wired journal) (hfeed : journal.feeds[number]? = some feed)
    (blocked : journal.stepPump number = none) :
    feed.pump.ended = false ↔ feed.channel.isClosed = false := by
  obtain ⟨subscriber, -, hwired⟩ := wired.entry hfeed
  refine ⟨fun hactive => ?_, hwired.active⟩
  by_contra hclosed
  rw [Bool.not_eq_false] at hclosed
  simp only [stepPump, hfeed, Option.map_eq_none_iff] at blocked
  rcases @PumpView.step_of_closed ⟨feed.pump, feed.channel, journal.store.subscribers⟩ hclosed hactive
    with hstep | ⟨record, rest, -, -, hstep⟩
  · rw [hstep] at blocked
    cases blocked
  · rw [hstep] at blocked
    cases blocked

/-- **Registrations settle**: after any actions, every registration is that of a pump that has not ended, and
every pump that has not ended is registered; the gauge, once it is set, shows how many these are. The pump of
a closed subscription hands nothing over any more, wherever it stands: whatever happens then, its consumer
gets nothing, its channel holds at most what it held, and with its second step from there at the latest the
pump has ended. So where no pump can make a step, the registrations are those of the open subscriptions. -/
theorem registrations_settle (actions : List Action) :
    let journal := empty.run actions
    (∀ number, journal.store.subscribers.isRegistered number = true ↔
        ∃ feed, journal.feeds[number]? = some feed ∧ feed.pump.number = number ∧
          feed.pump.ended = false) ∧
      (empty.reported actions).activeSubscriptions
        = (if journal.feeds = [] then none else some (journal.store.subscribers.size : Int)) ∧
      (∀ number feed, journal.feeds[number]? = some feed → feed.channel.isClosed = true →
        ∀ later, ∃ feed', (journal.run later).feeds[number]? = some feed' ∧
          feed'.channel.receive = (.closed, feed'.channel) ∧
          (feed'.channel.record = feed.channel.record ∨ feed'.channel.record = none) ∧
          (feed'.channel.error = feed.channel.error ∨ feed'.channel.error = none) ∧
          (2 ≤ later.count (.pump number) → feed'.pump.ended = true)) ∧
      ((∀ number, journal.stepPump number = none) →
        (∀ number, journal.store.subscribers.isRegistered number = true ↔ journal.IsOpen number) ∧
        journal.store.subscribers.size = journal.feeds.countP (!·.channel.isClosed)) := by
  intro journal
  have hwired : Wired journal := Wired.empty.run actions
  have hgauged : Gauged empty [] := by simp [Gauged, MetricLog.activeSubscriptions, MetricLog.gauge?, empty]
  have hchannels : ∀ feed ∈ empty.feeds, feed.channel.Agreed := List.forall_mem_nil _
  refine ⟨hwired.isRegistered_iff, gauge_run Wired.empty hgauged actions, ?_, ?_⟩
  · intro number feed hfeed hclosed later
    have hagreed : feed.channel.Agreed :=
      agreed_run Wired.empty hchannels actions feed (List.mem_of_getElem? hfeed)
    obtain ⟨subscriber, hentry, -⟩ := hwired.entry hfeed
    obtain ⟨feed', subscriber', hat, hsilenced, hsteps⟩ :=
      silenced_run hwired ⟨hfeed, hentry⟩ (hagreed hclosed) later
    refine ⟨feed', hat.feed, Channel.receive_of_closed hsilenced.closed, hsilenced.record,
      hsilenced.error, fun htwice => Feed.ended_iff_stepsLeft.mpr ?_⟩
    have htwo := feed.stepsLeft_le
    omega
  · intro blocked
    constructor
    · intro number
      rw [hwired.isRegistered_iff]
      constructor
      · rintro ⟨feed, hfeed, -, hactive⟩
        exact ⟨feed, hfeed, (active_iff_open_of_blocked hwired hfeed (blocked number)).mp hactive⟩
      · rintro ⟨feed, hfeed, hopen⟩
        obtain ⟨subscriber, -, hown⟩ := hwired.entry hfeed
        exact ⟨feed, hfeed, hown.number, hown.active hopen⟩
    · rw [Subscribers.size_eq_count, hwired.registered_eq, List.count, List.countP_map]
      refine List.countP_congr fun feed hmem => ?_
      obtain ⟨number, hfeed⟩ := List.mem_iff_getElem?.mp hmem
      have hiff := active_iff_open_of_blocked hwired hfeed (blocked number)
      simpa using hiff

/-- Of two subscriptions one is closed while a record waits in its channel and another is in the hand of its
pump. -/
def closingActions : List Action :=
  [.write (.append ⟨"a"⟩ [⟨⟨"1"⟩, "t", .null, .empty⟩, ⟨⟨"2"⟩, "t", .null, .empty⟩] none default),
    .subscribe ⟨"a"⟩ .all, .subscribe ⟨"a"⟩ .all, .pump 0, .pump 0, .pump 0, .close 0]

theorem registrations_settle_sample :
    (empty.reported closingActions).activeSubscriptions = some 2 ∧
      (empty.run closingActions).store.subscribers.isRegistered 0 = true ∧
      (empty.reported (closingActions ++ [.pump 0])).activeSubscriptions = some 1 ∧
      (empty.run (closingActions ++ [.pump 0])).store.subscribers.isRegistered 0 = false ∧
      ∃ feed, ((empty.run closingActions).run [.pump 0, .pump 0]).feeds[0]? = some feed ∧
        feed.channel.receive = (.closed, feed.channel) ∧ feed.pump.ended = true := by
  have settled := registrations_settle closingActions
  have later := registrations_settle (closingActions ++ [.pump 0])
  obtain ⟨feed, hfeed, hsilent, -, -, hended⟩ :=
    settled.2.2.1 0 _ rfl (by decide) [.pump 0, .pump 0]
  refine ⟨settled.2.1.trans (by decide), (settled.1 0).mpr ⟨_, rfl, by decide, by decide⟩,
    later.2.1.trans (by decide), ?_, feed, hfeed, hsilent, hended (by decide)⟩
  rw [Bool.eq_false_iff, Ne, later.1 0]
  rintro ⟨feed, hfeed, -, hactive⟩
  cases hfeed
  revert hactive
  decide

end Journal

end EventJournal
