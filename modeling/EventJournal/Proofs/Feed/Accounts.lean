import EventJournal.Proofs.Feed.Outlet

/-!
# What a subscription on a relay is promised

Records are accounted for as they are in a journal, with what the relay has not announced yet as part of
what is due; failures are accounted for beside them.

* `Promised` — what a subscription is meant to get, from the news.
* `Outlet.Accounts` — what was received is a prefix of what is promised, and while the subscription is
  open the rest is due. `accounts_step`, `accounts_run`, `accounts_relay`.
* `Outlet.exists_idle` — what is under way gets through by the listener, the pump and the consumer alone,
  since each of their steps leaves less work.
* `Outlet.Accounts.delivers` — what a consumer gets in a run.
-/

namespace EventJournal

/-! ## Accounting for a subscription -/

/-- Nothing but its place in the table tells what concerns a subscriber: the stream it is for. -/
theorem Subscriber.concerned_congr {subscriber subscriber' : Subscriber}
    (h : subscriber'.stream = subscriber.stream) : subscriber'.concerned = subscriber.concerned := by
  funext message
  cases message with
  | record record => rw [concerned, concerned, h]
  | failed detail => rfl
  | reset => rfl

theorem Feed.Change.stream {feed feed' : Feed} {subscriber subscriber' : Subscriber}
    {told : List LiveMessage} {handed : List Record}
    (change : Feed.Change feed subscriber told handed feed' subscriber') :
    subscriber'.stream = subscriber.stream := by
  cases change with
  | told told =>
    rw [Subscriber.tell]
    split <;> rfl
  | moved move => cases move <;> rfl
  | received => rfl
  | shut closed => rfl

/-- What a subscription is meant to get: some records first, and then what the news brings from a start
on. -/
structure Promised where
  stream : StreamId
  options : SubscribeOptions
  start : Position
  first : List Record

/-- The records promised, after such news. -/
def Promised.records (promised : Promised) (news : List LiveMessage) : List Record :=
  (promised.first ++ expected promised.stream promised.start [] news).filter
    (promised.options.admitsType ·.typeName)

theorem Promised.records_append (promised : Promised) {next next' : SequenceNumber}
    {more : List LiveMessage} (announced : Announced next next' more) (positive : 1 ≤ next.toInt)
    (news : List LiveMessage) :
    promised.records (news ++ more) = promised.records news
      ++ (reached promised.stream (promised.start.after news) more).filter
        (promised.options.admitsType ·.typeName) := by
  rw [records, records, expected_append announced positive, ← List.append_assoc, List.filter_append]

namespace Outlet

variable {outlet : Outlet} {subscriber : Subscriber} {promised : Promised} {news : List LiveMessage}
  {failures errors : List StoreError} {received : List Record}

/-- What an open subscription received and what is due to it make up what is promised. -/
structure Tracks (outlet : Outlet) (subscriber : Subscriber) (promised : Promised)
    (news : List LiveMessage) (failures : List StoreError) (received : List Record)
    (errors : List StoreError) : Prop where
  sameStream : outlet.feed.channel.stream = promised.stream
  sameOptions : outlet.feed.channel.options = promised.options
  follows : outlet.feed.Follows (outlet.relay.awaited subscriber) (promised.start.after news)
    outlet.relay.next
  records : received ++ outlet.feed.due (outlet.relay.awaited subscriber) = promised.records news
  errors : errors ++ outlet.feed.dueErrors subscriber.queue = failures

/-- Every action keeps the accounts of a subscription that it leaves open. -/
theorem tracks_step (first : 1 ≤ outlet.relay.next.toInt) (h : outlet.Attached subscriber)
    (tracks : outlet.Tracks subscriber promised news failures received errors) (action : Action) :
    ∃ subscriber', (outlet.step action).Attached subscriber' ∧
      ((outlet.step action).feed.channel.isClosed = false →
        (outlet.step action).Tracks subscriber' promised (news ++ outlet.news action)
          (failures ++ action.failures) (received ++ outlet.handed action)
          (errors ++ outlet.handedError action)) := by
  obtain ⟨subscriber', told, hattached, change, htidings, herrors⟩ := step_change h action
  refine ⟨subscriber', hattached, fun isOpen => ?_⟩
  obtain ⟨-, hstream, hoptions⟩ := change.frame isOpen
  have announced := outlet.announced_step action
  have hconcerned := Subscriber.concerned_congr change.stream
  have hadmits : outlet.feed.admits = (promised.options.admitsType ·.typeName) := by
    funext record
    rw [Feed.admits, tracks.sameOptions]
  -- what is awaited afterwards and what the feed was told are what was awaited before and the news
  have hawaited : tidings (subscriber.queue ++ told.filter subscriber.concerned
        ++ (outlet.step action).relay.unannounced.filter subscriber'.concerned)
      = tidings (outlet.relay.awaited subscriber
        ++ (outlet.news action).filter subscriber.concerned) := by
    rw [hconcerned]
    exact Relay.tidings_told htidings _ _
  obtain ⟨hdue, houtlook⟩ := change.balance h.wired isOpen
    ((outlet.step action).relay.unannounced.filter subscriber'.concerned)
  obtain ⟨hdue', houtlook'⟩ := @Feed.due_congr outlet.feed _ _ hawaited
  obtain ⟨hqueued, hfollows⟩ := tracks.follows.queued h.wired announced
  refine ⟨hstream.trans tracks.sameStream, hoptions.trans tracks.sameOptions, ?_, ?_, ?_⟩
  · rw [Position.after_append]
    exact hfollows.of_outlook (houtlook.trans houtlook')
  · have hbalance := hdue.trans (hdue'.trans hqueued)
    rw [List.append_assoc, promised.records_append announced first, ← tracks.records,
      List.append_assoc, ← tracks.sameStream, ← hadmits]
    exact congrArg (received ++ ·) hbalance
  · rw [List.append_assoc, herrors isOpen, ← List.append_assoc, tracks.errors]

/-- The accounts of a subscription, open or not: nothing was received but the first of what is promised,
and while it is open the rest is due. -/
structure Accounts (outlet : Outlet) (promised : Promised) (news : List LiveMessage)
    (failures : List StoreError) (received : List Record) (errors : List StoreError) : Prop where
  first : 1 ≤ outlet.relay.next.toInt
  plain : outlet.relay.Plain
  agreed : outlet.feed.channel.Agreed
  attached : ∃ subscriber, outlet.Attached subscriber ∧
    (outlet.feed.channel.isClosed = false →
      outlet.Tracks subscriber promised news failures received errors)
  received : received <+: promised.records news
  errors : errors <+: failures

/-- An open subscription that is accounted for. -/
theorem Accounts.of_tracks (first : 1 ≤ outlet.relay.next.toInt) (plain : outlet.relay.Plain)
    (agreed : outlet.feed.channel.Agreed) (h : outlet.Attached subscriber)
    (tracks : outlet.Tracks subscriber promised news failures received errors) :
    outlet.Accounts promised news failures received errors where
  first := first
  plain := plain
  agreed := agreed
  attached := ⟨subscriber, h, fun _ => tracks⟩
  received := ⟨_, tracks.records⟩
  errors := ⟨_, tracks.errors⟩

theorem plain_step (h : outlet.relay.Plain) (action : Action) :
    (outlet.step action).relay.Plain := by
  cases action with
  | relay action => exact outlet.relay.plain_step h outlet.feed.pump.number action
  | pump =>
    rw [step]
    split <;> exact h
  | receive => exact h
  | close => exact h
  | drop => exact h

theorem agreed_step (h : outlet.Attached subscriber) (agreed : outlet.feed.channel.Agreed)
    (action : Action) : (outlet.step action).feed.channel.Agreed := by
  cases action with
  | relay action => exact agreed
  | pump =>
    rcases step_pump h with ⟨-, hsame⟩ | ⟨subscriber', move, -⟩
    · rw [hsame]
      exact agreed
    · intro hclosed
      exact move.closed_eq.trans (agreed (move.channel_frame.2.2 ▸ hclosed))
  | receive => exact Channel.agreed_receive agreed
  | close => exact fun _ => rfl
  | drop => exact fun _ => rfl

/-- What closes a subscription, or finds it closed, hands nothing over. -/
theorem handed_of_closed (h : outlet.Attached subscriber) (agreed : outlet.feed.channel.Agreed)
    {action : Action} (closed : (outlet.step action).feed.channel.isClosed = true) :
    outlet.handed action = [] ∧ outlet.handedError action = [] := by
  cases action with
  | receive =>
    refine Channel.found_of_closed agreed (fun isOpen => ?_) closed
    exact h.wired.sink.trans (h.wired.active isOpen)
  | relay action => exact ⟨rfl, rfl⟩
  | pump => exact ⟨rfl, rfl⟩
  | close => exact ⟨rfl, rfl⟩
  | drop => exact ⟨rfl, rfl⟩

/-- Every action keeps the accounts. -/
theorem accounts_step (h : outlet.Accounts promised news failures received errors)
    (action : Action) :
    (outlet.step action).Accounts promised (news ++ outlet.news action)
      (failures ++ action.failures) (received ++ outlet.handed action)
      (errors ++ outlet.handedError action) := by
  obtain ⟨subscriber, hattached, htracks⟩ := h.attached
  have hagreed := agreed_step hattached h.agreed action
  have hfirst := first_step h.first action
  have hplain := plain_step h.plain action
  cases hclosed : (outlet.step action).feed.channel.isClosed with
  | false =>
    -- then it was open before
    obtain ⟨subscriber₁, told, -, change, -⟩ := step_change hattached action
    obtain ⟨subscriber', hattached', htracks'⟩ :=
      tracks_step h.first hattached (htracks (change.frame hclosed).1) action
    exact .of_tracks hfirst hplain hagreed hattached' (htracks' hclosed)
  | true =>
    obtain ⟨subscriber', told, hattached', -⟩ := step_change hattached action
    obtain ⟨hhanded, herror⟩ := handed_of_closed hattached h.agreed hclosed
    refine ⟨hfirst, hplain, hagreed, ⟨subscriber', hattached', fun isOpen => ?_⟩, ?_, ?_⟩
    · rw [hclosed] at isOpen
      cases isOpen
    · rw [hhanded, List.append_nil,
        promised.records_append (outlet.announced_step action) h.first]
      exact h.received.trans (List.prefix_append ..)
    · rw [herror, List.append_nil]
      exact h.errors.trans (List.prefix_append ..)

/-- Every run keeps the accounts. -/
theorem accounts_run (h : outlet.Accounts promised news failures received errors)
    (actions : List Action) :
    (outlet.run actions).Accounts promised (news ++ outlet.history actions)
      (failures ++ actions.flatMap Action.failures) (received ++ outlet.received actions)
      (errors ++ outlet.errors actions) := by
  induction actions generalizing outlet news failures received errors with
  | nil =>
    simp only [history, Outlet.received, Outlet.errors, collect, List.flatMap_nil, List.append_nil]
    exact h
  | cons action rest ih =>
    have hrest := ih (accounts_step h action)
    simp only [List.append_assoc] at hrest
    exact hrest

/-- So it is while only the relay acts. -/
theorem accounts_relay (h : outlet.Accounts promised news failures received errors)
    (actions : List Relay.Action) :
    Accounts { outlet with relay := outlet.relay.run outlet.feed.pump.number actions } promised
      (news ++ outlet.relay.history outlet.feed.pump.number actions)
      (failures ++ actions.flatMap Relay.Action.failures) received errors := by
  have accounts := accounts_run h (actions.map .relay)
  obtain ⟨hrun, hhistory, hreceived, herrors⟩ := outlet.run_relay actions
  rw [hrun, hhistory, hreceived, herrors, List.append_nil, List.append_nil, List.flatMap_map]
    at accounts
  exact accounts

/-- **Nothing is left out**: where nothing is under way, everything promised was received. -/
theorem Accounts.settled (h : outlet.Accounts promised news failures received errors)
    (idle : outlet.Idle) : received = promised.records news ∧ errors = failures := by
  obtain ⟨subscriber, hattached, htracks⟩ := h.attached
  have tracks := htracks idle.isOpen
  have hdrained : outlet.feed.Drained subscriber.queue :=
    @PumpView.drained_of_waiting outlet.view subscriber hattached.entry
      (hattached.wired.active idle.isOpen) idle.isOpen idle.record idle.error idle.waits
  have hawaited : outlet.relay.awaited subscriber = subscriber.queue := by
    rw [Relay.awaited, idle.announced]
    exact List.append_nil _
  refine ⟨?_, ?_⟩
  · have hrecords := tracks.records
    rw [hawaited, Feed.due_of_drained hdrained, List.append_nil] at hrecords
    exact hrecords
  · have herrors := tracks.errors
    rw [Feed.dueErrors_of_drained hdrained idle.error, List.append_nil] at herrors
    exact herrors

end Outlet

/-! ## What is under way gets through -/

/-- The work under way in a feed, each piece the heavier the further it has to go. -/
def Feed.load (feed : Feed) : Nat :=
  3 * feed.pump.backlog.length + 2 * feed.pump.pending.toList.length
    + feed.channel.record.toList.length + feed.channel.error.toList.length

/-- A consumer that receives what waits leaves less of it, and the channel open. -/
theorem Channel.receive_waiting {channel : Channel} (isOpen : channel.isClosed = false)
    (waiting : channel.record ≠ none ∨ channel.error ≠ none) :
    channel.receive.2.isClosed = false ∧
      channel.receive.2.record.toList.length + channel.receive.2.error.toList.length
        < channel.record.toList.length + channel.error.toList.length := by
  have hunclosed : channel.closed = false := (Bool.or_eq_false_iff.mp isOpen).1
  unfold receive
  rw [if_neg (by rw [hunclosed]; exact Bool.false_ne_true)]
  cases herror : channel.error with
  | some error => exact ⟨isOpen, by simp⟩
  | none =>
    cases hrecord : channel.record with
    | some record => exact ⟨isOpen, by simp⟩
    | none =>
      rw [hrecord, herror] at waiting
      rcases waiting with hw | hw <;> exact absurd rfl hw

/-- Every move of the pump of an open feed leaves less work, its queue included. -/
theorem PumpMove.load_lt {feed feed' : Feed} {subscriber subscriber' : Subscriber} {number : Nat}
    (move : PumpMove feed subscriber feed' subscriber') (h : feed.Wired number subscriber)
    (isOpen : feed.channel.isClosed = false) :
    3 * subscriber'.queue.length + feed'.load < 3 * subscriber.queue.length + feed.load := by
  cases move with
  | offered active pending accepted =>
    rcases (Channel.offer_accepted accepted).2 with ⟨-, rfl⟩ | ⟨-, hrecord, rfl⟩
    · simp [Feed.load, pending]
    · simp [Feed.load, pending, hrecord]
  | failed active pending accepted =>
    obtain ⟨-, herror, rfl⟩ := Channel.fail_accepted accepted
    simp [Feed.load, pending, herror]
    omega
  | tookUp active pending backlog =>
    simp [Feed.load, Pump.takeUp, pending, backlog]
    omega
  | @heard message rest active pending backlog queue =>
    have hpending : (feed.pump.receive message).pending.toList.length ≤ 1 := by
      cases (feed.pump.receive message).pending <;> simp
    have hbacklog := (Pump.memory_receive backlog message).2.2
    simp only [Feed.load, pending, backlog, hbacklog, queue, List.length_cons, Option.toList_none,
      List.length_nil]
    omega
  | finished active because =>
    -- neither reason to end applies to an open subscription
    rcases because with hclosed | hgone
    · rw [hclosed] at isOpen
      cases isOpen
    · rw [h.registered, active] at hgone
      cases hgone

namespace Outlet

variable {outlet : Outlet} {subscriber : Subscriber} {promised : Promised} {news : List LiveMessage}
  {failures errors : List StoreError} {received : List Record}

/-- The work under way to the consumer of an outlet. -/
def load (outlet : Outlet) : Nat :=
  4 * outlet.relay.unannounced.length
    + (3 * (outlet.relay.subscribers.queueOf outlet.feed.pump.number).length + outlet.feed.load)

theorem Attached.queueOf (h : outlet.Attached subscriber) :
    outlet.relay.subscribers.queueOf outlet.feed.pump.number = subscriber.queue := by
  rw [Subscribers.queueOf, h.entry]
  rfl

/-- An announcement brings what is oldest nearer. -/
theorem load_announce (h : outlet.Attached subscriber) (plain : outlet.relay.Plain)
    (left : outlet.relay.unannounced ≠ []) :
    (outlet.step (.relay (.announce 1))).load < outlet.load := by
  obtain ⟨oldest, rest, hleft⟩ := List.exists_cons_of_ne_nil left
  have hrest : (outlet.relay.step outlet.feed.pump.number (.announce 1)).unannounced = rest :=
    Relay.announce_one plain hleft
  obtain ⟨told, hentry, herrors, htidings⟩ := outlet.relay.entry_step h.entry
    (h.wired.listening.trans h.wired.registered.symm) (.announce 1)
  -- one message is told, and it is in the queue at most
  have htold : told.length = 1 := by
    have hplain : ∀ message ∈ told, message.error? = none := List.filterMap_eq_nil_iff.mp herrors
    have hall : ∀ message ∈ rest, message.error? = none := fun message hmessage =>
      plain message (by rw [hleft]; exact List.mem_cons_of_mem _ hmessage)
    rw [hrest, show outlet.relay.news (.announce 1) = [] from rfl, List.append_nil, tidings_append,
      tidings_of_plain hplain, tidings_of_plain hall, tidings_of_plain plain, hleft] at htidings
    have hlength := congrArg List.length htidings
    rw [List.length_append, List.length_cons] at hlength
    omega
  have hqueue : (subscriber.tell told).queue.length ≤ subscriber.queue.length + 1 := by
    rw [Subscriber.tell]
    split
    · have hfilter := List.length_filter_le subscriber.concerned told
      rw [List.length_append]
      omega
    · exact Nat.le_succ _
  have hattached : (outlet.step (.relay (.announce 1))).Attached (subscriber.tell told) :=
    ⟨hentry, h.wired.tell told⟩
  rw [load, load, hattached.queueOf, h.queueOf, hleft, List.length_cons]
  show 4 * (outlet.relay.step _ _).unannounced.length + (_ + outlet.feed.load) < _
  rw [hrest]
  omega

/-- As long as something is under way in an open subscription, the listener, the pump or the consumer can
bring it nearer. -/
theorem exists_carry (h : outlet.Attached subscriber) (plain : outlet.relay.Plain)
    (isOpen : outlet.feed.channel.isClosed = false) (busy : ¬ outlet.Idle) :
    ∃ action : Action, action.carriesOn = true ∧ (outlet.step action).load < outlet.load ∧
      (outlet.step action).feed.channel.isClosed = false := by
  by_cases hleft : outlet.relay.unannounced = []
  · rcases step_pump h with ⟨hwaits, -⟩ | ⟨subscriber', move, hattached, hkept⟩
    · -- then something waits in the channel
      have hwaiting : outlet.feed.channel.record ≠ none ∨ outlet.feed.channel.error ≠ none := by
        by_contra hempty
        obtain ⟨hrecord, herror⟩ := not_or.mp hempty
        exact busy ⟨isOpen, hleft, hwaits, not_not.mp hrecord, not_not.mp herror⟩
      obtain ⟨hopen, hless⟩ := Channel.receive_waiting isOpen hwaiting
      refine ⟨.receive, rfl, ?_, hopen⟩
      rw [load, load, Feed.load, Feed.load]
      show 4 * outlet.relay.unannounced.length
        + (3 * (outlet.relay.subscribers.queueOf outlet.feed.pump.number).length
        + (3 * outlet.feed.pump.backlog.length + 2 * outlet.feed.pump.pending.toList.length
          + outlet.feed.channel.receive.2.record.toList.length
          + outlet.feed.channel.receive.2.error.toList.length)) < _
      omega
    · refine ⟨.pump, rfl, ?_, move.channel_frame.2.2.trans isOpen⟩
      have hless := move.load_lt h.wired isOpen
      rw [load, load, hattached.queueOf, h.queueOf, hkept]
      omega
  · exact ⟨.relay (.announce 1), rfl, load_announce h plain hleft, isOpen⟩

/-- What is under way in an open subscription gets through, if only the listener, the pump and the consumer
carry on. -/
theorem exists_idle (h : outlet.Accounts promised news failures received errors)
    (isOpen : outlet.feed.channel.isClosed = false) :
    ∃ rest : List Action, (∀ action ∈ rest, action.carriesOn = true) ∧ (outlet.run rest).Idle := by
  induction hload : outlet.load using Nat.strong_induction_on generalizing outlet news failures
    received errors with
  | _ load ih =>
    by_cases idle : outlet.Idle
    · exact ⟨[], List.forall_mem_nil _, idle⟩
    · obtain ⟨subscriber, hattached, -⟩ := h.attached
      obtain ⟨action, hcarries, hless, hopen⟩ := exists_carry hattached h.plain isOpen idle
      obtain ⟨rest, hrest, hidle⟩ := ih _ (hload ▸ hless) (accounts_step h action) hopen rfl
      exact ⟨action :: rest, List.forall_mem_cons.mpr ⟨hcarries, hrest⟩, hidle⟩

theorem quiet_of_carriesOn {rest : List Action} (carries : ∀ action ∈ rest, action.carriesOn = true) :
    outlet.history rest = [] ∧ rest.flatMap Action.failures = [] := by
  induction rest generalizing outlet with
  | nil => exact ⟨rfl, rfl⟩
  | cons action rest ih =>
    obtain ⟨hhistory, hfailures⟩ :=
      @ih (outlet.step action) fun other hother => carries other (List.mem_cons_of_mem _ hother)
    have haction : outlet.news action = [] ∧ action.failures = [] := by
      have hcarries := carries action List.mem_cons_self
      cases action with
      | relay action =>
        cases action with
        | announce count => exact ⟨rfl, rfl⟩
        | _ => cases hcarries
      | pump => exact ⟨rfl, rfl⟩
      | receive => exact ⟨rfl, rfl⟩
      | close => cases hcarries
      | drop => cases hcarries
    refine ⟨?_, ?_⟩
    · show outlet.news action ++ (outlet.step action).history rest = []
      rw [haction.1, hhistory]
      rfl
    · rw [List.flatMap_cons, haction.2, hfailures]
      rfl

/-- In a list of actions a consumer gets the first of these records and errors and nothing else; all of
them where nothing is under way any more; and if the subscription is still open, what is left gets through
by the listener, the pump and the consumer alone. -/
structure Delivers (outlet : Outlet) (actions : List Action) (records : List Record)
    (errors : List StoreError) : Prop where
  gotRecords : outlet.received actions <+: records
  gotErrors : outlet.errors actions <+: errors
  all : (outlet.run actions).Idle →
    outlet.received actions = records ∧ outlet.errors actions = errors
  rest : (outlet.run actions).feed.channel.isClosed = false →
    ∃ rest : List Action, (∀ action ∈ rest, action.carriesOn = true) ∧
      outlet.received (actions ++ rest) = records ∧ outlet.errors (actions ++ rest) = errors

/-- A subscription gets what it is promised. -/
theorem Accounts.delivers (h : outlet.Accounts promised news failures [] []) (actions : List Action) :
    outlet.Delivers actions (promised.records (news ++ outlet.history actions))
      (failures ++ actions.flatMap Action.failures) := by
  have accounts := accounts_run h actions
  refine ⟨accounts.received, accounts.errors, accounts.settled, fun isOpen => ?_⟩
  obtain ⟨rest, carries, hidle⟩ := exists_idle accounts isOpen
  obtain ⟨hhistory, hfailures⟩ := @quiet_of_carriesOn (outlet.run actions) rest carries
  obtain ⟨hreceived, herrors⟩ := (accounts_run accounts rest).settled hidle
  rw [hhistory, List.append_nil] at hreceived
  rw [hfailures, List.append_nil] at herrors
  refine ⟨rest, carries, ?_, ?_⟩
  · exact (outlet.collect_append handed actions rest).trans hreceived
  · exact (outlet.collect_append handedError actions rest).trans herrors

end Outlet

end EventJournal
