import EventJournal.Proofs.Feed.InFlight

/-!
# How a subscription follows the store

Between two actions of its own a subscription meets only the news of the writers. An action as one feed
sees it is a `Feed.Change`; with what a sound store announces (`Announced`) this gives one step of the
accounting that every statement about delivery is proved from:

* `Journal.step_change` — an action tells a feed the news, moves its pump, lets its consumer receive, or
  shuts it.
* `Journal.announced` — a sound store announces a clear, or fresh records in order.
* `Feed.Follows.change` — what is handed over and what is due then is what was due before and, of the
  news, the records that the subscription reaches.
-/

namespace EventJournal

/-! ## An action as one feed sees it -/

/-- What an action with these news does to a feed and its entry, and what its consumer is handed. -/
inductive Feed.Change (feed : Feed) (subscriber : Subscriber) :
    List LiveMessage → List Record → Feed → Subscriber → Prop where
  | told (news : List LiveMessage) : Change feed subscriber news [] feed (subscriber.tell news)
  | moved {feed' : Feed} {subscriber' : Subscriber}
      (move : PumpMove feed subscriber feed' subscriber') :
      Change feed subscriber [] [] feed' subscriber'
  | received :
      Change feed subscriber [] feed.channel.found
        { feed with channel := feed.channel.receive.2 } subscriber
  | shut {channel : Channel} (closed : channel.isClosed = true) :
      Change feed subscriber [] [] { feed with channel } subscriber

/-- An action of others without news. -/
theorem Feed.Change.none (feed : Feed) (subscriber : Subscriber) :
    Feed.Change feed subscriber [] [] feed subscriber := by
  have htold : Feed.Change feed subscriber [] [] feed (subscriber.tell []) := .told []
  rwa [Subscriber.tell_nil] at htold

/-- What leaves a feed open finds it open and keeps its stream and its options. -/
theorem Feed.Change.frame {feed feed' : Feed} {subscriber subscriber' : Subscriber}
    {news : List LiveMessage} {handed : List Record}
    (change : Feed.Change feed subscriber news handed feed' subscriber')
    (isOpen : feed'.channel.isClosed = false) :
    feed.channel.isClosed = false ∧ feed'.channel.stream = feed.channel.stream ∧
      feed'.channel.options = feed.channel.options := by
  cases change with
  | told news => exact ⟨isOpen, rfl, rfl⟩
  | moved move =>
    obtain ⟨hstream, hoptions, hclosed⟩ := move.channel_frame
    exact ⟨hclosed ▸ isOpen, hstream, hoptions⟩
  | received =>
    have hlater := feed.channel.later_receive
    exact ⟨hlater.isOpen isOpen, hlater.stream, hlater.options⟩
  | shut closed =>
    rw [closed] at isOpen
    cases isOpen

namespace Journal

/-- The feed of a number and its entry among the subscribers. -/
structure At (journal : Journal) (number : Nat) (feed : Feed) (subscriber : Subscriber) : Prop where
  feed : journal.feeds[number]? = some feed
  entry : journal.store.subscribers.table[number]? = some subscriber

theorem At.updateChannel_self {journal : Journal} {number : Nat} {feed : Feed}
    {subscriber : Subscriber} (h : journal.At number feed subscriber) (change : Channel → Channel) :
    (journal.updateChannel number change).At number
      { feed with channel := change feed.channel } subscriber where
  feed := by
    simp only [updateChannel, List.getElem?_modify, if_pos, h.feed]
    rfl
  entry := h.entry

theorem At.updateChannel_other {journal : Journal} {number other : Nat} {feed : Feed}
    {subscriber : Subscriber} (h : journal.At number feed subscriber) (hother : other ≠ number)
    (change : Channel → Channel) :
    (journal.updateChannel other change).At number feed subscriber where
  feed := by
    simp only [updateChannel, List.getElem?_modify, if_neg hother, h.feed]
    rfl
  entry := h.entry

theorem At.update_self {journal : Journal} {number : Nat} {feed feed' : Feed}
    {subscriber subscriber' : Subscriber} (h : journal.At number feed subscriber) :
    (journal.update number feed' subscriber').At number feed' subscriber' where
  feed := List.getElem?_set_self (List.getElem?_eq_some_iff.mp h.feed).1
  entry := List.getElem?_set_self (List.getElem?_eq_some_iff.mp h.entry).1

theorem At.update_other {journal : Journal} {number other : Nat} {feed feed' : Feed}
    {subscriber subscriber' : Subscriber} (h : journal.At number feed subscriber)
    (hother : other ≠ number) :
    (journal.update other feed' subscriber').At number feed subscriber where
  feed := (List.getElem?_set_ne hother).trans h.feed
  entry := (List.getElem?_set_ne hother).trans h.entry

/-- What a channel update, to whatever subscription, is for one feed. -/
theorem change_updateChannel {journal : Journal} {number other : Nat} {feed : Feed}
    {subscriber : Subscriber} (h : journal.At number feed subscriber) (change : Channel → Channel)
    {handed : List Record}
    (own : other = number →
      Feed.Change feed subscriber [] handed { feed with channel := change feed.channel } subscriber)
    (foreign : other ≠ number → handed = []) :
    ∃ feed' subscriber', (journal.updateChannel other change).At number feed' subscriber' ∧
      Feed.Change feed subscriber [] handed feed' subscriber' ∧
      (decide (other = number) = false →
        handed = [] ∧ feed'.channel.isClosed = feed.channel.isClosed) := by
  by_cases hother : other = number
  · refine ⟨_, _, hother ▸ h.updateChannel_self change, own hother, fun hne => ?_⟩
    exact absurd hother (of_decide_eq_false hne)
  · rw [foreign hother]
    exact ⟨_, _, h.updateChannel_other hother change, .none feed subscriber, fun _ => ⟨rfl, rfl⟩⟩

/-- **An action as one feed sees it**: it is told the news, its pump moves, its consumer receives, or it
is shut; and the last two only by an action of its consumer. -/
theorem step_change {journal : Journal} (wired : Wired journal) {number : Nat} {feed : Feed}
    {subscriber : Subscriber} (h : journal.At number feed subscriber) (action : Action) :
    ∃ feed' subscriber', (journal.step action).At number feed' subscriber' ∧
      Feed.Change feed subscriber (journal.news action) (journal.handed number action)
        feed' subscriber' ∧
      (action.uses number = false →
        journal.handed number action = [] ∧ feed'.channel.isClosed = feed.channel.isClosed) := by
  cases action with
  | write write =>
    refine ⟨feed, subscriber.tell (write.news journal.store), ⟨h.feed, ?_⟩, .told _,
      fun _ => ⟨rfl, rfl⟩⟩
    rw [wired.table_write write, List.getElem?_map, h.entry]
    rfl
  | subscribe stream options =>
    refine ⟨feed, subscriber, ⟨?_, ?_⟩, .none feed subscriber, fun _ => ⟨rfl, rfl⟩⟩
    · exact (List.getElem?_append_left (List.getElem?_eq_some_iff.mp h.feed).1).trans h.feed
    · exact (List.getElem?_append_left (List.getElem?_eq_some_iff.mp h.entry).1).trans h.entry
  | pump other =>
    show ∃ feed' subscriber', ((journal.stepPump other).getD journal).At number feed' subscriber' ∧
      Feed.Change feed subscriber [] [] feed' subscriber' ∧
      (false = false → [] = [] ∧ feed'.channel.isClosed = feed.channel.isClosed)
    cases hstep : journal.stepPump other with
    | none => exact ⟨feed, subscriber, h, .none feed subscriber, fun _ => ⟨rfl, rfl⟩⟩
    | some after =>
      obtain ⟨moving, hmoving⟩ : ∃ moving, journal.feeds[other]? = some moving := by
        cases hfeed : journal.feeds[other]? with
        | none =>
          simp only [stepPump, hfeed] at hstep
          cases hstep
        | some moving => exact ⟨moving, rfl⟩
      obtain ⟨entry, hentry, hwired⟩ := wired.entry hmoving
      obtain ⟨feed', subscriber', move, rfl⟩ :=
        stepPump_cases hmoving hentry hwired.number hstep
      by_cases hother : other = number
      · subst hother
        cases h.feed.symm.trans hmoving
        cases h.entry.symm.trans hentry
        exact ⟨feed', subscriber', h.update_self, .moved move,
          fun _ => ⟨rfl, move.channel_frame.2.2⟩⟩
      · exact ⟨feed, subscriber, h.update_other hother, .none feed subscriber,
          fun _ => ⟨rfl, rfl⟩⟩
  | receive other =>
    refine change_updateChannel h (·.receive.2) (fun hother => ?_) (fun hother => ?_)
    · simp only [handed, hother, if_pos, h.feed]
      exact .received
    · simp only [handed, if_neg hother]
  | close other =>
    exact change_updateChannel h Channel.close (fun _ => .shut rfl) fun _ => rfl
  | drop other =>
    exact change_updateChannel h Channel.dropConsumer (fun _ => .shut rfl) fun _ => rfl

end Journal

/-! ## News from a sound store -/

/-- News of a store whose next sequence number goes from one to the other: of a clear, or of records in
order, numbered between the two. -/
inductive Announced (next next' : SequenceNumber) : List LiveMessage → Prop where
  | cleared : Announced next next' [.reset]
  | appended {records : List Record} (later : next.toInt ≤ next'.toInt)
      (ordered : records.Pairwise (·.sequence < ·.sequence))
      (numbered : ∀ record ∈ records, next.toInt ≤ record.sequence.toInt ∧
        record.sequence < next')
      (positive : ∀ record ∈ records, 0 ≤ record.version.toInt) :
      Announced next next' (records.map .record)

/-- A sound store announces a clear, or fresh records in order. -/
theorem Journal.announced {journal : Journal} (h : journal.store.Sound) (action : Action)
    (room : journal.store.nextSequence.toInt
      + ((journal.news action).filterMap LiveMessage.record?).length ≤ Int64.maxValue.toInt) :
    Announced journal.store.nextSequence (journal.step action).store.nextSequence
      (journal.news action) := by
  rcases journal.store_step action with ⟨write, rfl⟩ | ⟨hnews, subscribers, hstore⟩
  · have hnews : (journal.news (.write write)).filterMap LiveMessage.record?
        = write.appended journal.store := filterMap_news write journal.store
    rw [hnews] at room
    by_cases hc : write = .clear
    · rw [hc]
      exact .cleared
    · show Announced _ (write.after journal.store).nextSequence (write.news journal.store)
      obtain ⟨hordered, hbelow⟩ := h.appended_ordered write room
      have hnext := MemoryStore.Sound.nextSequence_after write hc room
      rw [MemoryStore.Write.news, if_neg hc]
      refine .appended (by omega) hordered (fun record hrecord => ⟨?_, hbelow record hrecord⟩) ?_
      · exact (h.appended_numbers write room hrecord).2
      · exact fun record hrecord => (h.appended_numbers write room hrecord).1
  · rw [hnews, hstore]
    have hnone : ∀ record ∈ ([] : List Record), False := fun _ h => List.not_mem_nil h
    exact .appended (Int.le_refl _) .nil (fun record h => (hnone record h).elim)
      fun record h => (hnone record h).elim

/-! ## Following the news -/

/-- Whether a record lies beyond the position where a subscription of a stream starts. -/
def Position.reaches (start : Position) (stream : StreamId) (record : Record) : Bool :=
  start.isLast || start < record.positionIn stream

/-- The records among news that a subscription of a stream is meant to get, when it starts there. -/
def reached (stream : StreamId) (start : Position) (news : List LiveMessage) : List Record :=
  (news.filterMap LiveMessage.record?).filter fun record =>
    stream.concerns record && start.reaches stream record

/-- After a clear everything announced is reached. -/
theorem reached_start {next next' : SequenceNumber} {news : List LiveMessage}
    (announced : Announced next next' news) (positive : 1 ≤ next.toInt) (stream : StreamId) :
    reached stream .start news = (news.filterMap LiveMessage.record?).filter stream.concerns := by
  refine List.filter_congr fun record hrecord => ?_
  cases announced with
  | cleared => cases hrecord
  | appended later ordered numbered version =>
    rw [Journal.filterMap_record?_map] at hrecord
    have hsequence := (numbered record hrecord).1
    have hbeyond := MemoryStore.start_lt_positionIn (by omega) (version record hrecord) stream
    rw [Position.reaches, decide_eq_true hbeyond, Bool.or_true, Bool.and_true]

/-- Where a subscription starts after news: a clear makes everything new. -/
def Position.after (start : Position) (news : List LiveMessage) : Position :=
  if .reset ∈ news then .start else start

namespace Feed

/-- What a feed goes by when its queue is heard: it starts there, and what it delivered lies below the
next sequence number. -/
structure Follows (feed : Feed) (queue : List LiveMessage) (start : Position)
    (next : SequenceNumber) : Prop where
  start : (feed.outlook queue).start = start
  delivered : ∀ sequence ∈ (feed.outlook queue).delivered, sequence < next

theorem outlook_stream (feed : Feed) (queue : List LiveMessage) :
    (feed.outlook queue).stream = feed.pump.stream :=
  PumpMemory.stream_hearAll ..

/-- A feed that goes by the same in two states follows the same. -/
theorem Follows.of_outlook {feed feed' : Feed} {queue queue' : List LiveMessage} {start : Position}
    {next : SequenceNumber} (h : feed.Follows queue start next)
    (houtlook : feed'.outlook queue' = feed.outlook queue) : feed'.Follows queue' start next := by
  refine ⟨?_, ?_⟩
  · rw [houtlook]
    exact h.start
  · rw [houtlook]
    exact h.delivered

/-- A feed with more news in its queue will deliver those it reaches, and follows the store further. -/
theorem Follows.queued {feed : Feed} {subscriber : Subscriber} {number : Nat}
    {queue : List LiveMessage} {start : Position} {next next' : SequenceNumber}
    {news : List LiveMessage} (h : feed.Follows queue start next)
    (wired : feed.Wired number subscriber) (announced : Announced next next' news) :
    feed.due (queue ++ news.filter subscriber.concerned)
        = feed.due queue ++ (reached feed.channel.stream start news).filter feed.admits ∧
      feed.Follows (queue ++ news.filter subscriber.concerned) (start.after news) next' := by
  rw [due_append]
  cases announced with
  | cleared =>
    refine ⟨rfl, ?_, ?_⟩
    · rw [outlook_append]
      rfl
    · rw [outlook_append]
      exact nofun
  | @appended records later ordered numbered positive =>
    -- what is announced is numbered beyond whatever the pump will have delivered by then
    have hfresh : ∀ sequence ∈ (feed.outlook queue).delivered,
        ∀ record ∈ subscriber.wanted records, sequence < record.sequence := by
      intro sequence hs record hrecord
      have hbelow := h.delivered sequence hs
      have hle := (numbered record (List.mem_of_mem_filter hrecord)).1
      rw [SequenceNumber.lt_iff_toInt] at hbelow ⊢
      omega
    obtain ⟨hstart, hdelivered⟩ := (feed.outlook queue).hearAll_records (subscriber.wanted records)
    rw [subscriber.filter_concerned_records, Position.after, if_neg (Journal.reset_not_mem records)]
    refine ⟨?_, ?_, ?_⟩
    · have hordered : (subscriber.wanted records).Pairwise (·.sequence < ·.sequence) :=
        ordered.sublist List.filter_sublist
      have hbeyond : (subscriber.wanted records).filter (feed.outlook queue).beyondStart
            = reached feed.channel.stream start (records.map .record) := by
        rw [reached, Journal.filterMap_record?_map, Subscriber.wanted, List.filter_filter]
        refine List.filter_congr fun record _ => ?_
        rw [PumpMemory.beyondStart, h.start, outlook_stream, wired.source, wired.stream,
          Bool.and_comm]
        rfl
      rw [PumpMemory.takes_records hordered hfresh, hbeyond]
    · rw [outlook_append, hstart, h.start]
    · intro sequence hs
      rw [outlook_append] at hs
      rcases hdelivered sequence hs with hbefore | ⟨record, hrecord, rfl⟩
      · have hbelow := h.delivered sequence hbefore
        rw [SequenceNumber.lt_iff_toInt] at hbelow ⊢
        omega
      · exact (numbered record (List.mem_of_mem_filter hrecord)).2

/-- A change hands over the first of what is due, and makes nothing due but what the feed is told; so it
is with more to come into the queue `later`. -/
theorem Change.balance {feed feed' : Feed} {subscriber subscriber' : Subscriber} {number : Nat}
    {told : List LiveMessage} {handed : List Record}
    (change : Change feed subscriber told handed feed' subscriber')
    (wired : feed.Wired number subscriber) (isOpen : feed'.channel.isClosed = false)
    (later : List LiveMessage) :
    handed ++ feed'.due (subscriber'.queue ++ later)
        = feed.due (subscriber.queue ++ told.filter subscriber.concerned ++ later) ∧
      feed'.outlook (subscriber'.queue ++ later)
        = feed.outlook (subscriber.queue ++ told.filter subscriber.concerned ++ later) := by
  cases change with
  | told told =>
    have hregistered : subscriber.registered = true := by
      rw [wired.registered, wired.active isOpen]
      rfl
    rw [Subscriber.tell, if_pos hregistered]
    exact ⟨rfl, rfl⟩
  | moved move =>
    obtain ⟨-, hoptions, hclosed⟩ := move.channel_frame
    obtain ⟨hdue, houtlook⟩ := move.due wired (hclosed ▸ isOpen)
    have hadmits : feed'.admits = feed.admits := by
      funext record
      rw [admits, admits, hoptions]
    rw [List.filter_nil, List.append_nil, List.nil_append]
    refine ⟨?_, ?_⟩
    · rw [due_append, due_append, hdue, houtlook, hadmits]
    · rw [outlook_append, outlook_append, houtlook]
  | received =>
    have hadmits : Feed.admits { feed with channel := feed.channel.receive.2 } = feed.admits := by
      funext record
      rw [admits, admits, feed.channel.later_receive.options]
    rw [List.filter_nil, List.append_nil]
    refine ⟨?_, rfl⟩
    rw [due, hadmits, ← List.append_assoc, feed.channel.found_append_record]
    rfl
  | shut closed =>
    rw [closed] at isOpen
    cases isOpen

/-- **One step of the accounting**: what a consumer is handed and what is due to it then are what was due
before and, of the news, the records that its subscription reaches and its filter admits. -/
theorem Follows.change {feed feed' : Feed} {subscriber subscriber' : Subscriber} {number : Nat}
    {start : Position} {next next' : SequenceNumber} {news : List LiveMessage} {handed : List Record}
    (h : feed.Follows subscriber.queue start next) (wired : feed.Wired number subscriber)
    (announced : Announced next next' news)
    (change : Change feed subscriber news handed feed' subscriber')
    (isOpen : feed'.channel.isClosed = false) :
    handed ++ feed'.due subscriber'.queue
        = feed.due subscriber.queue
          ++ (reached feed.channel.stream start news).filter feed.admits ∧
      feed'.Follows subscriber'.queue (start.after news) next' := by
  obtain ⟨hqueued, hfollows⟩ := h.queued wired announced
  obtain ⟨hdue, houtlook⟩ := change.balance wired isOpen []
  simp only [List.append_nil] at hdue houtlook
  exact ⟨hdue.trans hqueued, hfollows.of_outlook houtlook⟩

end Feed

/-! ## Opening a subscription -/

theorem MemoryStore.mem_of_mem_backlog (store : MemoryStore) {stream : StreamId}
    {options : SubscribeOptions} {record : Record} (h : record ∈ store.backlog stream options) : record ∈ store.records := by
  rw [MemoryStore.backlog] at h
  cases hstart : options.backlogStart with
  | none =>
    rw [hstart] at h
    cases h
  | some position =>
    rw [hstart] at h
    exact List.mem_of_mem_filter (List.mem_of_mem_filter h)

namespace Journal

variable {journal : Journal}

/-- The feed of a subscription that is opened. -/
def opened (journal : Journal) (stream : StreamId) (options : SubscribeOptions) : Feed :=
  ⟨Channel.create stream options, Pump.create (Channel.create stream options)
    (journal.store.backlog stream options) journal.store.subscribers.table.length⟩

theorem at_subscribe (wired : Wired journal) (stream : StreamId) (options : SubscribeOptions) :
    (journal.step (.subscribe stream options)).At journal.feeds.length
      (journal.opened stream options) ⟨stream, [], true, true⟩ where
  feed := List.getElem?_concat_length
  entry := by
    rw [wired.size]
    exact List.getElem?_concat_length

/-- An opened subscription starts at its position, below the next sequence number. -/
theorem follows_subscribe (sound : journal.store.Sound) (stream : StreamId)
    (options : SubscribeOptions) :
    (journal.opened stream options).Follows [] options.position journal.store.nextSequence := by
  refine ⟨rfl, fun sequence hs => ?_⟩
  change sequence ∈ ((journal.store.backlog stream options).getLast?.map Record.sequence).or none
    at hs
  rw [Option.or_none] at hs
  obtain ⟨record, hrecord, rfl⟩ := Option.map_eq_some_iff.mp hs
  have hmem := List.mem_of_getLast? hrecord
  exact (sound.numbered record (journal.store.mem_of_mem_backlog hmem)).2

end Journal

end EventJournal
