import EventJournal.Proofs.Feed.Follow

/-!
# Delivery in order

A subscription gets what is stored beyond the position where it starts, and then what is appended, in
that order: each record once, and none that its filter rejects. `expected` is the list of these records,
told from the records stored when the subscription was opened and from what happened to the records
since; the state of the pump does not occur in it.

* `Feed.Tracks` — what was received and what is due make up what is expected.
* `tracks_subscribe`, `tracks_step`, `tracks_run` — it holds from the opening on, whatever happens.
* `delivered_in_order` — the main statement, over all runs.
-/

namespace EventJournal

/-! ## What a subscription is meant to get -/

/-- The records that a subscription of a stream is meant to get when it starts at a position: those
stored beyond it, unless it starts after the last one; those appended before the first clear, unless
they lie before the start; and all that are appended after that. -/
def expected (stream : StreamId) (start : Position) (stored : List Record)
    (news : List LiveMessage) : List Record :=
  (if start.isLast then []
    else stored.filter fun record => stream.concerns record && start < record.positionIn stream)
  ++ reached stream start (news.takeWhile (· ≠ .reset))
  ++ ((news.dropWhile (· ≠ .reset)).filterMap LiveMessage.record?).filter stream.concerns

theorem expected_nil (stream : StreamId) (start : Position) (stored : List Record) :
    expected stream start stored []
      = if start.isLast then []
        else stored.filter fun record => stream.concerns record && start < record.positionIn stream :=
  (List.append_nil _).trans (List.append_nil _)

/-- What is stored comes first, and then what the news brings. -/
theorem expected_split (stream : StreamId) (start : Position) (stored : List Record)
    (news : List LiveMessage) :
    expected stream start stored news
      = expected stream start stored [] ++ expected stream start [] news := by
  rw [expected_nil, expected, expected, List.filter_nil, ite_self, List.nil_append, List.append_assoc]

theorem Position.after_append (start : Position) (news more : List LiveMessage) :
    start.after (news ++ more) = (start.after news).after more := by
  simp only [after, List.mem_append]
  by_cases hn : .reset ∈ news <;> by_cases hm : .reset ∈ more <;> simp [hn, hm]

theorem reached_append (stream : StreamId) (start : Position) (news more : List LiveMessage) :
    reached stream start (news ++ more)
      = reached stream start news ++ reached stream start more := by
  rw [reached, List.filterMap_append, List.filter_append]
  rfl

/-- Whatever follows the first clear comes after it. -/
theorem split_append_of_mem {news : List LiveMessage} (h : .reset ∈ news)
    (more : List LiveMessage) :
    (news ++ more).takeWhile (· ≠ .reset) = news.takeWhile (· ≠ .reset) ∧
      (news ++ more).dropWhile (· ≠ .reset) = news.dropWhile (· ≠ .reset) ++ more := by
  induction news with
  | nil => cases h
  | cons message rest ih =>
    by_cases hm : message = .reset
    · subst hm
      exact ⟨rfl, rfl⟩
    · have hrest : .reset ∈ rest := (List.mem_cons.mp h).resolve_left (Ne.symm hm)
      obtain ⟨htake, hdrop⟩ := ih hrest
      simp only [List.cons_append, List.takeWhile_cons, List.dropWhile_cons, hm, ne_eq,
        not_false_eq_true, decide_true, if_true]
      exact ⟨congrArg _ htake, hdrop⟩

/-- As long as there was no clear the next news decides. -/
theorem split_append_of_not_mem {news : List LiveMessage} (h : .reset ∉ news)
    (more : List LiveMessage) :
    (news ++ more).takeWhile (· ≠ .reset) = news ++ more.takeWhile (· ≠ .reset) ∧
      (news ++ more).dropWhile (· ≠ .reset) = more.dropWhile (· ≠ .reset) := by
  have hall : ∀ message ∈ news, decide (message ≠ .reset) = true :=
    fun message hmem => decide_eq_true fun heq => h (heq ▸ hmem)
  exact ⟨List.takeWhile_append_of_pos hall, List.dropWhile_append_of_pos hall⟩

/-- Of records that come before all other news those are expected that the subscription reaches. -/
theorem expected_records_append (stream : StreamId) (start : Position) (records : List Record)
    (news : List LiveMessage) :
    expected stream start [] (records.map .record ++ news)
      = reached stream start (records.map .record) ++ expected stream start [] news := by
  obtain ⟨htake, hdrop⟩ := split_append_of_not_mem (Journal.reset_not_mem records) news
  rw [expected, expected, htake, hdrop, reached_append, List.filter_nil, ite_self, List.nil_append,
    List.nil_append, List.append_assoc]

/-- After a clear everything appended is expected. -/
theorem expected_reset_cons (stream : StreamId) (start : Position) (news : List LiveMessage) :
    expected stream start [] (.reset :: news)
      = (news.filterMap LiveMessage.record?).filter stream.concerns := by
  rw [expected, List.filter_nil, ite_self]
  rfl

/-- Announced news is cleared at once or not at all. -/
theorem Announced.split {next next' : SequenceNumber} {news : List LiveMessage}
    (h : Announced next next' news) (stream : StreamId) (start : Position) :
    reached stream start (news.takeWhile (· ≠ .reset)) = reached stream start news ∧
      (news.dropWhile (· ≠ .reset)).filterMap LiveMessage.record? = [] := by
  cases h with
  | cleared => exact ⟨rfl, rfl⟩
  | @appended records later ordered numbered positive =>
    obtain ⟨htake, hdrop⟩ := split_append_of_not_mem (Journal.reset_not_mem records) []
    rw [List.append_nil] at htake hdrop
    rw [htake, hdrop]
    exact ⟨congrArg _ (List.append_nil _), rfl⟩

/-- What more is expected when there is more news. -/
theorem expected_append {next next' : SequenceNumber} {more : List LiveMessage}
    (announced : Announced next next' more) (positive : 1 ≤ next.toInt) (stream : StreamId)
    (start : Position) (stored : List Record) (news : List LiveMessage) :
    expected stream start stored (news ++ more)
      = expected stream start stored news ++ reached stream (start.after news) more := by
  by_cases h : .reset ∈ news
  · -- all news comes after the first clear
    obtain ⟨htake, hdrop⟩ := split_append_of_mem h more
    rw [expected, expected, htake, hdrop, Position.after, if_pos h,
      reached_start announced positive, List.filterMap_append, List.filter_append,
      ← List.append_assoc]
  · -- there was no clear yet, and a clear brings no record with it
    obtain ⟨htake, hdrop⟩ := split_append_of_not_mem h more
    obtain ⟨hmore, hnone⟩ := announced.split stream start
    obtain ⟨hsame, hrest⟩ := split_append_of_not_mem h []
    rw [List.append_nil] at hsame hrest
    rw [expected, expected, htake, hdrop, hsame, hrest, hnone, Position.after, if_neg h,
      reached_append, hmore]
    simp [List.append_assoc]

/-! ## Accounting for a subscription -/

/-- What a subscription received and what is due to it make up what is expected. -/
structure Feed.Tracks (feed : Feed) (subscriber : Subscriber) (next : SequenceNumber)
    (stream : StreamId) (options : SubscribeOptions) (stored : List Record)
    (news : List LiveMessage) (received : List Record) : Prop where
  sameStream : feed.channel.stream = stream
  sameOptions : feed.channel.options = options
  follows : feed.Follows subscriber.queue (options.position.after news) next
  balance : received ++ feed.due subscriber.queue
    = (expected stream options.position stored news).filter (options.admitsType ·.typeName)

namespace MemoryStore

/-- A subscription starts with the stored records beyond its position. -/
theorem backlog_eq (store : MemoryStore) (stream : StreamId) (options : SubscribeOptions) :
    store.backlog stream options = expected stream options.position store.records [] := by
  rw [backlog, SubscribeOptions.backlogStart, expected_nil]
  by_cases h : options.position.isLast = true
  · rw [if_pos h, if_pos h]
  · rw [if_neg h, if_neg h]
    show List.filter _ (List.filter _ store.records) = _
    rw [List.filter_filter]
    refine List.filter_congr fun record _ => ?_
    rw [Bool.and_comm]
    show (stream.concerns record && (decide _ && true)) = _
    rw [Bool.and_true]

end MemoryStore

namespace Journal

variable {journal : Journal} {number : Nat} {feed : Feed} {subscriber : Subscriber}
  {stream : StreamId} {options : SubscribeOptions} {stored received : List Record}
  {news : List LiveMessage}

/-- A subscription that is open after a run was open before it. -/
theorem isOpen_of_run (wired : Wired journal) (h : journal.At number feed subscriber)
    (actions : List Action) (isOpen : (journal.run actions).IsOpen number) :
    feed.channel.isClosed = false := by
  induction actions generalizing journal feed subscriber with
  | nil =>
    obtain ⟨found, hfound, hopen⟩ := isOpen
    cases h.feed.symm.trans hfound
    exact hopen
  | cons action rest ih =>
    obtain ⟨feed', subscriber', hat, change, -⟩ := step_change wired h action
    exact (change.frame (ih (wired.step action) hat isOpen)).1

/-- At the opening what is stored beyond the start is due. -/
theorem tracks_subscribe (sound : journal.store.Sound) (stream : StreamId)
    (options : SubscribeOptions) :
    (journal.opened stream options).Tracks ⟨stream, [], true, true⟩ journal.store.nextSequence
      stream options journal.store.records [] [] := by
  refine ⟨rfl, rfl, follows_subscribe sound stream options, ?_⟩
  rw [← MemoryStore.backlog_eq]
  show (journal.store.backlog stream options ++ []).filter _ = _
  rw [List.append_nil]
  rfl

/-- Every action keeps the accounts of a subscription that it leaves open. -/
theorem tracks_step (wired : Wired journal) (sound : journal.store.Sound)
    (h : journal.At number feed subscriber)
    (tracks : feed.Tracks subscriber journal.store.nextSequence stream options stored news received)
    (action : Action)
    (room : journal.store.nextSequence.toInt
      + ((journal.news action).filterMap LiveMessage.record?).length ≤ Int64.maxValue.toInt) :
    ∃ feed' subscriber', (journal.step action).At number feed' subscriber' ∧
      (feed'.channel.isClosed = false →
        feed'.Tracks subscriber' (journal.step action).store.nextSequence stream options stored
          (news ++ journal.news action) (received ++ journal.handed number action)) := by
  obtain ⟨feed', subscriber', hat, change, -⟩ := step_change wired h action
  refine ⟨feed', subscriber', hat, fun isOpen => ?_⟩
  have announced := journal.announced sound action room
  have hwired := wired.feeds h.feed h.entry
  obtain ⟨-, hstream, hoptions⟩ := change.frame isOpen
  obtain ⟨hdue, hfollows⟩ := tracks.follows.change hwired announced change isOpen
  have hadmits : feed.admits = (options.admitsType ·.typeName) := by
    funext record
    rw [Feed.admits, tracks.sameOptions]
  refine ⟨hstream.trans tracks.sameStream, hoptions.trans tracks.sameOptions, ?_, ?_⟩
  · rw [Position.after_append]
    exact hfollows
  · rw [expected_append announced sound.first, List.filter_append, ← tracks.balance,
      List.append_assoc, List.append_assoc, hdue, tracks.sameStream, hadmits]

/-- A run keeps the accounts of a subscription that it leaves open; `count` records were appended before
it. -/
theorem tracks_run (wired : Wired journal) (sound : journal.store.Sound)
    (h : journal.At number feed subscriber)
    (tracks : feed.Tracks subscriber journal.store.nextSequence stream options stored news received)
    (actions : List Action) (count : Nat) (hcount : journal.store.nextSequence.toInt ≤ count + 1)
    (few : (count : Int) + (journal.appended actions).length < Int64.maxValue.toInt)
    (isOpen : (journal.run actions).IsOpen number) :
    ∃ feed' subscriber', (journal.run actions).At number feed' subscriber' ∧
      feed'.Tracks subscriber' (journal.run actions).store.nextSequence stream options stored
        (news ++ journal.history actions) (received ++ journal.received number actions) := by
  induction actions generalizing journal feed subscriber news received count with
  | nil =>
    rw [history, Journal.received, List.append_nil, List.append_nil]
    exact ⟨feed, subscriber, h, tracks⟩
  | cons action rest ih =>
    rw [appended_cons, List.length_append, Int.natCast_add] at few
    obtain ⟨hsound, hnext⟩ := sound_step sound action (by omega)
    obtain ⟨feed', subscriber', hat, htracks⟩ :=
      tracks_step wired sound h tracks action (by omega)
    have hopen := isOpen_of_run (wired.step action) hat rest isOpen
    have hrest := ih (wired.step action) hsound hat (htracks hopen)
      (count + ((journal.news action).filterMap LiveMessage.record?).length) (by omega) (by omega)
      isOpen
    rw [List.append_assoc, List.append_assoc] at hrest
    exact hrest

/-- **Delivery in order**: whatever happens before a subscription is opened and after it, as long as it
is open the records received are the first of those expected, and all of them once its pump waits and
its channel is empty. -/
theorem delivered_in_order (before : List Action) (stream : StreamId) (options : SubscribeOptions)
    (after : List Action)
    (few : ((empty.appended (before ++ .subscribe stream options :: after)).length : Int)
      < Int64.maxValue.toInt)
    (isOpen : (empty.run (before ++ .subscribe stream options :: after)).IsOpen
      (empty.run before).feeds.length) :
    let opening := empty.run before
    let opened := opening.step (.subscribe stream options)
    let number := opening.feeds.length
    let meant := (expected stream options.position opening.store.records
      (opened.history after)).filter (options.admitsType ·.typeName)
    opened.received number after <+: meant ∧
      ((opened.run after).Idle number → opened.received number after = meant) := by
  intro opening opened number meant
  have hafter : opening.appended (.subscribe stream options :: after) = opened.appended after :=
    List.nil_append _
  rw [appended_append, hafter, List.length_append, Int.natCast_add] at few
  rw [run_append] at isOpen
  obtain ⟨hsound, hnext⟩ := sound_run_empty before (by omega)
  have hwired : Wired opening := Wired.empty.run before
  have hopened : opened.store.Sound := hsound.withSubscribers _
  obtain ⟨feed', subscriber', hat', htracks'⟩ :=
    tracks_run (hwired.step _) hopened (at_subscribe hwired stream options)
      (tracks_subscribe hsound stream options) after _ hnext few isOpen
  have hbalance : opened.received number after ++ feed'.due subscriber'.queue = meant :=
    htracks'.balance
  refine ⟨⟨_, hbalance⟩, ?_⟩
  rintro ⟨hwaits, found, hfound, hrecord, herror⟩
  cases hat'.feed.symm.trans hfound
  have hwired' := ((hwired.step _).run after).feeds hat'.feed hat'.entry
  have hopen : feed'.channel.isClosed = false := by
    obtain ⟨other, hother, hopen⟩ := isOpen
    cases hat'.feed.symm.trans hother
    exact hopen
  have hdrained := drained_of_waiting hat'.feed hat'.entry hwired' hopen hrecord herror hwaits
  rw [Feed.due_of_drained hdrained, List.append_nil] at hbalance
  exact hbalance

/-- Two records are stored; a subscription starts after the first one and rejects a type. -/
def sampleOpening : List Action :=
  [.write (.append ⟨"a"⟩ [⟨⟨"1"⟩, "t", .null, .empty⟩, ⟨⟨"2"⟩, "t", .null, .empty⟩] none default)]

def sampleOptions : SubscribeOptions := ⟨⟨0⟩, some (.exclude ["u"])⟩

/-- The store is cleared and written anew while the pump is at its backlog. -/
def sampleActions : List Action :=
  [.pump 0, .write .clear,
    .write (.append ⟨"a"⟩ [⟨⟨"1"⟩, "t", .null, .empty⟩, ⟨⟨"3"⟩, "u", .null, .empty⟩] none default),
    .pump 0, .receive 0, .pump 0, .pump 0, .pump 0, .pump 0, .pump 0, .receive 0]

theorem delivered_in_order_sample :
    ((empty.appended (sampleOpening ++ .subscribe ⟨"a"⟩ sampleOptions :: sampleActions)).length : Int)
        < Int64.maxValue.toInt ∧
      (empty.run (sampleOpening ++ .subscribe ⟨"a"⟩ sampleOptions :: sampleActions)).IsOpen 0 ∧
      (((empty.run sampleOpening).step (.subscribe ⟨"a"⟩ sampleOptions)).received 0
          sampleActions).map (·.id.name) = ["2", "1"] ∧
      ((empty.run sampleOpening).step (.subscribe ⟨"a"⟩ sampleOptions)).received 0 sampleActions
        = (expected ⟨"a"⟩ ⟨0⟩ (empty.run sampleOpening).store.records
            (((empty.run sampleOpening).step (.subscribe ⟨"a"⟩ sampleOptions)).history
              sampleActions)).filter (sampleOptions.admitsType ·.typeName) :=
  have few : ((empty.appended
      (sampleOpening ++ .subscribe ⟨"a"⟩ sampleOptions :: sampleActions)).length : Int)
        < Int64.maxValue.toInt := by decide
  have isOpen :
      (empty.run (sampleOpening ++ .subscribe ⟨"a"⟩ sampleOptions :: sampleActions)).IsOpen 0 :=
    ⟨_, rfl, by decide⟩
  ⟨few, isOpen, by decide,
    (delivered_in_order sampleOpening ⟨"a"⟩ sampleOptions sampleActions few isOpen).2
      ⟨by decide, _, rfl, by decide, by decide⟩⟩

end Journal

end EventJournal
