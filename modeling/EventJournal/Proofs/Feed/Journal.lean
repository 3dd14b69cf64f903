import EventJournal.Proofs.Store.Soundness

/-!
# A journal at work

A journal is a store in memory with the subscriptions opened on it. Writers, pumps and consumers act on
it in any order: a run is a list of actions, each atomic, and nothing is assumed of their order. An
action that cannot happen (the pump waits, there is no such subscription) changes nothing.

* `MemoryStore.Write.news` — what a write tells the subscribers.
* `Journal.run`, `Journal.history`, `Journal.received` — what a run leaves, what it announces, and what a
  consumer receives in it.
* `indexed_run`, `sound_run` — the invariants of the store under a journal.
-/

namespace EventJournal

/-! ## What a write tells the subscribers -/

/-- The record that a message carries. -/
def LiveMessage.record? : LiveMessage → Option Record
  | .record item => some item
  | _ => none

/-- What happened to the records in a write: which were appended, or that all were cleared. -/
def MemoryStore.Write.news (write : MemoryStore.Write) (store : MemoryStore) : List LiveMessage :=
  if write = .clear then [.reset] else (write.appended store).map .record

/-- Whether a subscriber is told of something. -/
def Subscriber.concerned (subscriber : Subscriber) : LiveMessage → Bool
  | .record record => subscriber.stream.concerns record
  | _ => true

/-- A subscriber told of what happened to the records. -/
def Subscriber.tell (subscriber : Subscriber) (news : List LiveMessage) : Subscriber :=
  if subscriber.registered then
    { subscriber with queue := subscriber.queue ++ news.filter subscriber.concerned }
  else subscriber

namespace Subscriber

theorem filter_concerned_records (subscriber : Subscriber) (records : List Record) :
    (records.map LiveMessage.record).filter subscriber.concerned
      = (subscriber.wanted records).map .record := by
  rw [List.filter_map]
  rfl

/-- Delivering records to a subscriber that listens as long as it is registered tells it of them. -/
theorem deliver_eq_tell {subscriber : Subscriber}
    (h : subscriber.listening = subscriber.registered) (records : List Record) :
    subscriber.deliver records = subscriber.tell (records.map .record) := by
  unfold deliver tell push
  rw [h, filter_concerned_records]
  cases subscriber.registered <;> rfl

/-- Queueing what concerns a subscriber tells it of that. -/
theorem push_eq_tell {subscriber : Subscriber} (h : subscriber.listening = subscriber.registered)
    {messages : List LiveMessage} (concerned : ∀ message ∈ messages, subscriber.concerned message = true) :
    subscriber.push messages = subscriber.tell messages := by
  unfold tell push
  rw [h, Bool.and_self, List.filter_eq_self.mpr concerned]

theorem tell_nil (subscriber : Subscriber) : subscriber.tell [] = subscriber := by
  unfold tell
  split <;> simp

end Subscriber

/-- A write tells every subscriber its news. -/
theorem MemoryStore.Write.table_after (write : MemoryStore.Write) (store : MemoryStore)
    (h : ∀ subscriber ∈ store.subscribers.table, subscriber.listening = subscriber.registered) :
    (write.after store).subscribers.table
      = store.subscribers.table.map (·.tell (write.news store)) := by
  by_cases hc : write = .clear
  · subst hc
    exact List.map_congr_left fun subscriber hmem =>
      Subscriber.push_eq_tell (h _ hmem) (List.forall_mem_singleton.mpr rfl)
  · -- what a write removes is no news
    have hkept := write.subscribers_kept store hc
    rw [news, if_neg hc]
    rcases write.after_cases store hc with ⟨ha, hn⟩ | ⟨now, events, -, ha, hn⟩
    · rw [ha, hn, hkept]
      exact (List.map_id'' Subscriber.tell_nil _).symm
    · rw [ha, hn, MemoryStore.add_eq, hkept]
      exact List.map_congr_left fun subscriber hmem => Subscriber.deliver_eq_tell (h _ hmem) _

/-- The record that a consumer finds when it receives. -/
def Channel.found (channel : Channel) : List Record :=
  match channel.receive.1 with
  | .item (.ok record) => [record]
  | _ => []

/-! ## Journals -/

/-- A subscription at work: its channel and the pump that feeds it. -/
structure Feed where
  channel : Channel
  pump : Pump
  deriving Repr, DecidableEq, Inhabited

/-- A store in memory with the subscriptions opened on it, the oldest first. -/
structure Journal where
  store : MemoryStore
  feeds : List Feed
  deriving Repr, DecidableEq, Inhabited

namespace Journal

/-- What can happen to a journal. Subscriptions are named by their places. -/
inductive Action where
  | write (write : MemoryStore.Write)
  | subscribe (stream : StreamId) (options : SubscribeOptions)
  /-- The pump of a subscription makes a step. -/
  | pump (number : Nat)
  /-- The consumer receives, if something is waiting. -/
  | receive (number : Nat)
  | close (number : Nat)
  | drop (number : Nat)
  deriving Repr, DecidableEq, Inhabited

/-- An empty store without subscriptions. -/
def empty : Journal := ⟨.empty, []⟩

/-- Changes the channel of a subscription. -/
def updateChannel (journal : Journal) (number : Nat) (change : Channel → Channel) : Journal :=
  { journal with
    feeds := journal.feeds.modify number fun feed => { feed with channel := change feed.channel } }

/-- Replaces a subscription and its entry among the subscribers. -/
def update (journal : Journal) (number : Nat) (feed : Feed) (subscriber : Subscriber) : Journal :=
  { store := { journal.store with
      subscribers := ⟨journal.store.subscribers.table.set number subscriber⟩ },
    feeds := journal.feeds.set number feed }

/-- One step of the pump of a subscription; nothing when it ended or waits. -/
def stepPump (journal : Journal) (number : Nat) : Option Journal :=
  match journal.feeds[number]? with
  | none => none
  | some feed =>
    (PumpView.step ⟨feed.pump, feed.channel, journal.store.subscribers⟩).map fun (view, _) =>
      { store := { journal.store with subscribers := view.subscribers },
        feeds := journal.feeds.set number ⟨view.channel, view.pump⟩ }

/-- The journal after an action. -/
def step (journal : Journal) : Action → Journal
  | .write write => { journal with store := write.after journal.store }
  | .subscribe stream options =>
    let (store, channel, pump, _) := journal.store.subscribe stream options
    ⟨store, journal.feeds ++ [⟨channel, pump⟩]⟩
  | .pump number => (journal.stepPump number).getD journal
  | .receive number => journal.updateChannel number (·.receive.2)
  | .close number => journal.updateChannel number Channel.close
  | .drop number => journal.updateChannel number Channel.dropConsumer

/-- What happened to the records in an action. -/
def news (journal : Journal) : Action → List LiveMessage
  | .write write => write.news journal.store
  | _ => []

/-- Whether an action is the consumer's of a subscription. -/
def Action.uses (number : Nat) : Action → Bool
  | .receive other => other = number
  | .close other => other = number
  | .drop other => other = number
  | _ => false

/-- The record that the consumer of a subscription receives in an action. -/
def handed (journal : Journal) (number : Nat) : Action → List Record
  | .receive other =>
    if other = number then (journal.feeds[number]?).elim [] (·.channel.found) else []
  | _ => []

/-- The journal after a list of actions. -/
def run (journal : Journal) : List Action → Journal
  | [] => journal
  | action :: rest => (journal.step action).run rest

/-- What happened to the records in a list of actions, in order. -/
def history (journal : Journal) : List Action → List LiveMessage
  | [] => []
  | action :: rest => journal.news action ++ (journal.step action).history rest

/-- The records that the consumer of a subscription receives in a list of actions, in order. -/
def received (journal : Journal) (number : Nat) : List Action → List Record
  | [] => []
  | action :: rest => journal.handed number action ++ (journal.step action).received number rest

/-- The records appended in a list of actions, in order. -/
def appended (journal : Journal) (actions : List Action) : List Record :=
  (journal.history actions).filterMap LiveMessage.record?

/-- The subscription of a number is open: neither closed nor dropped. -/
def IsOpen (journal : Journal) (number : Nat) : Prop :=
  ∃ feed, journal.feeds[number]? = some feed ∧ feed.channel.isClosed = false

theorem run_append (journal : Journal) (earlier later : List Action) :
    journal.run (earlier ++ later) = (journal.run earlier).run later := by
  induction earlier generalizing journal with
  | nil => rfl
  | cons action rest ih => exact ih (journal.step action)

theorem history_append (journal : Journal) (earlier later : List Action) :
    journal.history (earlier ++ later)
      = journal.history earlier ++ (journal.run earlier).history later := by
  induction earlier generalizing journal with
  | nil => rfl
  | cons action rest ih =>
    rw [List.cons_append, history, history, ih, List.append_assoc]
    rfl

/-! ## The store under a journal -/

/-- Whatever is not a write changes the subscribers of the store at most, and is no news. -/
theorem store_step (journal : Journal) (action : Action) :
    (∃ write, action = .write write) ∨
      journal.news action = [] ∧
        ∃ subscribers, (journal.step action).store = { journal.store with subscribers } := by
  cases action with
  | write write => exact .inl ⟨write, rfl⟩
  | subscribe stream options => exact .inr ⟨rfl, _, rfl⟩
  | pump number =>
    refine .inr ⟨rfl, ?_⟩
    show ∃ subscribers, ((journal.stepPump number).getD journal).store = _
    unfold stepPump
    split
    · exact ⟨_, rfl⟩
    · cases PumpView.step ⟨_, _, journal.store.subscribers⟩ with
      | none => exact ⟨_, rfl⟩
      | some after => exact ⟨_, rfl⟩
  | receive number => exact .inr ⟨rfl, _, rfl⟩
  | close number => exact .inr ⟨rfl, _, rfl⟩
  | drop number => exact .inr ⟨rfl, _, rfl⟩

/-- The index of the store agrees with its records, whatever happens. -/
theorem indexed_run {journal : Journal} (h : journal.store.Indexed) (actions : List Action) :
    (journal.run actions).store.Indexed := by
  induction actions generalizing journal with
  | nil => exact h
  | cons action rest ih =>
    refine ih ?_
    rcases journal.store_step action with ⟨write, rfl⟩ | ⟨-, subscribers, hstore⟩
    · exact h.after write
    · rw [hstore]
      exact h.withSubscribers subscribers

theorem filterMap_record?_map (records : List Record) :
    (records.map LiveMessage.record).filterMap LiveMessage.record? = records := by
  rw [List.filterMap_map]
  exact List.filterMap_some ..

theorem reset_not_mem (records : List Record) :
    LiveMessage.reset ∉ records.map LiveMessage.record := by
  intro h
  obtain ⟨record, -, hrecord⟩ := List.mem_map.mp h
  cases hrecord

theorem filterMap_news (write : MemoryStore.Write) (store : MemoryStore) :
    (write.news store).filterMap LiveMessage.record? = write.appended store := by
  unfold MemoryStore.Write.news
  split
  · rename_i hc
    rw [hc, MemoryStore.Write.appended_clear]
    rfl
  · exact filterMap_record?_map _

theorem appended_cons (journal : Journal) (action : Action) (rest : List Action) :
    journal.appended (action :: rest)
      = (journal.news action).filterMap LiveMessage.record?
        ++ (journal.step action).appended rest :=
  List.filterMap_append ..

theorem appended_append (journal : Journal) (earlier later : List Action) :
    journal.appended (earlier ++ later)
      = journal.appended earlier ++ (journal.run earlier).appended later := by
  rw [appended, history_append, List.filterMap_append]
  rfl

/-- An action keeps the store sound as long as the sequence numbers do not run out, and uses up no
more of them than it appends records. -/
theorem sound_step {journal : Journal} (h : journal.store.Sound) (action : Action)
    (room : journal.store.nextSequence.toInt
      + ((journal.news action).filterMap LiveMessage.record?).length ≤ Int64.maxValue.toInt) :
    (journal.step action).store.Sound ∧
      (journal.step action).store.nextSequence.toInt ≤ journal.store.nextSequence.toInt
        + ((journal.news action).filterMap LiveMessage.record?).length := by
  rcases journal.store_step action with ⟨write, rfl⟩ | ⟨-, subscribers, hstore⟩
  · have hnews : (journal.news (.write write)).filterMap LiveMessage.record?
        = write.appended journal.store := filterMap_news write journal.store
    rw [hnews] at room ⊢
    exact ⟨h.after write room, h.nextSequence_after_le write room⟩
  · rw [hstore]
    refine ⟨h.withSubscribers subscribers, ?_⟩
    show journal.store.nextSequence.toInt ≤ _
    omega

/-- A run of actions keeps the store sound as long as the sequence numbers do not run out; `count`
records were appended before it. -/
theorem sound_run {journal : Journal} (h : journal.store.Sound) (actions : List Action) (count : Nat)
    (hcount : journal.store.nextSequence.toInt ≤ count + 1)
    (few : (count : Int) + (journal.appended actions).length < Int64.maxValue.toInt) :
    (journal.run actions).store.Sound ∧
      (journal.run actions).store.nextSequence.toInt
        ≤ count + (journal.appended actions).length + 1 := by
  induction actions generalizing journal count with
  | nil =>
    refine ⟨h, ?_⟩
    show journal.store.nextSequence.toInt ≤ _
    omega
  | cons action rest ih =>
    rw [appended_cons, List.length_append, Int.natCast_add] at few ⊢
    obtain ⟨hsound, hnext⟩ := sound_step h action (by omega)
    have hrest := ih hsound
      (count + ((journal.news action).filterMap LiveMessage.record?).length) (by omega) (by omega)
    refine ⟨hrest.1, ?_⟩
    have hle := hrest.2
    rw [run]
    omega

/-- The store under a journal is sound, and has used up no more sequence numbers than it appended
records, as long as they do not run out. -/
theorem sound_run_empty (actions : List Action)
    (few : ((empty.appended actions).length : Int) < Int64.maxValue.toInt) :
    (empty.run actions).store.Sound ∧
      (empty.run actions).store.nextSequence.toInt ≤ (empty.appended actions).length + 1 := by
  have hempty : empty.store.Sound := MemoryStore.Sound.empty .empty
  have hrun := sound_run hempty actions 0 (by decide) (by omega)
  rw [Int.natCast_zero, Int.zero_add] at hrun
  exact hrun

end Journal

end EventJournal
