import EventJournal.Proofs.Feed.Wired

/-!
# Records in flight

A record on its way to a consumer waits in the channel, in the hand of the pump, in the backlog or in
the queue; whether one in the queue will be delivered depends on what the pump will remember when it
hears of it. `PumpMemory` is that part of a pump, and `PumpMemory.hearAll` runs it ahead of the queue, so
that what a write adds to the queue adds to what is in flight by itself:

* `takes_append` — what a pump takes up from two lists of messages, one after the other.
* `takes_ordered`, `takes_records` — of records in order the pump takes up those that are not old, and of
  fresh ones those beyond its start.
* `PumpMove.due` — a move of the pump loses no record that is due, and makes none.
* `Feed.due_append`, `Channel.found_append_record` — what comes into the queue adds to what is due what
  the pump will take up of it; a consumer receives the first of the records that are due.
* `PumpView.drained_of_waiting` — where nothing moves by itself, nothing is due.
-/

namespace EventJournal

/-! ## What a pump remembers -/

/-- What a pump goes by when it decides whether a live record is old. -/
structure PumpMemory where
  stream : StreamId
  start : Position
  delivered : Option SequenceNumber
  deriving Repr, DecidableEq, Inhabited

namespace PumpMemory

/-- Whether a record was delivered already or lies before the start. -/
def isOld (memory : PumpMemory) (record : Record) : Bool :=
  memory.delivered.any (fun sequence => record.sequence ≤ sequence) ||
    (!memory.start.isLast && record.positionIn memory.stream ≤ memory.start)

/-- The memory after a message. -/
def hear (memory : PumpMemory) : LiveMessage → PumpMemory
  | .record record =>
    if memory.isOld record then memory else { memory with delivered := some record.sequence }
  | .failed _ => memory
  | .reset => { memory with delivered := none, start := .start }

/-- The memory after all messages of a list. -/
def hearAll (memory : PumpMemory) (messages : List LiveMessage) : PumpMemory :=
  messages.foldl hear memory

/-- The record that is taken up from a message. -/
def taken (memory : PumpMemory) : LiveMessage → List Record
  | .record record => if memory.isOld record then [] else [record]
  | _ => []

/-- The records that are taken up from a list of messages. -/
def takes (memory : PumpMemory) : List LiveMessage → List Record
  | [] => []
  | message :: rest => memory.taken message ++ (memory.hear message).takes rest

/-- Whether a record lies beyond the start. -/
def beyondStart (memory : PumpMemory) (record : Record) : Bool :=
  memory.start.isLast || memory.start < record.positionIn memory.stream

theorem takes_append (memory : PumpMemory) (earlier later : List LiveMessage) :
    memory.takes (earlier ++ later)
      = memory.takes earlier ++ (memory.hearAll earlier).takes later := by
  induction earlier generalizing memory with
  | nil => rfl
  | cons message rest ih =>
    rw [List.cons_append, takes, takes, ih, List.append_assoc]
    rfl

theorem hearAll_append (memory : PumpMemory) (earlier later : List LiveMessage) :
    memory.hearAll (earlier ++ later) = (memory.hearAll earlier).hearAll later :=
  List.foldl_append

/-- Hearing never changes whose memory it is. -/
theorem stream_hearAll (memory : PumpMemory) (messages : List LiveMessage) :
    (memory.hearAll messages).stream = memory.stream := by
  induction messages generalizing memory with
  | nil => rfl
  | cons message rest ih =>
    refine (ih (memory.hear message)).trans ?_
    cases message with
    | record record =>
      by_cases hold : memory.isOld record = true
      · rw [hear, if_pos hold]
      · rw [hear, if_neg hold]
    | failed detail => rfl
    | reset => rfl

/-- A record is new when it comes after the last one delivered and lies beyond the start. -/
theorem not_isOld_eq (memory : PumpMemory) (record : Record) :
    (!memory.isOld record)
      = (memory.delivered.all (· < record.sequence) && memory.beyondStart record) := by
  rw [isOld, beyondStart, Bool.not_or]
  congr 1
  · cases memory.delivered with
    | none => rfl
    | some sequence =>
      rw [Option.any_some, Option.all_some, ← decide_not, decide_eq_decide,
        SequenceNumber.le_iff_toInt, SequenceNumber.lt_iff_toInt]
      omega
  · rw [Bool.not_and, Bool.not_not]
    congr 1
    rw [← decide_not, decide_eq_decide, Position.le_iff_toInt, Position.lt_iff_toInt]
    omega

/-- Of records in the order of their sequence numbers those are taken up that are not old at first. -/
theorem takes_ordered {memory : PumpMemory} {records : List Record}
    (ordered : records.Pairwise (·.sequence < ·.sequence)) :
    memory.takes (records.map .record) = records.filter fun record => !memory.isOld record := by
  induction records generalizing memory with
  | nil => rfl
  | cons record rest ih =>
    obtain ⟨hrecord, hrest⟩ := List.pairwise_cons.mp ordered
    rw [List.map_cons, takes, taken, hear]
    cases hold : memory.isOld record with
    | true =>
      rw [List.filter_cons_of_neg (by simp [hold])]
      exact ih hrest
    | false =>
      rw [List.filter_cons_of_pos (by simp [hold])]
      simp only [Bool.false_eq_true, if_false, List.singleton_append]
      rw [ih hrest]
      -- it becomes the last one delivered, and none of those after it gets old by that
      congr 1
      refine List.filter_congr fun other hother => ?_
      have hlater : record.sequence < other.sequence := hrecord other hother
      have hnew : memory.delivered.all (· < record.sequence) = true := by
        have h := memory.not_isOld_eq record
        rw [hold, Bool.not_false] at h
        exact (Bool.and_eq_true_iff.mp h.symm).1
      have hafter : memory.delivered.all (· < other.sequence) = true := by
        refine (Option.all_eq_true ..).mpr fun sequence hs => decide_eq_true ?_
        have hbefore := of_decide_eq_true ((Option.all_eq_true ..).mp hnew sequence hs)
        rw [SequenceNumber.lt_iff_toInt] at hbefore hlater ⊢
        omega
      rw [not_isOld_eq, not_isOld_eq, hafter, Option.all_some, decide_eq_true hlater]
      rfl

/-- Of fresh records in order of their sequence numbers those beyond the start are taken up. -/
theorem takes_records {memory : PumpMemory} {records : List Record}
    (ordered : records.Pairwise (·.sequence < ·.sequence))
    (fresh : ∀ sequence ∈ memory.delivered, ∀ record ∈ records, sequence < record.sequence) :
    memory.takes (records.map .record) = records.filter memory.beyondStart := by
  rw [takes_ordered ordered]
  refine List.filter_congr fun record hrecord => ?_
  have hafter : memory.delivered.all (· < record.sequence) = true :=
    (Option.all_eq_true ..).mpr fun sequence hs => decide_eq_true (fresh sequence hs record hrecord)
  rw [not_isOld_eq, hafter, Bool.true_and]

/-- Hearing of records does not move the start; what was delivered last is as before or one of them. -/
theorem hearAll_records (memory : PumpMemory) (records : List Record) :
    (memory.hearAll (records.map .record)).start = memory.start ∧
      ∀ sequence ∈ (memory.hearAll (records.map .record)).delivered,
        sequence ∈ memory.delivered ∨ ∃ record ∈ records, record.sequence = sequence := by
  induction records generalizing memory with
  | nil => exact ⟨rfl, fun _ h => .inl h⟩
  | cons record rest ih =>
    obtain ⟨hstart, hdelivered⟩ := ih (memory.hear (.record record))
    have hframe : (memory.hear (.record record)).start = memory.start ∧
        ∀ sequence ∈ (memory.hear (.record record)).delivered,
          sequence ∈ memory.delivered ∨ record.sequence = sequence := by
      by_cases hold : memory.isOld record = true
      · rw [hear, if_pos hold]
        exact ⟨rfl, fun _ h => .inl h⟩
      · rw [hear, if_neg hold]
        exact ⟨rfl, fun _ h => .inr (Option.some.inj h)⟩
    refine ⟨hstart.trans hframe.1, fun sequence hs => ?_⟩
    rcases hdelivered sequence hs with hbefore | ⟨other, hother, rfl⟩
    · rcases hframe.2 sequence hbefore with hbefore | rfl
      · exact .inl hbefore
      · exact .inr ⟨record, List.mem_cons_self, rfl⟩
    · exact .inr ⟨other, List.mem_cons_of_mem _ hother, rfl⟩

end PumpMemory

namespace Pump

/-- What a pump remembers when it has worked off its backlog. -/
def memory (pump : Pump) : PumpMemory where
  stream := pump.stream
  start := pump.start
  delivered := (pump.backlog.getLast?.map Record.sequence).or pump.delivered

/-- The record a pump is about to deliver. -/
def held (pump : Pump) : List Record :=
  match pump.pending with
  | some (.record record) => [record]
  | _ => []

theorem memory_of_backlog_nil {pump : Pump} (h : pump.backlog = []) :
    pump.memory = ⟨pump.stream, pump.start, pump.delivered⟩ := by
  rw [memory, h]
  rfl

/-- Taking up a record of the backlog changes nothing in what is remembered after the backlog. -/
theorem memory_takeUp {pump : Pump} {record : Record} {rest : List Record}
    (h : pump.backlog = record :: rest) :
    ({ pump with backlog := rest }.takeUp record).memory = pump.memory := by
  simp only [memory, takeUp, h]
  -- the last record of the backlog is still the last one, or is the one taken up
  cases rest with
  | nil => rfl
  | cons next rest =>
    have hlast : (next :: rest).getLast? = some ((next :: rest).getLast (List.cons_ne_nil _ _)) :=
      List.getLast?_eq_some_getLast _
    rw [List.getLast?_cons_cons, hlast]
    rfl

/-- Without a backlog the pump goes by its memory. -/
theorem memory_receive {pump : Pump} (h : pump.backlog = []) (message : LiveMessage) :
    (pump.receive message).memory = pump.memory.hear message ∧
      (pump.pending = none → (pump.receive message).held = pump.memory.taken message) ∧
      (pump.receive message).backlog = [] := by
  rw [memory_of_backlog_nil h]
  cases message with
  | record record =>
    have hsame : PumpMemory.isOld ⟨pump.stream, pump.start, pump.delivered⟩ record
        = pump.isOld record := rfl
    rw [PumpMemory.hear, PumpMemory.taken, receive, hsame]
    by_cases hold : pump.isOld record = true
    · rw [if_pos hold, if_pos hold, if_pos hold, memory_of_backlog_nil h]
      exact ⟨rfl, fun hpending => by rw [held, hpending], h⟩
    · rw [if_neg hold, if_neg hold, if_neg hold]
      exact ⟨memory_of_backlog_nil h, fun _ => rfl, h⟩
  | failed detail => exact ⟨memory_of_backlog_nil h, fun _ => rfl, h⟩
  | reset =>
    refine ⟨memory_of_backlog_nil h, fun hpending => ?_, h⟩
    show (match pump.pending with | some (.record record) => [record] | _ => []) = []
    rw [hpending]

end Pump

/-! ## What is due to a consumer -/

namespace Feed

/-- Whether the filter of a subscription admits a record. -/
def admits (feed : Feed) (record : Record) : Bool :=
  feed.channel.options.admitsType record.typeName

/-- The records that the consumer will still receive, when the pump has this queue. -/
def due (feed : Feed) (queue : List LiveMessage) : List Record :=
  feed.channel.record.toList
    ++ (feed.pump.held ++ feed.pump.backlog ++ feed.pump.memory.takes queue).filter feed.admits

/-- What the pump will remember when it has heard all of its queue. -/
def outlook (feed : Feed) (queue : List LiveMessage) : PumpMemory :=
  feed.pump.memory.hearAll queue

/-- A feed where nothing waits any more. -/
def Drained (feed : Feed) (queue : List LiveMessage) : Prop :=
  feed.channel.record = none ∧ feed.pump.pending = none ∧ feed.pump.backlog = [] ∧ queue = []

theorem due_of_drained {feed : Feed} {queue : List LiveMessage} (h : feed.Drained queue) :
    feed.due queue = [] := by
  obtain ⟨hrecord, hpending, hbacklog, rfl⟩ := h
  rw [due, hrecord, Pump.held, hpending, hbacklog]
  rfl

/-- What is due, and what the pump will remember, when more comes into the queue. -/
theorem due_append (feed : Feed) (queue more : List LiveMessage) :
    feed.due (queue ++ more)
      = feed.due queue ++ ((feed.outlook queue).takes more).filter feed.admits := by
  rw [due, due, PumpMemory.takes_append, ← List.append_assoc _ _ (PumpMemory.takes _ more),
    List.filter_append, ← List.append_assoc]
  rfl

theorem outlook_append (feed : Feed) (queue more : List LiveMessage) :
    feed.outlook (queue ++ more) = (feed.outlook queue).hearAll more :=
  PumpMemory.hearAll_append ..

end Feed

/-! ## Moves, receipts and news -/

/-- A move of the pump of an open feed keeps what is due and what will be remembered. -/
theorem PumpMove.due {feed feed' : Feed} {subscriber subscriber' : Subscriber} {number : Nat}
    (move : PumpMove feed subscriber feed' subscriber') (h : feed.Wired number subscriber)
    (isOpen : feed.channel.isClosed = false) :
    feed'.due subscriber'.queue = feed.due subscriber.queue ∧
      feed'.outlook subscriber'.queue = feed.outlook subscriber.queue := by
  cases move with
  | @offered record channel active pending accepted =>
    have hheld : feed.pump.held = [record] := by rw [Pump.held, pending]
    rcases (Channel.offer_accepted accepted).2 with ⟨hadmits, rfl⟩ | ⟨hadmits, hrecord, rfl⟩
    · -- a rejected record was not due
      have hrejected : ¬ feed.admits record = true := Bool.not_eq_true _ ▸ hadmits
      refine ⟨?_, rfl⟩
      rw [Feed.due, Feed.due, hheld, List.append_assoc [record], List.singleton_append,
        List.filter_cons_of_neg hrejected]
      rfl
    · -- an admitted one moves from the hand of the pump into the channel
      have hadmitted : feed.admits record = true := hadmits
      refine ⟨?_, rfl⟩
      rw [Feed.due, Feed.due, hheld, hrecord, List.append_assoc [record], List.singleton_append,
        List.filter_cons_of_pos hadmitted]
      rfl
  | failed active pending accepted =>
    obtain ⟨-, -, rfl⟩ := Channel.fail_accepted accepted
    refine ⟨?_, rfl⟩
    rw [Feed.due, Feed.due, Pump.held, Pump.held, pending]
    rfl
  | @tookUp record rest active pending backlog =>
    have hmemory := Pump.memory_takeUp backlog
    refine ⟨?_, ?_⟩
    · rw [Feed.due, Feed.due, hmemory, backlog, Pump.held, Pump.held, pending]
      rfl
    · rw [Feed.outlook, Feed.outlook, hmemory]
  | @heard message rest active pending backlog queue =>
    obtain ⟨hmemory, hheld, hbacklog⟩ := Pump.memory_receive backlog message
    refine ⟨?_, ?_⟩
    · rw [Feed.due, Feed.due, hmemory, hheld pending, hbacklog, backlog, queue, Pump.held,
        pending, PumpMemory.takes, List.append_nil, List.append_nil, List.nil_append]
      rfl
    · rw [Feed.outlook, Feed.outlook, hmemory, queue]
      rfl
  | finished active because =>
    -- neither reason to end applies to an open subscription
    rcases because with hclosed | hgone
    · rw [hclosed] at isOpen
      cases isOpen
    · rw [h.registered, active] at hgone
      cases hgone

/-- A channel that is open and empty takes whatever is delivered. -/
theorem PumpView.send_accepted (view : PumpView) (isOpen : view.channel.isClosed = false)
    (record : view.channel.record = none) (error : view.channel.error = none)
    (delivery : Delivery) : (view.send delivery).1 = .accepted := by
  cases delivery with
  | record item =>
    cases hadmits : view.channel.options.admitsType item.typeName with
    | true => simp [send, Channel.offer, isOpen, hadmits, record]
    | false => simp [send, Channel.offer, isOpen, hadmits]
  | failure failure => simp [send, Channel.fail, isOpen, error]

/-- When its channel is empty and its pump can make no step, nothing waits anywhere in an open feed. -/
theorem PumpView.drained_of_waiting {view : PumpView} {subscriber : Subscriber}
    (hentry : view.subscribers.table[view.pump.number]? = some subscriber)
    (active : view.pump.ended = false) (isOpen : view.channel.isClosed = false)
    (record : view.channel.record = none) (error : view.channel.error = none)
    (waits : view.step = none) :
    Feed.Drained ⟨view.channel, view.pump⟩ subscriber.queue := by
  unfold PumpView.step at waits
  rw [if_neg (by rw [active]; exact Bool.false_ne_true)] at waits
  cases hpending : view.pump.pending with
  | some delivery =>
    have hsent := view.send_accepted isOpen record error delivery
    simp only [hpending] at waits
    split at waits
    · cases waits
    · cases waits
    · rename_i hblocked
      rw [hblocked] at hsent
      cases hsent
  | none =>
    cases hbacklog : view.pump.backlog with
    | cons next rest =>
      simp only [hpending, hbacklog] at waits
      cases waits
    | nil =>
      cases hqueue : subscriber.queue with
      | nil => exact ⟨record, hpending, hbacklog, rfl⟩
      | cons message rest =>
        simp only [hpending, hbacklog, isOpen, Subscribers.take, hentry, hqueue] at waits
        cases waits

/-- A subscription where nothing happens by itself: its pump can make no step, and its channel is
empty. -/
def Journal.Idle (journal : Journal) (number : Nat) : Prop :=
  journal.stepPump number = none ∧ ∃ feed, journal.feeds[number]? = some feed ∧
    feed.channel.record = none ∧ feed.channel.error = none

/-- Nothing waits anywhere in an open feed of a journal that is idle there. -/
theorem Journal.drained_of_waiting {journal : Journal} {number : Nat} {feed : Feed}
    {subscriber : Subscriber} (hfeed : journal.feeds[number]? = some feed)
    (hentry : journal.store.subscribers.table[number]? = some subscriber)
    (wired : feed.Wired number subscriber) (isOpen : feed.channel.isClosed = false)
    (record : feed.channel.record = none) (error : feed.channel.error = none)
    (waits : journal.stepPump number = none) : feed.Drained subscriber.queue := by
  simp only [stepPump, hfeed, Option.map_eq_none_iff] at waits
  rw [← wired.number] at hentry
  exact PumpView.drained_of_waiting hentry (wired.active isOpen) isOpen record error waits

/-- A consumer that receives is handed the first of the records that are due. -/
theorem Channel.found_append_record (channel : Channel) :
    channel.found ++ channel.receive.2.record.toList = channel.record.toList := by
  unfold found receive
  split <;> rename_i h <;> split at h <;> grind

end EventJournal
