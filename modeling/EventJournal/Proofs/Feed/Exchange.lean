import EventJournal.Feed.Pump

/-!
# A sink and a subscription at work

The two ends of a channel: a producer emits records and reports errors, a consumer receives, and either of
them may go away. Their steps come in any order. A send that finds its place taken waits; it is tried again
later, or abandoned. So is a receive that finds nothing: it changes nothing, and is another receive later.

* `Exchange.step`, `Exchange.run`, `Exchange.results` — what the steps leave, and what is seen of them.
* `Exchange.Move` — what a step can do to the channel, with what is seen of it.
* `Exchange.Balanced` — what was sent is what was received and what waits; `Balanced.move`, every move keeps
  it so.
* `Exchange.silent_run` — nothing comes through a closed subscription.
* `Exchange.received_as_sent` — the main statement.
-/

namespace EventJournal

/-- Tries to deliver something. -/
def Channel.attempt (channel : Channel) : Delivery → Sent × Channel
  | .record record => channel.offer record
  | .failure error => channel.fail error

/-- A channel with the sends that began and did not return yet, in the order in which they began. -/
structure Exchange where
  channel : Channel
  waiting : List Delivery
  deriving Repr, DecidableEq, Inhabited

namespace Exchange

/-- A step of the producer or the consumer. Waiting sends are named by their places. -/
inductive Action where
  /-- A send begins; the sink must be there. -/
  | send (delivery : Delivery)
  /-- A waiting send is tried. -/
  | attempt (place : Nat)
  /-- A waiting send is given up. -/
  | abandon (place : Nat)
  /-- The sink is dropped, if no send holds on to it. -/
  | dropSink
  | receive
  | tryReceive
  | close
  | dropConsumer
  deriving Repr, DecidableEq, Inhabited

/-- What is seen of a step. -/
inductive Result where
  /-- A send returned. -/
  | returned (delivery : Delivery) (success : Bool)
  /-- A send waits on. -/
  | blocked (delivery : Delivery)
  /-- The consumer got something. -/
  | yielded (outcome : Outcome Record)
  /-- The consumer was told that there is nothing. -/
  | empty
  /-- The consumer waits. -/
  | pending
  /-- The consumer closed the subscription or dropped it. -/
  | shut
  /-- The sink was dropped. -/
  | left
  | quiet

namespace Result

/-- What is seen of a send that was tried. -/
def ofSent (delivery : Delivery) : Sent → Result
  | .accepted => returned delivery true
  | .refused => returned delivery false
  | .blocked => blocked delivery

/-- What is seen of a receive that waits if it must. -/
def ofReceived : Received → Result
  | .item outcome => yielded outcome
  | .closed => empty
  | .pending => pending

/-- What is seen of a receive that does not wait. -/
def ofTried : Option (Outcome Record) → Result
  | some outcome => yielded outcome
  | none => empty

end Result

/-- A fresh channel, and no sends. -/
def create (stream : StreamId) (options : SubscribeOptions) : Exchange := ⟨.create stream options, []⟩

/-- A step: what is seen of it, and what it leaves. -/
def step (exchange : Exchange) : Action → Result × Exchange
  | .send delivery =>
    if exchange.channel.sinkGone then (.quiet, exchange)
    else (.quiet, { exchange with waiting := exchange.waiting ++ [delivery] })
  | .attempt place =>
    match exchange.waiting[place]? with
    | none => (.quiet, exchange)
    | some delivery =>
      let (sent, channel) := exchange.channel.attempt delivery
      let waiting := if sent = .blocked then exchange.waiting else exchange.waiting.eraseIdx place
      (.ofSent delivery sent, ⟨channel, waiting⟩)
  | .abandon place => (.quiet, { exchange with waiting := exchange.waiting.eraseIdx place })
  | .dropSink =>
    if exchange.waiting.isEmpty then (.left, { exchange with channel := exchange.channel.dropSink })
    else (.quiet, exchange)
  | .receive =>
    let (received, channel) := exchange.channel.receive
    (.ofReceived received, { exchange with channel })
  | .tryReceive =>
    let (tried, channel) := exchange.channel.tryReceive
    (.ofTried tried, { exchange with channel })
  | .close => (.shut, { exchange with channel := exchange.channel.close })
  | .dropConsumer => (.shut, { exchange with channel := exchange.channel.dropConsumer })

/-- The exchange after a list of steps. -/
def run (exchange : Exchange) : List Action → Exchange
  | [] => exchange
  | action :: rest => (exchange.step action).2.run rest

/-- What is seen of a list of steps, in order. -/
def results (exchange : Exchange) : List Action → List Result
  | [] => []
  | action :: rest => (exchange.step action).1 :: (exchange.step action).2.results rest

/-! ## What was sent and what was received -/

namespace Result

/-- The record of an emit that completed, if the filter admits it. -/
def sentRecord? (options : SubscribeOptions) : Result → Option Record
  | returned (.record record) true =>
    if options.admitsType record.typeName then some record else none
  | _ => none

/-- The error of a report that completed. -/
def sentError? : Result → Option StoreError
  | returned (.failure error) true => some error
  | _ => none

/-- The record that the consumer got. -/
def gotRecord? : Result → Option Record
  | yielded (.ok record) => some record
  | _ => none

/-- The error that the consumer got. -/
def gotError? : Result → Option StoreError
  | yielded (.error error) => some error
  | _ => none

/-- Nothing comes through: no send succeeds or waits, and no receive gives anything or waits. -/
def Silent : Result → Prop
  | returned _ success => success = false
  | blocked _ => False
  | yielded _ => False
  | pending => False
  | empty => True
  | shut => True
  | left => True
  | quiet => True

/-- Nothing that the filter admits was sent, nothing was received, and nobody went away. -/
def Idle (options : SubscribeOptions) : Result → Prop
  | returned (.record record) success => success = true → options.admitsType record.typeName = false
  | returned (.failure _) success => success = false
  | blocked _ => True
  | yielded _ => False
  | empty => True
  | pending => True
  | shut => False
  | left => False
  | quiet => True

theorem Idle.nothing {options : SubscribeOptions} {result : Result} (h : result.Idle options) :
    result.sentRecord? options = none ∧ result.sentError? = none ∧ result.gotRecord? = none ∧
      result.gotError? = none ∧ result ≠ shut ∧ result ≠ left := by
  match result, h with
  | returned (.record record) true, h => simp [sentRecord?, sentError?, gotRecord?, gotError?, h rfl]
  | returned (.record record) false, _ => simp [sentRecord?, sentError?, gotRecord?, gotError?]
  | returned (.failure error) false, _ => simp [sentRecord?, sentError?, gotRecord?, gotError?]
  | blocked _, _ | empty, _ | pending, _ | quiet, _ =>
    simp [sentRecord?, sentError?, gotRecord?, gotError?]

end Result

/-- The records whose emit completed, those that the filter admits. -/
def sentRecords (options : SubscribeOptions) (past : List Result) : List Record :=
  past.filterMap (Result.sentRecord? options)

/-- The errors that were reported. -/
def sentErrors (past : List Result) : List StoreError := past.filterMap Result.sentError?

/-- The records that the consumer got. -/
def gotRecords (past : List Result) : List Record := past.filterMap Result.gotRecord?

/-- The errors that the consumer got. -/
def gotErrors (past : List Result) : List StoreError := past.filterMap Result.gotError?

theorem filterMap_concat {α β : Type} (f : α → Option β) (items : List α) (item : α) :
    (items ++ [item]).filterMap f = items.filterMap f ++ (f item).toList := by
  rw [List.filterMap_append]
  cases h : f item <;> simp [h]

section

variable (options : SubscribeOptions) (past : List Result) (result : Result)

@[simp]
theorem sentRecords_concat : sentRecords options (past ++ [result])
    = sentRecords options past ++ (result.sentRecord? options).toList :=
  filterMap_concat ..

@[simp]
theorem sentErrors_concat :
    sentErrors (past ++ [result]) = sentErrors past ++ result.sentError?.toList :=
  filterMap_concat ..

@[simp]
theorem gotRecords_concat :
    gotRecords (past ++ [result]) = gotRecords past ++ result.gotRecord?.toList :=
  filterMap_concat ..

@[simp]
theorem gotErrors_concat :
    gotErrors (past ++ [result]) = gotErrors past ++ result.gotError?.toList :=
  filterMap_concat ..

end

/-! ## What a step can do -/

/-- What a step can do to a channel, with what is seen of it. -/
inductive Move (channel : Channel) : Result → Channel → Prop where
  | idle {result : Result} (idle : result.Idle channel.options) : Move channel result channel
  | emitted {record : Record} (unclosed : channel.closed = false)
      (admitted : channel.options.admitsType record.typeName = true) (free : channel.record = none) :
      Move channel (.returned (.record record) true) { channel with record := some record }
  | reported {error : StoreError} (unclosed : channel.closed = false) (free : channel.error = none) :
      Move channel (.returned (.failure error) true) { channel with error := some error }
  | gotError {error : StoreError} (unclosed : channel.closed = false)
      (waiting : channel.error = some error) :
      Move channel (.yielded (.error error)) { channel with error := none }
  | gotRecord {record : Record} (unclosed : channel.closed = false) (none : channel.error = none)
      (waiting : channel.record = some record) :
      Move channel (.yielded (.ok record)) { channel with record := .none }
  /-- The consumer learns that the sink is gone; that closes the subscription. -/
  | noticed (unclosed : channel.closed = false) (noError : channel.error = none)
      (noRecord : channel.record = none) (gone : channel.sinkGone = true) :
      Move channel (.yielded (.error (.subscriptionClosed channel.stream))) channel.close
  | shut {after : Channel} (closed : after.closed = true) (stream : after.stream = channel.stream)
      (options : after.options = channel.options) (sinkGone : after.sinkGone = channel.sinkGone) :
      Move channel .shut after
  | left : Move channel .left channel.dropSink

theorem unclosed_of_not_isClosed {channel : Channel} (h : ¬ channel.isClosed = true) :
    channel.closed = false :=
  (Bool.or_eq_false_iff.mp (Bool.eq_false_iff.mpr h)).1

theorem move_offer (channel : Channel) (record : Record) :
    Move channel (.ofSent (.record record) (channel.offer record).1) (channel.offer record).2 := by
  unfold Channel.offer
  split
  · exact .idle nofun
  rename_i hopen
  have hclosed := unclosed_of_not_isClosed hopen
  split
  · rename_i hrejected
    exact .idle fun _ => by simpa using hrejected
  rename_i hadmitted
  cases hrecord : channel.record with
  | some waiting => exact .idle trivial
  | none => exact .emitted hclosed (by simpa using hadmitted) hrecord

theorem move_fail (channel : Channel) (error : StoreError) :
    Move channel (.ofSent (.failure error) (channel.fail error).1) (channel.fail error).2 := by
  unfold Channel.fail
  split
  · exact .idle rfl
  rename_i hopen
  have hclosed := unclosed_of_not_isClosed hopen
  cases herror : channel.error with
  | some waiting => exact .idle trivial
  | none => exact .reported hclosed herror

theorem move_receive (channel : Channel) :
    Move channel (.ofReceived channel.receive.1) channel.receive.2 := by
  obtain ⟨stream, options, record, error, closed, sinkGone, consumerGone⟩ := channel
  cases closed with
  | true => exact .idle trivial
  | false =>
    -- errors first, then records, and the end when both places are free and the sink is gone
    cases error with
    | some error => exact .gotError rfl rfl
    | none =>
      cases record with
      | some record => exact .gotRecord rfl rfl rfl
      | none =>
        cases sinkGone with
        | true => exact .noticed rfl rfl rfl rfl
        | false => exact .idle trivial

/-- A receive that does not wait gives what one that waits would get at once. -/
theorem tryReceive_cases (channel : Channel) :
    channel.tryReceive.2 = channel.receive.2 ∧
      (Result.ofTried channel.tryReceive.1 = .ofReceived channel.receive.1 ∨
        Result.ofTried channel.tryReceive.1 = .empty ∧
          Result.ofReceived channel.receive.1 = .pending) := by
  unfold Channel.tryReceive
  rcases channel.receive with ⟨outcome | _ | _, after⟩
  · exact ⟨rfl, .inl rfl⟩
  · exact ⟨rfl, .inl rfl⟩
  · exact ⟨rfl, .inr ⟨rfl, rfl⟩⟩

theorem move_tryReceive (channel : Channel) :
    Move channel (.ofTried channel.tryReceive.1) channel.tryReceive.2 := by
  have hmove := move_receive channel
  obtain ⟨hafter, hsame | ⟨hempty, hpending⟩⟩ := tryReceive_cases channel
  · rw [hafter, hsame]
    exact hmove
  · rw [hpending] at hmove
    rw [hafter, hempty]
    generalize channel.receive.2 = after at hmove
    cases hmove
    exact .idle trivial

/-- Every step is one of the moves. -/
theorem move_of_step (exchange : Exchange) (action : Action) :
    Move exchange.channel (exchange.step action).1 (exchange.step action).2.channel := by
  cases action with
  | send delivery =>
    simp only [step]
    split <;> exact .idle trivial
  | attempt place =>
    simp only [step]
    split
    · exact .idle trivial
    · rename_i delivery hdelivery
      cases delivery with
      | record record => exact move_offer exchange.channel record
      | failure error => exact move_fail exchange.channel error
  | abandon place => exact .idle trivial
  | dropSink =>
    simp only [step]
    split
    · exact .left
    · exact .idle trivial
  | receive => exact move_receive exchange.channel
  | tryReceive => exact move_tryReceive exchange.channel
  | close => exact .shut rfl rfl rfl rfl
  | dropConsumer => exact .shut rfl rfl rfl rfl

/-! ## What was sent is what was received and what waits -/

/-- The subscription is open: all that was sent was received, in order, or waits. -/
structure Level (channel : Channel) (past : List Result) : Prop where
  records : sentRecords channel.options past = gotRecords past ++ channel.record.toList
  errors : sentErrors past = gotErrors past ++ channel.error.toList
  unshut : .shut ∉ past

/-- The consumer closed the subscription: it received some of what was sent, in order. -/
structure Cut (channel : Channel) (past : List Result) : Prop where
  records : gotRecords past <+: sentRecords channel.options past
  errors : gotErrors past <+: sentErrors past
  shut : .shut ∈ past

/-- The consumer learned of the end: it received all that was sent, and then the notice. -/
structure Concluded (channel : Channel) (past : List Result) : Prop where
  records : gotRecords past = sentRecords channel.options past
  errors : gotErrors past = sentErrors past ++ [.subscriptionClosed channel.stream]
  gone : .left ∈ past

/-- What was seen of a channel agrees with it. -/
structure Balanced (channel : Channel) (past : List Result) : Prop where
  gone : channel.sinkGone = true ↔ .left ∈ past
  opened : channel.closed = false → Level channel past
  closed : channel.closed = true → Cut channel past ∨ Concluded channel past

section

variable {channel after : Channel} {past : List Result} {result : Result}

theorem Balanced.create (stream : StreamId) (options : SubscribeOptions) :
    Balanced (.create stream options) [] where
  gone := ⟨nofun, nofun⟩
  opened _ := ⟨rfl, rfl, List.not_mem_nil⟩
  closed := nofun

/-- Nothing was sent, nothing was received, and nothing in the channel changed but perhaps the sink. -/
theorem Balanced.unmoved (h : Balanced channel past) {sinkGone : Bool}
    (nothing : result.sentRecord? channel.options = none ∧ result.sentError? = none ∧
      result.gotRecord? = none ∧ result.gotError? = none) (staying : result ≠ .shut)
    (gone : sinkGone = true ↔ .left ∈ past ++ [result]) :
    Balanced { channel with sinkGone } (past ++ [result]) := by
  obtain ⟨hsent, hreported, hrecord, herror⟩ := nothing
  constructor
  case gone => exact gone
  case opened =>
    intro hopen
    have level := h.opened hopen
    constructor
    case records => simpa [hsent, hrecord] using level.records
    case errors => simpa [hreported, herror] using level.errors
    case unshut => simpa [staying.symm] using level.unshut
  case closed =>
    intro hclosed
    rcases h.closed hclosed with cut | concluded
    · left
      constructor
      case records => simpa [hsent, hrecord] using cut.records
      case errors => simpa [hreported, herror] using cut.errors
      case shut => exact List.mem_append_left _ cut.shut
    · right
      constructor
      case records => simpa [hsent, hrecord] using concluded.records
      case errors => simpa [hreported, herror] using concluded.errors
      case gone => exact List.mem_append_left _ concluded.gone

/-- The subscription stays open, and what was sent is still what was received and what waits. -/
theorem Balanced.of_level (h : Balanced channel past) (level : Level after (past ++ [result]))
    (unclosed : after.closed = false) (same : after.sinkGone = channel.sinkGone)
    (staying : result ≠ .left) : Balanced after (past ++ [result]) where
  gone := by
    rw [same, h.gone]
    simp [staying.symm]
  opened _ := level
  closed hclosed := absurd hclosed (Bool.eq_false_iff.mp unclosed)

/-- Every move keeps the balance. -/
theorem Balanced.move (h : Balanced channel past) (move : Move channel result after) :
    Balanced after (past ++ [result]) := by
  cases move with
  | idle idle =>
    obtain ⟨hsent, hreported, hrecord, herror, hshut, hleft⟩ := idle.nothing
    refine h.unmoved ⟨hsent, hreported, hrecord, herror⟩ hshut ?_
    simpa [hleft.symm] using h.gone
  | left =>
    refine h.unmoved ⟨rfl, rfl, rfl, rfl⟩ Result.noConfusion (iff_of_true rfl ?_)
    exact List.mem_append_right _ List.mem_cons_self
  | emitted unclosed admitted free =>
    have level := h.opened unclosed
    refine h.of_level ?_ unclosed rfl Result.noConfusion
    constructor
    case records => simp [level.records, free, Result.sentRecord?, Result.gotRecord?, admitted]
    case errors => simp [level.errors, Result.sentError?, Result.gotError?]
    case unshut => simpa using level.unshut
  | reported unclosed free =>
    have level := h.opened unclosed
    refine h.of_level ?_ unclosed rfl Result.noConfusion
    constructor
    case records => simp [level.records, Result.sentRecord?, Result.gotRecord?]
    case errors => simp [level.errors, free, Result.sentError?, Result.gotError?]
    case unshut => simpa using level.unshut
  | gotError unclosed waiting =>
    have level := h.opened unclosed
    refine h.of_level ?_ unclosed rfl Result.noConfusion
    constructor
    case records => simp [level.records, Result.sentRecord?, Result.gotRecord?]
    case errors => simp [level.errors, waiting, Result.sentError?, Result.gotError?]
    case unshut => simpa using level.unshut
  | gotRecord unclosed noError waiting =>
    have level := h.opened unclosed
    refine h.of_level ?_ unclosed rfl Result.noConfusion
    constructor
    case records => simp [level.records, waiting, Result.sentRecord?, Result.gotRecord?]
    case errors => simp [level.errors, Result.sentError?, Result.gotError?]
    case unshut => simpa using level.unshut
  | noticed unclosed noError noRecord gone =>
    have level := h.opened unclosed
    constructor
    case gone => simpa [Channel.close] using h.gone
    case opened => exact nofun
    case closed =>
      refine fun _ => .inr ?_
      constructor
      case records =>
        simp [level.records, noRecord, Result.sentRecord?, Result.gotRecord?, Channel.close]
      case errors => simp [level.errors, noError, Result.sentError?, Result.gotError?, Channel.close]
      case gone => exact List.mem_append_left _ (h.gone.mp gone)
  | shut closed stream options sinkGone =>
    constructor
    case gone => simpa [sinkGone] using h.gone
    case opened => exact fun hopen => absurd closed (Bool.eq_false_iff.mp hopen)
    case closed =>
      intro _
      have hshut : Result.shut ∈ past ++ [Result.shut] := List.mem_append_right _ List.mem_cons_self
      cases hopen : channel.closed with
      | false =>
        have level := h.opened hopen
        left
        constructor
        case records => simp [options, level.records, Result.sentRecord?, Result.gotRecord?]
        case errors => simp [level.errors, Result.sentError?, Result.gotError?]
        case shut => exact hshut
      | true =>
        rcases h.closed hopen with cut | concluded
        · left
          constructor
          case records => simpa [options, Result.sentRecord?, Result.gotRecord?] using cut.records
          case errors => simpa [Result.sentError?, Result.gotError?] using cut.errors
          case shut => exact hshut
        · right
          constructor
          case records => simpa [options, Result.sentRecord?, Result.gotRecord?] using concluded.records
          case errors => simpa [stream, Result.sentError?, Result.gotError?] using concluded.errors
          case gone => exact List.mem_append_left _ concluded.gone

/-- What is received is a front part of what was sent, the notice apart. -/
theorem Balanced.received (h : Balanced channel past) :
    gotRecords past <+: sentRecords channel.options past ∧
      (gotErrors past <+: sentErrors past ∨ Concluded channel past) := by
  cases hopen : channel.closed with
  | false =>
    have level := h.opened hopen
    rw [level.records, level.errors]
    exact ⟨List.prefix_append .., .inl (List.prefix_append ..)⟩
  | true =>
    rcases h.closed hopen with cut | concluded
    · exact ⟨cut.records, .inl cut.errors⟩
    · exact ⟨concluded.records ▸ List.prefix_refl _, .inr concluded⟩

/-- The subscription is closed when its consumer closed it, or learned of the end. -/
theorem Balanced.closed_iff (h : Balanced channel past) :
    channel.closed = true ↔
      .shut ∈ past ∨ gotErrors past = sentErrors past ++ [.subscriptionClosed channel.stream] := by
  cases hopen : channel.closed with
  | true => exact iff_of_true rfl ((h.closed hopen).imp Cut.shut Concluded.errors)
  | false =>
    have level := h.opened hopen
    refine iff_of_false nofun (not_or.mpr ⟨level.unshut, fun hended => ?_⟩)
    -- the consumer would have one error more than it was sent
    have hlength := congrArg List.length level.errors
    rw [hended] at hlength
    simp only [List.length_append, List.length_singleton] at hlength
    omega

end

/-! ## Whole runs -/

theorem run_append (exchange : Exchange) (earlier later : List Action) :
    exchange.run (earlier ++ later) = (exchange.run earlier).run later := by
  induction earlier generalizing exchange with
  | nil => rfl
  | cons action rest ih => exact ih (exchange.step action).2

/-- A step changes neither the stream nor the options. -/
theorem Move.same {channel after : Channel} {result : Result} (move : Move channel result after) :
    after.stream = channel.stream ∧ after.options = channel.options := by
  cases move with
  | shut _ stream options _ => exact ⟨stream, options⟩
  | _ => exact ⟨rfl, rfl⟩

theorem Balanced.run {exchange : Exchange} {past : List Result} (h : Balanced exchange.channel past)
    (actions : List Action) :
    Balanced (exchange.run actions).channel (past ++ exchange.results actions) ∧
      (exchange.run actions).channel.stream = exchange.channel.stream ∧
      (exchange.run actions).channel.options = exchange.channel.options := by
  induction actions generalizing exchange past with
  | nil =>
    rw [results, List.append_nil]
    exact ⟨h, rfl, rfl⟩
  | cons action rest ih =>
    have hmove := move_of_step exchange action
    obtain ⟨hstream, hoptions⟩ := hmove.same
    obtain ⟨hbalanced, hstream', hoptions'⟩ := ih (h.move hmove)
    rw [List.append_assoc, List.singleton_append] at hbalanced
    exact ⟨hbalanced, hstream'.trans hstream, hoptions'.trans hoptions⟩

/-! ## Once it is closed -/

section

variable {exchange : Exchange}

theorem attempt_of_closed {channel : Channel} (h : channel.closed = true) (delivery : Delivery) :
    channel.attempt delivery = (.refused, channel) := by
  cases delivery with
  | record record => exact channel.offer_of_closed h record
  | failure error => exact channel.fail_of_closed h error

/-- Nothing comes through a closed subscription, and it stays closed. -/
theorem silent_step (h : exchange.channel.closed = true) (action : Action) :
    (exchange.step action).1.Silent ∧ (exchange.step action).2.channel.closed = true := by
  cases action with
  | send delivery =>
    simp only [step]
    split <;> exact ⟨trivial, h⟩
  | attempt place =>
    simp only [step]
    split
    · exact ⟨trivial, h⟩
    · rename_i delivery hdelivery
      rw [attempt_of_closed h delivery]
      exact ⟨rfl, h⟩
  | abandon place => exact ⟨trivial, h⟩
  | dropSink =>
    simp only [step]
    split <;> exact ⟨trivial, h⟩
  | receive =>
    simp only [step]
    rw [exchange.channel.receive_of_closed h]
    exact ⟨trivial, h⟩
  | tryReceive =>
    simp only [step]
    rw [exchange.channel.tryReceive_of_closed h]
    exact ⟨trivial, h⟩
  | close => exact ⟨trivial, rfl⟩
  | dropConsumer => exact ⟨trivial, rfl⟩

theorem silent_run (h : exchange.channel.closed = true) (actions : List Action) :
    (∀ result ∈ exchange.results actions, result.Silent) ∧
      (exchange.run actions).channel.closed = true := by
  induction actions generalizing exchange with
  | nil => exact ⟨nofun, h⟩
  | cons action rest ih =>
    obtain ⟨hsilent, hclosed⟩ := silent_step h action
    obtain ⟨hrest, hafter⟩ := ih hclosed
    exact ⟨List.forall_mem_cons.mpr ⟨hsilent, hrest⟩, hafter⟩

/-- A send that waits when the subscription is closed fails as soon as it is tried. -/
theorem attempt_fails (h : exchange.channel.closed = true) {place : Nat} {delivery : Delivery}
    (waits : exchange.waiting[place]? = some delivery) :
    (exchange.step (.attempt place)).1 = .returned delivery false := by
  simp only [step, waits]
  rw [attempt_of_closed h delivery]
  rfl

end

/-! ## Until then -/

/-- What the consumer of an open subscription gets next, given what was seen before: first the error that
it did not receive yet, then the record; the notice when there is neither and the sink was dropped. -/
structure Next (stream : StreamId) (options : SubscribeOptions) (past : List Result) (result : Result) :
    Prop where
  error : ∀ error, sentErrors past = gotErrors past ++ [error] → result = .yielded (.error error)
  record : gotErrors past = sentErrors past → ∀ record,
    sentRecords options past = gotRecords past ++ [record] → result = .yielded (.ok record)
  notice : gotErrors past = sentErrors past → gotRecords past = sentRecords options past →
    .left ∈ past → result = .yielded (.error (.subscriptionClosed stream))
  wait : gotErrors past = sentErrors past → gotRecords past = sentRecords options past →
    .left ∉ past → result = .pending

section

variable {channel : Channel} {past : List Result}

theorem append_toList_eq_iff {α : Type} {items : List α} {place : Option α} :
    (∀ item, items ++ place.toList = items ++ [item] ↔ place = some item) ∧
      (items = items ++ place.toList ↔ place = none) := by
  cases place <;> simp

theorem Balanced.next (h : Balanced channel past) (unclosed : channel.closed = false) :
    Next channel.stream channel.options past (.ofReceived channel.receive.1) := by
  obtain ⟨hrecords, herrors, -⟩ := h.opened unclosed
  have hgone := h.gone
  constructor <;> simp only [hrecords, herrors, append_toList_eq_iff]
  case error =>
    intro error waiting
    simp [Channel.receive, unclosed, waiting, Result.ofReceived]
  case record =>
    intro noError record waiting
    simp [Channel.receive, unclosed, noError, waiting, Result.ofReceived]
  case notice =>
    intro noError noRecord left
    simp [Channel.receive, unclosed, noError, noRecord, hgone.mpr left, Result.ofReceived]
  case wait =>
    intro noError noRecord left
    simp [Channel.receive, unclosed, noError, noRecord, mt hgone.mp left, Result.ofReceived]

theorem offer_blocked {record : Record} (h : (channel.offer record).1 = .blocked) :
    channel.closed = false ∧ channel.record ≠ none := by
  unfold Channel.offer at h
  split at h
  · cases h
  rename_i hopen
  refine ⟨unclosed_of_not_isClosed hopen, fun hfree => ?_⟩
  rw [hfree] at h
  split at h <;> cases h

theorem fail_blocked {error : StoreError} (h : (channel.fail error).1 = .blocked) :
    channel.closed = false ∧ channel.error ≠ none := by
  unfold Channel.fail at h
  split at h
  · cases h
  rename_i hopen
  refine ⟨unclosed_of_not_isClosed hopen, fun hfree => ?_⟩
  rw [hfree] at h
  cases h

theorem attempt_blocked {exchange : Exchange} {place : Nat} {delivery : Delivery}
    (h : (exchange.step (.attempt place)).1 = .blocked delivery) :
    (exchange.channel.attempt delivery).1 = .blocked := by
  simp only [step] at h
  split at h
  · cases h
  rename_i other hother
  cases hsent : (exchange.channel.attempt other).1 with
  | blocked =>
    rw [hsent] at h
    cases h
    exact hsent
  | accepted =>
    rw [hsent] at h
    cases h
  | refused =>
    rw [hsent] at h
    cases h

end

/-- **What is sent is received**: whatever the producer and the consumer of a subscription do, in whatever
order, the consumer receives the records that the filter admits and the errors as they were sent, and of
each while the subscription is open at most the last one is still to come. Only after the sink was dropped
and all was received it gets one error that was not sent, and that closes the subscription, as the consumer
may do itself. From then on nothing comes through any more, what was sent before included, and no send
succeeds. -/
theorem received_as_sent (stream : StreamId) (options : SubscribeOptions) (actions : List Action) :
    let exchange := (create stream options).run actions
    let past := (create stream options).results actions
    gotRecords past <+: sentRecords options past ∧
      (gotErrors past <+: sentErrors past ∨
        gotErrors past = sentErrors past ++ [.subscriptionClosed stream] ∧
          gotRecords past = sentRecords options past ∧ .left ∈ past ∧ exchange.channel.closed = true) ∧
      (gotErrors past).count (.subscriptionClosed stream)
        ≤ (sentErrors past).count (.subscriptionClosed stream) + 1 ∧
      (exchange.channel.closed = true ↔
        .shut ∈ past ∨ gotErrors past = sentErrors past ++ [.subscriptionClosed stream]) ∧
      (exchange.channel.closed = false →
        sentRecords options past = gotRecords past ++ exchange.channel.record.toList ∧
        sentErrors past = gotErrors past ++ exchange.channel.error.toList ∧
        Next stream options past (exchange.step .receive).1) ∧
      ((exchange.step .tryReceive).2 = (exchange.step .receive).2 ∧
        ((exchange.step .tryReceive).1 = (exchange.step .receive).1 ∨
          (exchange.step .tryReceive).1 = .empty ∧ (exchange.step .receive).1 = .pending)) ∧
      (∀ place,
        (∀ record, (exchange.step (.attempt place)).1 = .blocked (.record record) →
          exchange.channel.closed = false ∧ gotRecords past ≠ sentRecords options past) ∧
        ∀ error, (exchange.step (.attempt place)).1 = .blocked (.failure error) →
          exchange.channel.closed = false ∧ gotErrors past ≠ sentErrors past) ∧
      (exchange.channel.closed = true → ∀ later,
        (∀ result ∈ exchange.results later, result.Silent) ∧
        ∀ place delivery, (exchange.run later).waiting[place]? = some delivery →
          ((exchange.run later).step (.attempt place)).1 = .returned delivery false) := by
  intro exchange past
  have hcreate : Balanced (create stream options).channel [] := .create stream options
  obtain ⟨h, hstream, hoptions⟩ := hcreate.run actions
  rw [List.nil_append] at h
  change Balanced exchange.channel past at h
  change exchange.channel.stream = stream at hstream
  change exchange.channel.options = options at hoptions
  have hreceived := h.received
  have hclosed := h.closed_iff
  rw [hoptions] at hreceived
  rw [hstream] at hclosed
  refine ⟨hreceived.1, ?_, ?_, hclosed, ?_, ?_, ?_, ?_⟩
  · refine hreceived.2.imp id fun concluded => ?_
    obtain ⟨hrecords, herrors, hleft⟩ := concluded
    rw [hstream] at herrors
    rw [hoptions] at hrecords
    exact ⟨herrors, hrecords, hleft, hclosed.mpr (.inr herrors)⟩
  · rcases hreceived.2 with hfront | concluded
    · exact Nat.le_succ_of_le (hfront.sublist.count_le _)
    · have hcount : (gotErrors past).count (.subscriptionClosed stream)
          = (sentErrors past).count (.subscriptionClosed stream) + 1 := by
        rw [concluded.errors, hstream, List.count_append, List.count_singleton_self]
      exact Nat.le_of_eq hcount
  · intro hopen
    obtain ⟨hrecords, herrors, -⟩ := h.opened hopen
    have hnext := h.next hopen
    rw [hoptions] at hrecords hnext
    rw [hstream] at hnext
    exact ⟨hrecords, herrors, hnext⟩
  · obtain ⟨hafter, hsame⟩ := tryReceive_cases exchange.channel
    exact ⟨congrArg (fun channel => { exchange with channel }) hafter, hsame⟩
  · intro place
    constructor
    · intro record hblocked
      obtain ⟨hopen, htaken⟩ := offer_blocked (attempt_blocked hblocked)
      obtain ⟨hrecords, -⟩ := h.opened hopen
      rw [hoptions] at hrecords
      rw [hrecords, Ne, append_toList_eq_iff.2]
      exact ⟨hopen, htaken⟩
    · intro error hblocked
      obtain ⟨hopen, htaken⟩ := fail_blocked (attempt_blocked hblocked)
      obtain ⟨-, herrors, -⟩ := h.opened hopen
      rw [herrors, Ne, append_toList_eq_iff.2]
      exact ⟨hopen, htaken⟩
  · intro hended later
    obtain ⟨hsilent, hlater⟩ := silent_run hended later
    exact ⟨hsilent, fun place delivery => attempt_fails hlater⟩

def sampleRecord (sequence : Int64) : Record := { (default : Record) with sequence := ⟨sequence⟩ }

/-- The second record waits for the first to be received; the sink goes away with an error and a record
not received yet. -/
def concluded : List Action :=
  [.send (.record (sampleRecord 1)), .attempt 0, .send (.record (sampleRecord 2)), .attempt 0, .receive,
    .attempt 0, .send (.failure (.notification "n")), .attempt 0, .dropSink, .receive, .tryReceive, .receive]

/-- The subscription is closed while a record waits in it and another one for its place. -/
def interrupted : List Action :=
  [.send (.record (sampleRecord 1)), .attempt 0, .send (.record (sampleRecord 2)), .attempt 0, .close]

theorem received_as_sent_sample :
    gotRecords ((create ⟨"a"⟩ .all).results concluded) = [sampleRecord 1, sampleRecord 2] ∧
      gotErrors ((create ⟨"a"⟩ .all).results concluded)
        = [.notification "n", .subscriptionClosed ⟨"a"⟩] ∧
      ((create ⟨"a"⟩ .all).run concluded).channel.closed = true ∧
      ((create ⟨"a"⟩ .all).run interrupted).channel.closed = true ∧
      ((create ⟨"a"⟩ .all).run interrupted).channel.record = some (sampleRecord 1) ∧
      (((create ⟨"a"⟩ .all).run interrupted).step (.attempt 0)).1
        = .returned (.record (sampleRecord 2)) false ∧
      (((create ⟨"a"⟩ .all).run interrupted).step .receive).1.Silent := by
  have hnotice : gotErrors ((create ⟨"a"⟩ .all).results concluded)
      = sentErrors ((create ⟨"a"⟩ .all).results concluded) ++ [.subscriptionClosed ⟨"a"⟩] := by decide
  have hclosed : ((create ⟨"a"⟩ .all).run interrupted).channel.closed = true := by decide
  obtain ⟨-, -, -, hended, -⟩ := received_as_sent ⟨"a"⟩ .all concluded
  obtain ⟨-, -, -, -, -, -, -, hsilent⟩ := received_as_sent ⟨"a"⟩ .all interrupted
  refine ⟨by decide, by decide, hended.mpr (.inr hnotice), hclosed, by decide, ?_, ?_⟩
  · exact (hsilent hclosed []).2 0 (.record (sampleRecord 2)) (by decide)
  · exact (hsilent hclosed [.receive]).1 _ List.mem_cons_self

end Exchange

end EventJournal
