import EventJournal.Proofs.Feed.Poller
import EventJournal.Proofs.LogServer.Requests

/-!
# Patrols

A poller comes back to a log server again and again. In between, others append to the server, truncate
streams and delete them, requests fail, and the consumer receives at its own pace. A `Patrol` is a poller
with the server and with notes of what the poller did; nothing depends on the notes.

* `Patrol.exists_run_call` — a call of a store over the server is a run of requests, so whatever holds
  between any two requests holds between any two calls.
* `Patrol.Kept` — the invariant: what was read is a trail, and the cursor stands where the records end
  that were dealt with.
* `Patrol.Kept.step` and `Patrol.Kept.run` — whatever happens keeps it, deletions of the stream included.
* `Patrol.emitted_iff_ahead` — which of the records that it could read a poller delivers. The trace after
  it is one where a record is left out.
-/

namespace EventJournal

/-! ## What a poller has in hand -/

namespace PollPhase

/-- The records that were read and are still to be dealt with. -/
def inHand : PollPhase → List Record
  | delivering _ records => records
  | _ => []

/-- The cursor, from when the poller knows where to start until it ends. -/
def cursor? : PollPhase → Option Position
  | reading cursor | delivering cursor _ | failing cursor _ | resting cursor _ => some cursor
  | _ => none

end PollPhase

/-! ## Patrols -/

/-- A poller with the server it reads through and notes of what it did. -/
structure Patrol where
  /-- The server, with the failures that are planned. -/
  server : Faulty LogOperation LogModel
  poller : Poller
  /-- How many poll intervals have passed. -/
  clock : Nat
  /-- Delivery starts strictly after this position; when only new records are wanted, it is where the
  stream ended when the poller looked for its end. -/
  origin : Position
  /-- All that was stored of the stream when a poll read it, for all polls that did not fail. -/
  surveyed : List Record
  /-- The records that came into the channel. -/
  emitted : List Record
  /-- The errors that came into the channel. -/
  reported : List StoreError
  /-- How many polls were made, failed ones included. -/
  polls : Nat

namespace Patrol

/-- The server itself. -/
def log (patrol : Patrol) : LogModel := patrol.server.inner

/-- The channel that the poller feeds. -/
def channel (patrol : Patrol) : Channel := patrol.poller.channel

/-- What came into a place of a channel. -/
def arrived {α : Type} (before after : Option α) : List α :=
  if before.isNone then after.toList else []

/-- The patrol after a step of the poller, with the notes of that step. -/
def after (patrol : Patrol) (poller : Poller) (server : Faulty LogOperation LogModel) : Patrol where
  server := server
  poller := poller
  clock := patrol.clock
  origin :=
    match patrol.poller.phase, poller.phase with
    | .locating, .reading _ =>
      cursorAfter patrol.channel.stream .start (patrol.log.stored patrol.channel.stream)
    | _, _ => patrol.origin
  surveyed :=
    match patrol.poller.phase, poller.phase with
    | .reading _, .delivering _ _ => patrol.surveyed ++ patrol.log.stored patrol.channel.stream
    | _, _ => patrol.surveyed
  emitted := patrol.emitted ++ arrived patrol.channel.record poller.channel.record
  reported := patrol.reported ++ arrived patrol.channel.error poller.channel.error
  polls :=
    match patrol.poller.phase with
    | .reading _ => patrol.polls + 1
    | _ => patrol.polls

/-- The poller makes a step, if it can. -/
def stepPoll (patrol : Patrol) : Patrol :=
  match patrol.poller.step LogModel.client.unreliable patrol.clock patrol.server with
  | some (poller, server) => patrol.after poller server
  | none => patrol

/-- What can happen. -/
inductive Action where
  /-- The server is sent a request, by anybody. -/
  | request (request : LogRequest)
  /-- A failure is planned. -/
  | fault (fault : Fault LogOperation)
  /-- The poller makes a step. -/
  | poll
  /-- A poll interval passes. -/
  | tick
  /-- The consumer receives. -/
  | receive
  /-- The consumer closes the subscription. -/
  | close
  /-- The consumer goes away. -/
  | drop
  deriving Repr, DecidableEq, Inhabited

def step (patrol : Patrol) : Action → Patrol
  | .request request =>
    { patrol with server := request.send LogModel.client.unreliable patrol.server }
  | .fault fault => { patrol with server := patrol.server.plan fault }
  | .poll => patrol.stepPoll
  | .tick => { patrol with clock := patrol.clock + 1 }
  | .receive => { patrol with poller.channel := patrol.channel.receive.2 }
  | .close => { patrol with poller.channel := patrol.channel.close }
  | .drop => { patrol with poller.channel := patrol.channel.dropConsumer }

def run (patrol : Patrol) : List Action → Patrol
  | [] => patrol
  | action :: rest => (patrol.step action).run rest

theorem run_append (patrol : Patrol) (earlier later : List Action) :
    patrol.run (earlier ++ later) = (patrol.run earlier).run later := by
  induction earlier generalizing patrol with
  | nil => rfl
  | cons action rest ih => exact ih _

/-- A patrol at its beginning: the subscription was just opened, on a server that served some requests. -/
def start (before : List LogRequest) (stream : StreamId) (options : SubscribeOptions) : Patrol where
  server := .create (LogRequest.sendAll LogModel.client before .empty)
  poller := .create (.create stream options)
  clock := 0
  origin := options.position
  surveyed := []
  emitted := []
  reported := []
  polls := 0

/-! ## Calls of a store -/

theorem run_requests (patrol : Patrol) (requests : List LogRequest) :
    patrol.run (requests.map .request) = { patrol with
      server := LogRequest.sendAll LogModel.client.unreliable requests patrol.server } := by
  induction requests generalizing patrol with
  | nil => rfl
  | cons request rest ih => exact ih _

/-- A call of a store over the server is a run of requests, and deletes what it is to delete. -/
theorem exists_run_call (patrol : Patrol) (issued : IssuedCall) :
    ∃ requests : List LogRequest,
      patrol.run (requests.map .request) = { patrol with
        server := (issued.run (.logServer LogModel.client.unreliable) patrol.server).2 } ∧
      ∀ stream, issued.call ≠ .delete stream → ∀ request ∈ requests, request.Spares stream := by
  obtain ⟨requests, hdeletes, hserver⟩ : LogModel.client.unreliable.Reaches
      (fun stream => issued.call = .delete stream) patrol.server
      (issued.run (.logServer LogModel.client.unreliable) patrol.server).2 := issued.run_requests
  refine ⟨requests, by rw [run_requests, hserver], fun stream hspares request hrequest => ?_⟩
  cases request with
  | delete other =>
    left
    rintro rfl
    exact hspares (hdeletes other hrequest)
  | append _ _ _ => trivial
  | readStream _ _ => trivial
  | readAll _ => trivial
  | truncate _ _ => trivial

/-! ## What a step leaves of the server -/

section

variable {patrol : Patrol} {poller : Poller} {server : Faulty LogOperation LogModel}

theorem stepPoll_cases (patrol : Patrol) :
    patrol.stepPoll = patrol ∨ ∃ poller server,
      Poller.Move LogModel.client.unreliable patrol.server patrol.poller poller server ∧
        patrol.stepPoll = patrol.after poller server := by
  unfold stepPoll
  cases hstep : patrol.poller.step LogModel.client.unreliable patrol.clock patrol.server with
  | none => exact .inl rfl
  | some result => exact .inr ⟨_, _, Poller.move_of_step hstep, rfl⟩

/-- A poller only reads. -/
theorem inner_of_move {poller' : Poller} {server' : Faulty LogOperation LogModel}
    (move : Poller.Move LogModel.client.unreliable server poller poller' server') :
    server'.inner = server.inner := by
  cases move with
  | located head => exact (headPosition_unreliable head).1
  | lost head => exact (headPosition_unreliable head).1
  | fetched read => exact (readRecords_unreliable read).1
  | failed read => exact (readRecords_unreliable read).1
  | gaveUp | reported | delivered | skipped | rested | resumed | closed => rfl

theorem log_stepPoll (patrol : Patrol) : patrol.stepPoll.log = patrol.log := by
  rcases patrol.stepPoll_cases with hsame | ⟨poller, server, hmove, hstep⟩
  · rw [hsame]
  · rw [hstep]
    exact inner_of_move hmove

/-- The server is left alone or serves a request. -/
theorem log_step (patrol : Patrol) (action : Action) :
    (patrol.step action).log = patrol.log ∨ ∃ request, action = .request request ∧
      (patrol.step action).log = request.send LogModel.client patrol.log := by
  cases action with
  | request request =>
    exact (request.send_unreliable patrol.server).imp id fun hserved => ⟨request, rfl, hserved⟩
  | poll => exact .inl patrol.log_stepPoll
  | fault | tick | receive | close | drop => exact .inl rfl

theorem lastCommit_step (patrol : Patrol) (action : Action) :
    patrol.log.lastCommit ≤ (patrol.step action).log.lastCommit := by
  rcases patrol.log_step action with hsame | ⟨request, -, hserved⟩
  · rw [hsame]
  · rw [hserved]
    exact LogModel.lastCommit_send request _

theorem lastCommit_run (patrol : Patrol) (actions : List Action) :
    patrol.log.lastCommit ≤ (patrol.run actions).log.lastCommit := by
  induction actions generalizing patrol with
  | nil => exact Nat.le_refl _
  | cons action rest ih => exact Nat.le_trans (patrol.lastCommit_step action) (ih _)

end

/-! ## The invariant -/

/-- What is known of a server when the last survey of a stream was made at a commit position. -/
structure Ledger (stream : StreamId) (log : LogModel) (commit : Int) (surveyed : List Record) :
    Prop where
  numbered : log.Numbered
  given : commit ≤ log.lastCommit
  remembered : ∀ record ∈ log.stored stream, record.sequence.toInt ≤ commit → record ∈ surveyed
  begun : ∀ record ∈ surveyed, Position.start < record.positionIn stream

/-- What a poller did with the records it read: `passed` are dealt with, and `rest` are not. -/
structure Progress (stream : StreamId) (options : SubscribeOptions) (phase : PollPhase)
    (origin : Position) (surveyed emitted passed rest : List Record) : Prop where
  emitted : emitted = passed.filter fun record => options.admitsType record.typeName
  inHand : phase ≠ .ended → phase.inHand = rest
  cursor : ∀ cursor ∈ phase.cursor?, cursor = cursorAfter stream origin passed
  unlocated : phase.cursor? = none → phase ≠ .ended → surveyed = [] ∧ passed = [] ∧ rest = []

/-- The invariant of patrols. -/
structure Kept (stream : StreamId) (options : SubscribeOptions) (patrol : Patrol) (commit : Int)
    (passed rest : List Record) : Prop where
  sameStream : patrol.channel.stream = stream
  sameOptions : patrol.channel.options = options
  ledger : Ledger stream patrol.log commit patrol.surveyed
  trail : Trail stream patrol.origin commit patrol.surveyed (passed ++ rest)
  read : passed ++ rest ⊆ patrol.surveyed
  progress : Progress stream options patrol.poller.phase patrol.origin patrol.surveyed patrol.emitted
    passed rest
  origin : options.position.isLast = false → patrol.origin = options.position
  locating : patrol.poller.phase = .locating → options.position.isLast = true

section

variable {stream : StreamId} {options : SubscribeOptions} {patrol : Patrol} {poller : Poller}
  {server : Faulty LogOperation LogModel} {log log' : LogModel} {commit : Int}
  {surveyed passed rest : List Record}

/-- Commit positions are not given out anew, so what is stored and not newer than the last survey was
there at some survey. -/
theorem Ledger.onward (h : Ledger stream log commit surveyed) (numbered : log'.Numbered)
    (onward : LogModel.Onward stream log log') : Ledger stream log' commit surveyed where
  numbered := numbered
  given := Int.le_trans h.given (Int.ofNat_le.mpr onward.commit)
  remembered record hrecord hle := by
    rcases onward.fresh record hrecord with hold | hnew
    · exact h.remembered record hold hle
    · exact absurd (Int.le_trans hle h.given) (Int.not_le.mpr hnew)
  begun := h.begun

/-- A survey at this moment. -/
theorem Ledger.survey (h : Ledger stream log commit surveyed)
    (few : (log.lastCommit : Int) ≤ Int64.maxValue.toInt) :
    Ledger stream log log.lastCommit (surveyed ++ log.stored stream) where
  numbered := h.numbered
  given := Int.le_refl _
  remembered record hrecord _ := List.mem_append_right _ hrecord
  begun record hrecord := by
    rcases List.mem_append.mp hrecord with hold | hnow
    · exact h.begun record hold
    · exact (h.numbered.stored_numbers few hnow).2.2.1

/-! ### The beginning -/

/-- Before the first poll. -/
theorem kept_start (before : List LogRequest) (stream : StreamId) (options : SubscribeOptions)
    (few : ((start before stream options).log.lastCommit : Int) ≤ Int64.maxValue.toInt) :
    Kept stream options (start before stream options) 0 [] [] := by
  have hnumbered : (start before stream options).log.Numbered := .sendAll .empty before few
  have hledger : Ledger stream (start before stream options).log 0 [] := by
    refine ⟨hnumbered, Int.natCast_nonneg _, fun record hrecord hle => ?_, nofun⟩
    have hfirst := (hnumbered.stored_numbers few hrecord).2.2.2
    omega
  unfold start Poller.create at hledger ⊢
  split
  · rename_i hlast
    exact ⟨rfl, rfl, hledger, .start _ _ _, nofun, ⟨rfl, fun _ => rfl, nofun, fun _ _ => ⟨rfl, rfl, rfl⟩⟩,
      fun _ => rfl, fun _ => hlast⟩
  · refine ⟨rfl, rfl, hledger, .start _ _ _, nofun, ⟨rfl, fun _ => rfl, ?_, nofun⟩, fun _ => rfl, nofun⟩
    intro cursor hcursor
    cases hcursor
    rfl

/-! ### The server -/

/-- Whatever a request does, the stream deleted and begun anew included. -/
theorem Kept.request (h : Kept stream options patrol commit passed rest) (request : LogRequest)
    (few : ((patrol.step (.request request)).log.lastCommit : Int) ≤ Int64.maxValue.toInt) :
    Kept stream options (patrol.step (.request request)) commit passed rest := by
  refine { h with ledger := ?_ }
  rcases patrol.log_step (.request request) with hsame | ⟨_, ⟨⟩, hserved⟩
  · rw [hsame]
    exact h.ledger
  · rw [hserved] at few ⊢
    exact h.ledger.onward (h.ledger.numbered.send request few) (h.ledger.numbered.onward stream few)

/-! ### The consumer -/

/-- Receiving and closing do not touch what the poller does. -/
theorem Kept.later (h : Kept stream options patrol commit passed rest) {channel : Channel}
    (later : patrol.channel.Later channel) :
    Kept stream options { patrol with poller.channel := channel } commit passed rest :=
  { h with
    sameStream := later.stream.trans h.sameStream
    sameOptions := later.options.trans h.sameOptions }

/-! ### The poller -/

/-- Into a place that is left as it is, nothing came. -/
theorem arrived_self {α : Type} (place : Option α) : arrived place place = [] := by
  cases place <;> rfl

/-- A move that neither finds the end of the stream nor reads records. -/
theorem Kept.quiet (h : Kept stream options patrol commit passed rest) {patrol' : Patrol}
    {passed' rest' : List Record} (log : patrol'.log = patrol.log)
    (channel : patrol'.channel.stream = patrol.channel.stream ∧
      patrol'.channel.options = patrol.channel.options)
    (notes : patrol'.surveyed = patrol.surveyed ∧ patrol'.origin = patrol.origin)
    (read : passed' ++ rest' = passed ++ rest)
    (progress : Progress stream options patrol'.poller.phase patrol.origin patrol.surveyed
      patrol'.emitted passed' rest')
    (located : patrol'.poller.phase ≠ .locating) :
    Kept stream options patrol' commit passed' rest' where
  sameStream := channel.1.trans h.sameStream
  sameOptions := channel.2.trans h.sameOptions
  ledger := by
    rw [log, notes.1]
    exact h.ledger
  trail := by
    rw [notes.1, notes.2, read]
    exact h.trail
  read := by
    rw [notes.1, read]
    exact h.read
  progress := by
    rw [notes.1, notes.2]
    exact progress
  origin hlast := notes.2.trans (h.origin hlast)
  locating hlocating := absurd hlocating located

/-- The poller turns to something else. -/
theorem Kept.turn (h : Kept stream options patrol commit passed rest) {patrol' : Patrol}
    (log : patrol'.log = patrol.log)
    (channel : patrol'.channel.stream = patrol.channel.stream ∧
      patrol'.channel.options = patrol.channel.options)
    (notes : patrol'.surveyed = patrol.surveyed ∧ patrol'.origin = patrol.origin)
    (emitted : patrol'.emitted = patrol.emitted) (going : patrol.poller.phase ≠ .ended)
    (inHand : patrol'.poller.phase.inHand = patrol.poller.phase.inHand)
    (cursor : patrol'.poller.phase.cursor? = patrol.poller.phase.cursor?)
    (located : patrol'.poller.phase ≠ .locating) :
    Kept stream options patrol' commit passed rest := by
  refine h.quiet log channel notes rfl ⟨?_, fun _ => ?_, ?_, fun hnone _ => ?_⟩ located
  · exact emitted.trans h.progress.emitted
  · exact inHand.trans (h.progress.inHand going)
  · rw [cursor]
    exact h.progress.cursor
  · exact h.progress.unlocated (cursor.symm.trans hnone) going

/-- The poller ends. -/
theorem Kept.finish (h : Kept stream options patrol commit passed rest) {channel : Channel}
    (sameStream : channel.stream = patrol.channel.stream)
    (sameOptions : channel.options = patrol.channel.options)
    (record : channel.record = patrol.channel.record) :
    Kept stream options (patrol.after ⟨.ended, channel⟩ patrol.server) commit passed rest := by
  have hnotes : (patrol.after ⟨.ended, channel⟩ patrol.server).surveyed = patrol.surveyed ∧
      (patrol.after ⟨.ended, channel⟩ patrol.server).origin = patrol.origin := by
    unfold after
    cases patrol.poller.phase <;> exact ⟨rfl, rfl⟩
  have hemitted : (patrol.after ⟨.ended, channel⟩ patrol.server).emitted = patrol.emitted := by
    show patrol.emitted ++ arrived patrol.channel.record channel.record = _
    rw [record, arrived_self, List.append_nil]
  exact h.quiet rfl ⟨sameStream, sameOptions⟩ hnotes rfl
    ⟨hemitted.trans h.progress.emitted, fun hgoing => absurd rfl hgoing, nofun,
      fun _ hgoing => absurd rfl hgoing⟩ nofun

/-- The poller finds the end of the stream, and the trail starts there. -/
theorem Kept.locate (h : Kept stream options patrol commit passed rest)
    (few : (patrol.log.lastCommit : Int) < Int64.maxValue.toInt) {position : Position}
    (phase : patrol.poller.phase = .locating)
    (head : LogServer.headPosition LogModel.client.unreliable patrol.channel.stream patrol.server
      = (.ok position, server)) :
    Kept stream options (patrol.after ⟨.reading position, patrol.channel⟩ server) commit [] [] := by
  obtain ⟨hinner, hserved⟩ := headPosition_unreliable head
  have hposition := (h.ledger.numbered.head few patrol.channel.stream).symm.trans (hserved position rfl)
  obtain ⟨server₀, ⟨phase₀, channel⟩, clock, origin, surveyed, emitted, reported, polls⟩ := patrol
  subst phase
  obtain ⟨rfl, rfl, rfl⟩ := h.progress.unlocated rfl nofun
  have hemitted : emitted ++ arrived channel.record channel.record = [] := by
    rw [arrived_self, List.append_nil]
    exact h.progress.emitted
  have hledger : Ledger stream server.inner commit [] := by
    rw [hinner]
    exact h.ledger
  refine ⟨h.sameStream, h.sameOptions, hledger, .start _ _ _, nofun,
    ⟨hemitted, fun _ => rfl, ?_, nofun⟩, ?_, nofun⟩
  · intro cursor hcursor
    cases hcursor
    have hstream : channel.stream = stream := h.sameStream
    rw [← hstream]
    exact (Except.ok.inj (Prod.mk.inj hposition).1).symm
  · -- an end is looked for only when new records are wanted
    intro hlast
    rw [h.locating rfl] at hlast
    cases hlast

/-- The poller reads what lies beyond its cursor: one more survey. -/
theorem Kept.fetch (h : Kept stream options patrol commit passed rest)
    (few : (patrol.log.lastCommit : Int) ≤ Int64.maxValue.toInt) {cursor : Position}
    {records : Option (List Record)} (phase : patrol.poller.phase = .reading cursor)
    (read : LogServer.readRecords LogModel.client.unreliable patrol.channel.stream (.forward cursor)
      patrol.server = (.ok records, server)) :
    Kept stream options (patrol.after ⟨.delivering cursor (records.getD []), patrol.channel⟩ server)
      patrol.log.lastCommit passed (records.getD []) := by
  obtain ⟨hinner, hserved⟩ := readRecords_unreliable read
  have hrecords := h.ledger.numbered.poll few (hserved records rfl)
  have hledger := h.ledger.survey few
  have hordered := h.ledger.numbered.stored_ordered few stream
  have hknown : ∀ record ∈ patrol.log.stored stream,
      record.sequence.toInt ≤ patrol.log.lastCommit :=
    fun record hrecord => (h.ledger.numbered.stored_numbers few hrecord).1
  have htrail := h.trail.survey hordered h.ledger.remembered hknown h.ledger.given
  obtain ⟨server₀, ⟨phase₀, channel⟩, clock, origin, surveyed, emitted, reported, polls⟩ := patrol
  subst phase
  obtain rfl : channel.stream = stream := h.sameStream
  -- nothing is in hand, so the cursor stands where the trail ends
  obtain rfl : [] = rest := h.progress.inHand nofun
  obtain rfl : cursor = cursorAfter channel.stream origin passed := h.progress.cursor cursor rfl
  rw [List.append_nil] at htrail
  have hread : records.getD [] ⊆ server₀.inner.stored channel.stream := by
    rw [hrecords]
    exact List.filter_subset_self _
  refine ⟨rfl, h.sameOptions, ?_, ?_, ?_, ⟨?_, fun _ => rfl, h.progress.cursor, nofun⟩, h.origin, nofun⟩
  · show Ledger channel.stream server.inner _ _
    rw [hinner]
    exact hledger
  · rw [hrecords]
    exact htrail
  · intro record hrecord
    rcases List.mem_append.mp hrecord with hpassed | hfresh
    · exact List.mem_append_left _ (h.read (List.mem_append_left _ hpassed))
    · exact List.mem_append_right _ (hread hfresh)
  · show emitted ++ arrived channel.record channel.record = _
    rw [arrived_self, List.append_nil]
    exact h.progress.emitted

/-- A record comes into the channel, or is left out by the filter. -/
theorem Kept.deal (h : Kept stream options patrol commit passed rest) {channel' : Channel}
    {cursor : Position} {record : Record} {read : List Record}
    (phase : patrol.poller.phase = .delivering cursor (record :: read))
    (same : channel'.stream = patrol.channel.stream ∧ channel'.options = patrol.channel.options)
    (arrives : arrived patrol.channel.record channel'.record
      = [record].filter fun record => patrol.channel.options.admitsType record.typeName) :
    Kept stream options
      (patrol.after ⟨.delivering (record.positionIn patrol.channel.stream) read, channel'⟩
        patrol.server)
      commit (passed ++ [record]) read := by
  obtain ⟨server₀, ⟨phase₀, channel⟩, clock, origin, surveyed, emitted, reported, polls⟩ := patrol
  subst phase
  obtain rfl : channel.stream = stream := h.sameStream
  obtain rfl : channel.options = options := h.sameOptions
  obtain rfl : record :: read = rest := h.progress.inHand nofun
  refine h.quiet rfl same ⟨rfl, rfl⟩ (List.append_assoc ..) ⟨?_, fun _ => rfl, ?_, nofun⟩ nofun
  · refine (congrArg (emitted ++ ·) arrives).trans ?_
    rw [List.filter_append]
    exact congrArg (· ++ _) h.progress.emitted
  · intro other hother
    cases hother
    exact (cursorAfter_append_singleton ..).symm

/-- Whatever the poller does keeps the invariant. -/
theorem Kept.move (h : Kept stream options patrol commit passed rest)
    (few : (patrol.log.lastCommit : Int) < Int64.maxValue.toInt)
    (move : Poller.Move LogModel.client.unreliable patrol.server patrol.poller poller server) :
    ∃ commit' passed' rest', Kept stream options (patrol.after poller server) commit' passed' rest' := by
  obtain ⟨server₀, poller₀, clock, origin, surveyed, emitted, reported, polls⟩ := patrol
  have hlog : server.inner = server₀.inner := inner_of_move move
  have hnothing (place : Option Record) : emitted ++ arrived place place = emitted := by
    rw [arrived_self, List.append_nil]
  cases move with
  | located head => exact ⟨_, _, _, h.locate few rfl head⟩
  | lost head =>
    exact ⟨_, _, _, h.turn hlog ⟨rfl, rfl⟩ ⟨rfl, rfl⟩ (hnothing _) nofun rfl rfl nofun⟩
  | gaveUp isOpen room => exact ⟨_, _, _, h.finish rfl rfl rfl⟩
  | fetched read => exact ⟨_, _, _, h.fetch (Int.le_of_lt few) rfl read⟩
  | failed read =>
    exact ⟨_, _, _, h.turn hlog ⟨rfl, rfl⟩ ⟨rfl, rfl⟩ (hnothing _) nofun rfl rfl nofun⟩
  | reported isOpen room =>
    exact ⟨_, _, _, h.turn hlog ⟨rfl, rfl⟩ ⟨rfl, rfl⟩ (hnothing _) nofun rfl rfl nofun⟩
  | @delivered channel cursor record read isOpen room admitted =>
    have harrives : arrived channel.record (some record)
        = [record].filter fun record => channel.options.admitsType record.typeName := by
      simp [arrived, room, admitted]
    exact ⟨_, _, _, h.deal rfl ⟨rfl, rfl⟩ harrives⟩
  | @skipped channel cursor record read isOpen rejected =>
    have harrives : arrived channel.record channel.record
        = [record].filter fun record => channel.options.admitsType record.typeName := by
      simp [arrived_self, rejected]
    exact ⟨_, _, _, h.deal rfl ⟨rfl, rfl⟩ harrives⟩
  | rested =>
    exact ⟨_, _, _, h.turn hlog ⟨rfl, rfl⟩ ⟨rfl, rfl⟩ (hnothing _) nofun rfl rfl nofun⟩
  | resumed isOpen =>
    exact ⟨_, _, _, h.turn hlog ⟨rfl, rfl⟩ ⟨rfl, rfl⟩ (hnothing _) nofun rfl rfl nofun⟩
  | closed isClosed => exact ⟨_, _, _, h.finish rfl rfl rfl⟩

/-! ### Runs -/

/-- Whatever happens keeps the invariant. -/
theorem Kept.step (h : Kept stream options patrol commit passed rest) (action : Action)
    (few : ((patrol.step action).log.lastCommit : Int) < Int64.maxValue.toInt) :
    ∃ commit' passed' rest', Kept stream options (patrol.step action) commit' passed' rest' := by
  cases action with
  | request request => exact ⟨_, _, _, h.request request (Int.le_of_lt few)⟩
  | fault fault => exact ⟨_, _, _, { h with }⟩
  | poll =>
    rcases patrol.stepPoll_cases with hsame | ⟨poller, server, hmove, hstep⟩
    · exact ⟨_, _, _, hsame.symm ▸ h⟩
    · have hlog : (patrol.step .poll).log = patrol.log := patrol.log_stepPoll
      have hafter : patrol.step .poll = patrol.after poller server := hstep
      rw [hlog] at few
      rw [hafter]
      exact h.move few hmove
  | tick => exact ⟨_, _, _, { h with }⟩
  | receive => exact ⟨_, _, _, h.later patrol.channel.later_receive⟩
  | close => exact ⟨_, _, _, h.later patrol.channel.later_close⟩
  | drop => exact ⟨_, _, _, h.later patrol.channel.later_dropConsumer⟩

theorem Kept.run (h : Kept stream options patrol commit passed rest) (actions : List Action)
    (few : ((patrol.run actions).log.lastCommit : Int) < Int64.maxValue.toInt) :
    ∃ commit' passed' rest', Kept stream options (patrol.run actions) commit' passed' rest' := by
  induction actions generalizing patrol commit passed rest with
  | nil => exact ⟨_, _, _, h⟩
  | cons action later ih =>
    -- commit positions only grow, so the words suffice at every step
    have hlater := (patrol.step action).lastCommit_run later
    obtain ⟨commit', passed', rest', hstep⟩ :=
      h.step action (Int.lt_of_le_of_lt (Int.ofNat_le.mpr hlater) few)
    exact ih hstep few

/-! ### What it says of a poller -/

theorem Kept.mem_emitted (h : Kept stream options patrol commit passed rest) {record : Record} :
    record ∈ patrol.emitted ↔ record ∈ passed ∧ options.admitsType record.typeName = true := by
  rw [h.progress.emitted, List.mem_filter]

/-- The records that came into the channel are in the order of positions and of commits. -/
theorem Kept.emitted_ordered (h : Kept stream options patrol commit passed rest) :
    patrol.emitted.Pairwise fun a b =>
      a.positionIn stream < b.positionIn stream ∧ a.sequence < b.sequence := by
  rw [h.progress.emitted]
  exact (List.pairwise_append.mp h.trail.ordered).1.sublist List.filter_sublist

/-- They lie beyond the position where delivery starts. -/
theorem Kept.origin_lt (h : Kept stream options patrol commit passed rest) {record : Record}
    (hrecord : record ∈ patrol.emitted) : patrol.origin < record.positionIn stream :=
  h.trail.beyond record (List.mem_append_left _ (h.mem_emitted.mp hrecord).1)

/-- When all that was read is dealt with, the trail is complete. -/
theorem Kept.trail_passed (h : Kept stream options patrol commit passed rest)
    (going : patrol.poller.phase ≠ .ended) (done : patrol.poller.phase.inHand = []) :
    Trail stream patrol.origin commit patrol.surveyed passed := by
  have htrail := h.trail
  rw [← h.progress.inHand going, done, List.append_nil] at htrail
  exact htrail

end

/-- **What becomes of the records that a poller of all records could read**: when it has dealt with all
that it read, a record that was stored at some poll is in the channel or came through it, unless a record
that did so and was appended before it stands at its position or beyond. As the positions of a stream
that is deleted are given out anew, its new records are left out up to where the old ones ended. -/
theorem emitted_iff_ahead (before : List LogRequest) (stream : StreamId) (actions : List Action)
    (few : (((start before stream .all).run actions).log.lastCommit : Int) < Int64.maxValue.toInt) :
    let patrol := (start before stream .all).run actions
    patrol.poller.phase ≠ .ended → patrol.poller.phase.inHand = [] →
      ∀ record ∈ patrol.surveyed,
        record ∈ patrol.emitted ↔ ∀ other ∈ patrol.emitted, other.sequence < record.sequence →
          other.positionIn stream < record.positionIn stream := by
  intro patrol going done record hrecord
  change (patrol.log.lastCommit : Int) < Int64.maxValue.toInt at few
  have hlater : (start before stream .all).log.lastCommit ≤ patrol.log.lastCommit :=
    (start before stream .all).lastCommit_run actions
  obtain ⟨commit, passed, rest, hkept⟩ :=
    (kept_start before stream .all (by omega)).run actions few
  have hemitted : patrol.emitted = passed := by
    rw [hkept.progress.emitted]
    exact List.filter_eq_self.mpr fun _ _ => rfl
  have hbeyond : patrol.origin < record.positionIn stream := by
    rw [hkept.origin rfl]
    exact hkept.ledger.begun record hrecord
  rw [hemitted]
  exact (hkept.trail_passed going done).mem_iff hrecord hbeyond

/-- Two records are delivered; then the stream is deleted, and a third record begins it anew. -/
def startingOver : List Action :=
  [.poll, .poll, .receive, .poll, .receive, .poll, .request (.delete ⟨"a"⟩),
    .request (.append ⟨"a"⟩ .any [⟨"3", "t", .null, []⟩]), .tick, .poll, .poll]

def startedOver : Patrol :=
  (start [.append ⟨"a"⟩ .any [⟨"1", "t", .null, []⟩, ⟨"2", "t", .null, []⟩]] ⟨"a"⟩ .all).run
    startingOver

/-- The third record is stored at the last poll, and the poller does not deliver it. -/
theorem emitted_iff_ahead_sample :
    (startedOver.log.lastCommit : Int) < Int64.maxValue.toInt ∧
      startedOver.poller.phase ≠ .ended ∧ startedOver.poller.phase.inHand = [] ∧
      startedOver.emitted.map Record.id = [⟨"1"⟩, ⟨"2"⟩] ∧
      ∃ record ∈ startedOver.surveyed, record.id = ⟨"3"⟩ ∧ record ∈ startedOver.log.stored ⟨"a"⟩ ∧
        record ∉ startedOver.emitted ∧
        (record ∈ startedOver.emitted ↔ ∀ other ∈ startedOver.emitted,
          other.sequence < record.sequence →
            other.positionIn ⟨"a"⟩ < record.positionIn ⟨"a"⟩) :=
  have few : (startedOver.log.lastCommit : Int) < Int64.maxValue.toInt := by decide
  have going : startedOver.poller.phase ≠ .ended := nofun
  have surveyed : (⟨⟨⟨"3"⟩, "t", .null, .empty⟩, ⟨"a"⟩, ⟨0⟩, ⟨3⟩,
      Timestamp.start2024.addSeconds 3⟩ : Record) ∈ startedOver.surveyed := by decide
  ⟨few, going, rfl, rfl, _, surveyed, rfl, by decide, by decide,
    emitted_iff_ahead _ ⟨"a"⟩ startingOver few going rfl _ surveyed⟩

end Patrol

end EventJournal
