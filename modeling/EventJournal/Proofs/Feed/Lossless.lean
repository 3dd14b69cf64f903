import EventJournal.Proofs.Feed.Patrol

/-!
# Polling loses nothing

As long as its stream is not deleted, a poller delivers every record that is stored when it polls, in
order and once, whatever else happens to the server, whichever requests fail, and however slowly the
consumer receives.

* `Patrol.Aligned` — the invariant of a stream that is not deleted: later records have later positions.
* `Patrol.Stalled` — what a failed poll leaves until the next one.
* `Patrol.polling_loses_nothing` — the main statement.
-/

namespace EventJournal

namespace Patrol

open LogModel

/-! ## Streams that are not deleted -/

/-- Records that were ever surveyed or are stored have their positions in the order of commits, and
positions go on beyond those that were surveyed. -/
structure Aligned (stream : StreamId) (log : LogModel) (surveyed : List Record) : Prop where
  known : ∀ record ∈ surveyed, record.sequence.toInt ≤ log.lastCommit
  below : ∀ record ∈ surveyed, (record.positionIn stream).toInt < log.nextNumber stream
  ordered : ∀ a ∈ surveyed ++ log.stored stream, ∀ b ∈ surveyed ++ log.stored stream,
    a.sequence < b.sequence → a.positionIn stream < b.positionIn stream

section

variable {stream : StreamId} {log log' : LogModel} {surveyed : List Record}

/-- Before the first survey. -/
theorem aligned_empty (numbered : log.Numbered)
    (few : (log.lastCommit : Int) ≤ Int64.maxValue.toInt) : Aligned stream log [] where
  known := nofun
  below := nofun
  ordered _ ha _ hb := position_lt_of_sequence_lt (numbered.stored_ordered few stream) ha hb

/-- All that was surveyed or is stored has numbers that were given out. -/
theorem Aligned.given (h : Aligned stream log surveyed) (numbered : log.Numbered)
    (few : (log.lastCommit : Int) ≤ Int64.maxValue.toInt) {record : Record}
    (hrecord : record ∈ surveyed ++ log.stored stream) :
    record.sequence.toInt ≤ log.lastCommit ∧
      (record.positionIn stream).toInt < log.nextNumber stream := by
  rcases List.mem_append.mp hrecord with hsurveyed | hstored
  · exact ⟨h.known record hsurveyed, h.below record hsurveyed⟩
  · obtain ⟨hcommit, hnumber, -⟩ := numbered.stored_numbers few hstored
    exact ⟨hcommit, hnumber⟩

/-- A survey of what is stored adds nothing to it. -/
theorem Aligned.survey (h : Aligned stream log surveyed) (numbered : log.Numbered)
    (few : (log.lastCommit : Int) ≤ Int64.maxValue.toInt) :
    Aligned stream log (surveyed ++ log.stored stream) where
  known record hrecord := (h.given numbered few hrecord).1
  below record hrecord := (h.given numbered few hrecord).2
  ordered a ha b hb := by
    have hmem : ∀ record ∈ surveyed ++ log.stored stream ++ log.stored stream,
        record ∈ surveyed ++ log.stored stream := fun record hrecord =>
      (List.mem_append.mp hrecord).elim id (List.mem_append_right _)
    exact h.ordered a (hmem a ha) b (hmem b hb)

/-- What a request adds that does not delete the stream lies beyond all the rest. -/
theorem Aligned.spared (h : Aligned stream log surveyed) (numbered : log.Numbered)
    (few : (log.lastCommit : Int) ≤ Int64.maxValue.toInt) (numbered' : log'.Numbered)
    (few' : (log'.lastCommit : Int) ≤ Int64.maxValue.toInt) (onward : Onward stream log log')
    (spared : Spared stream log log') : Aligned stream log' surveyed where
  known record hrecord := Int.le_trans (h.known record hrecord) (Int.ofNat_le.mpr onward.commit)
  below record hrecord := Int.lt_of_lt_of_le (h.below record hrecord) (Int.ofNat_le.mpr spared.number)
  ordered a ha b hb hbefore := by
    -- a record is one of before or new
    have hclass : ∀ record ∈ surveyed ++ log'.stored stream,
        record ∈ surveyed ++ log.stored stream ∨
          record ∈ log'.stored stream ∧ (log.lastCommit : Int) < record.sequence.toInt ∧
            (log.nextNumber stream : Int) ≤ (record.positionIn stream).toInt := by
      intro record hrecord
      rcases List.mem_append.mp hrecord with hsurveyed | hstored
      · exact .inl (List.mem_append_left _ hsurveyed)
      · rcases onward.fresh record hstored with hold | hcommit
        · exact .inl (List.mem_append_right _ hold)
        · rcases spared.beyond record hstored with hold | hnumber
          · exact .inl (List.mem_append_right _ hold)
          · exact .inr ⟨hstored, hcommit, hnumber⟩
    rcases hclass a ha with hold | ⟨hstored, hcommit, -⟩
    · rcases hclass b hb with hold' | ⟨-, -, hnumber⟩
      · exact h.ordered a hold b hold' hbefore
      · exact Position.lt_iff_toInt.mpr
          (Int.lt_of_lt_of_le (h.given numbered few hold).2 hnumber)
    · rcases hclass b hb with hold' | ⟨hstored', -, -⟩
      · rw [SequenceNumber.lt_iff_toInt] at hbefore
        have hknown := (h.given numbered few hold').1
        omega
      · exact position_lt_of_sequence_lt (numbered'.stored_ordered few' stream) hstored hstored'
          hbefore

end

/-- An action that does not delete a stream. -/
def Action.Spares (stream : StreamId) : Action → Prop
  | .request sent => sent.Spares stream
  | _ => True

instance (stream : StreamId) (action : Action) : Decidable (action.Spares stream) :=
  match action with
  | .request sent => inferInstanceAs (Decidable (sent.Spares stream))
  | .fault _ => isTrue trivial
  | .poll => isTrue trivial
  | .tick => isTrue trivial
  | .receive => isTrue trivial
  | .close => isTrue trivial
  | .drop => isTrue trivial

section

variable {stream : StreamId} {options : SubscribeOptions} {patrol : Patrol} {commit : Int}
  {passed rest : List Record}

/-- What is surveyed changes only by a survey of what is stored. -/
theorem surveyed_stepPoll (patrol : Patrol) :
    patrol.stepPoll.surveyed = patrol.surveyed ∨
      patrol.stepPoll.surveyed = patrol.surveyed ++ patrol.log.stored patrol.channel.stream := by
  rcases patrol.stepPoll_cases with hsame | ⟨poller, server, -, hstep⟩
  · rw [hsame]
    exact .inl rfl
  · rw [hstep]
    unfold after
    dsimp only
    split
    · exact .inr rfl
    · exact .inl rfl

theorem Aligned.step (h : Aligned stream patrol.log patrol.surveyed)
    (kept : Kept stream options patrol commit passed rest) {action : Action}
    (spares : action.Spares stream)
    (few : ((patrol.step action).log.lastCommit : Int) ≤ Int64.maxValue.toInt) :
    Aligned stream (patrol.step action).log (patrol.step action).surveyed := by
  have numbered := kept.ledger.numbered
  have hcommit := patrol.lastCommit_step action
  have few' : (patrol.log.lastCommit : Int) ≤ Int64.maxValue.toInt := by omega
  cases action with
  | request request =>
    show Aligned stream (patrol.step (.request request)).log patrol.surveyed
    rcases patrol.log_step (.request request) with hsame | ⟨_, ⟨⟩, hserved⟩
    · rw [hsame]
      exact h
    · rw [hserved] at few ⊢
      exact h.spared numbered few' (numbered.send request few) few (numbered.onward stream few)
        (numbered.spared spares few)
  | poll =>
    show Aligned stream patrol.stepPoll.log patrol.stepPoll.surveyed
    rw [log_stepPoll]
    rcases patrol.surveyed_stepPoll with hsame | hsurvey
    · rw [hsame]
      exact h
    · rw [hsurvey, kept.sameStream]
      exact h.survey numbered few'
  | fault | tick | receive | close | drop => exact h

/-- Whatever happens that does not delete the stream keeps it so. -/
theorem Aligned.run (h : Aligned stream patrol.log patrol.surveyed)
    (kept : Kept stream options patrol commit passed rest) {actions : List Action}
    (spares : ∀ action ∈ actions, action.Spares stream)
    (few : ((patrol.run actions).log.lastCommit : Int) < Int64.maxValue.toInt) :
    Aligned stream (patrol.run actions).log (patrol.run actions).surveyed := by
  induction actions generalizing patrol commit passed rest with
  | nil => exact h
  | cons action later ih =>
    have hlater : (patrol.step action).log.lastCommit ≤ (patrol.run (action :: later)).log.lastCommit :=
      (patrol.step action).lastCommit_run later
    have fewStep : ((patrol.step action).log.lastCommit : Int) < Int64.maxValue.toInt := by omega
    obtain ⟨commit', passed', rest', hkept⟩ := kept.step action fewStep
    exact ih (h.step kept (spares action List.mem_cons_self) (Int.le_of_lt fewStep)) hkept
      (fun other hother => spares other (List.mem_cons_of_mem _ hother)) few

end

/-! ## Where delivery starts -/

section

variable {patrol : Patrol}

/-- Once the poller knows where to start, that stays. -/
theorem located_step (h : patrol.poller.phase ≠ .locating) (action : Action) :
    (patrol.step action).poller.phase ≠ .locating ∧ (patrol.step action).origin = patrol.origin := by
  cases action with
  | poll =>
    show patrol.stepPoll.poller.phase ≠ _ ∧ patrol.stepPoll.origin = _
    rcases patrol.stepPoll_cases with hsame | ⟨poller, server, hmove, hstep⟩
    · rw [hsame]
      exact ⟨h, rfl⟩
    · rw [hstep]
      constructor
      · exact hmove.ne_locating
      · unfold after
        dsimp only
        split
        · rename_i hlocating _
          exact absurd hlocating h
        · rfl
  | request | fault | tick | receive | close | drop => exact ⟨h, rfl⟩

theorem origin_run (h : patrol.poller.phase ≠ .locating) (actions : List Action) :
    (patrol.run actions).origin = patrol.origin := by
  induction actions generalizing patrol with
  | nil => rfl
  | cons action later ih =>
    obtain ⟨hlocated, horigin⟩ := located_step h action
    exact (ih hlocated).trans horigin

/-- The poller finds the end of the stream. -/
theorem Kept.located {stream : StreamId} {options : SubscribeOptions} {commit : Int}
    {passed rest : List Record} (h : Kept stream options patrol commit passed rest)
    (few : (patrol.log.lastCommit : Int) < Int64.maxValue.toInt)
    (locating : patrol.poller.phase = .locating) {cursor : Position}
    (reading : (patrol.step .poll).poller.phase = .reading cursor) :
    (patrol.step .poll).origin = cursor ∧
      cursor = cursorAfter stream .start (patrol.log.stored stream) := by
  change patrol.stepPoll.poller.phase = _ at reading
  show patrol.stepPoll.origin = _ ∧ _
  rcases patrol.stepPoll_cases with hsame | ⟨poller, server, hmove, hstep⟩
  · rw [hsame, locating] at reading
    cases reading
  · rw [hstep] at reading ⊢
    obtain ⟨hchannel, head⟩ := hmove.found locating reading
    obtain ⟨phase, channel⟩ := poller
    cases reading
    cases hchannel
    have hkept := h.locate few locating head
    have hcursor : cursor = (patrol.after ⟨.reading cursor, patrol.channel⟩ server).origin :=
      hkept.progress.cursor cursor rfl
    refine ⟨hcursor.symm, hcursor.trans ?_⟩
    unfold after
    rw [locating, h.sameStream]

/-- Delivery of new records only starts where the stream ended when the poller looked for its end. -/
theorem Kept.origin_of_located {stream : StreamId} {options : SubscribeOptions} {commit : Int}
    {passed rest : List Record} (h : Kept stream options patrol commit passed rest)
    {earlier later : List Action} {cursor : Position}
    (few : ((patrol.run (earlier ++ .poll :: later)).log.lastCommit : Int) < Int64.maxValue.toInt)
    (locating : (patrol.run earlier).poller.phase = .locating)
    (reading : (patrol.run (earlier ++ [.poll])).poller.phase = .reading cursor) :
    (patrol.run (earlier ++ .poll :: later)).origin = cursor ∧
      cursor = cursorAfter stream .start ((patrol.run earlier).log.stored stream) := by
  rw [run_append] at few reading ⊢
  have hlater := (patrol.run earlier).lastCommit_run (.poll :: later)
  have fewEarlier : ((patrol.run earlier).log.lastCommit : Int) < Int64.maxValue.toInt := by omega
  obtain ⟨_, _, _, hearlier⟩ := h.run earlier fewEarlier
  obtain ⟨horigin, hcursor⟩ := hearlier.located fewEarlier locating reading
  have hlocated : ((patrol.run earlier).step .poll).poller.phase ≠ .locating := by
    change ((patrol.run earlier).step .poll).poller.phase = _ at reading
    rw [reading]
    nofun
  exact ⟨(origin_run hlocated later).trans horigin, hcursor⟩

end

/-! ## Failed polls -/

/-- What a failed poll leaves until the next one: the cursor is where it was, nothing was read or
delivered, and the error came into the channel once or is about to. -/
structure Stalled (reading : Patrol) (cursor : Position) (error : StoreError) (patrol : Patrol) :
    Prop where
  polls : patrol.polls = reading.polls + 1
  surveyed : patrol.surveyed = reading.surveyed
  emitted : patrol.emitted = reading.emitted
  reported : patrol.poller.phase = .failing cursor error ∧ patrol.reported = reading.reported ∨
    (patrol.poller.phase = .reading cursor ∨ ∃ due, patrol.poller.phase = .resting cursor due) ∧
      patrol.reported = reading.reported ++ [error]

section

variable {reading patrol : Patrol} {cursor : Position} {error : StoreError}

theorem isClosed_step (h : patrol.channel.isClosed = true) (action : Action) :
    (patrol.step action).channel.isClosed = true := by
  cases action with
  | poll =>
    show patrol.stepPoll.channel.isClosed = true
    rcases patrol.stepPoll_cases with hsame | ⟨poller, server, hmove, hstep⟩
    · rw [hsame]
      exact h
    · rw [hstep]
      exact hmove.isClosed_eq.trans h
  | receive => exact patrol.channel.later_receive.closed h
  | close => exact patrol.channel.later_close.closed h
  | drop => exact patrol.channel.later_dropConsumer.closed h
  | request | fault | tick => exact h

theorem isClosed_run (h : patrol.channel.isClosed = true) (actions : List Action) :
    (patrol.run actions).channel.isClosed = true := by
  induction actions generalizing patrol with
  | nil => exact h
  | cons action later ih => exact ih (isClosed_step h action)

theorem polls_step (patrol : Patrol) (action : Action) : patrol.polls ≤ (patrol.step action).polls := by
  cases action with
  | poll =>
    show patrol.polls ≤ patrol.stepPoll.polls
    rcases patrol.stepPoll_cases with hsame | ⟨poller, server, -, hstep⟩
    · rw [hsame]
    · rw [hstep]
      unfold after
      dsimp only
      split
      · exact Nat.le_succ _
      · exact Nat.le_refl _
  | request | fault | tick | receive | close | drop => exact Nat.le_refl _

theorem polls_run (patrol : Patrol) (actions : List Action) :
    patrol.polls ≤ (patrol.run actions).polls := by
  induction actions generalizing patrol with
  | nil => exact Nat.le_refl _
  | cons action later ih => exact Nat.le_trans (patrol.polls_step action) (ih _)

/-- A poll that fails stalls the poller. -/
theorem stalled_of_failing {cursor' : Position} (phase : reading.poller.phase = .reading cursor)
    (failing : (reading.step .poll).poller.phase = .failing cursor' error) :
    Stalled reading cursor error (reading.step .poll) := by
  change reading.stepPoll.poller.phase = _ at failing
  show Stalled reading cursor error reading.stepPoll
  rcases reading.stepPoll_cases with hsame | ⟨poller, server, hmove, hstep⟩
  · rw [hsame, phase] at failing
    cases failing
  · rw [hstep] at failing ⊢
    obtain ⟨server₀, ⟨phase₀, channel⟩, clock, origin, surveyed, emitted, reported, polls⟩ := reading
    subst phase
    cases hmove with
    | @failed channel cursor error server' read =>
      cases failing
      have hemitted : emitted ++ arrived channel.record channel.record = emitted := by
        rw [arrived_self, List.append_nil]
      have hreported : reported ++ arrived channel.error channel.error = reported := by
        rw [arrived_self, List.append_nil]
      exact ⟨rfl, rfl, hemitted, .inl ⟨rfl, hreported⟩⟩
    | fetched read => cases failing
    | closed isClosed => cases failing

/-- Until the next poll and until the subscription is closed, it stays stalled. -/
theorem Stalled.stepPoll (h : Stalled reading cursor error patrol) :
    patrol.stepPoll.channel.isClosed = true ∨ reading.polls + 1 < patrol.stepPoll.polls ∨
      Stalled reading cursor error patrol.stepPoll := by
  rcases patrol.stepPoll_cases with hsame | ⟨poller, server, hmove, hstep⟩
  · rw [hsame]
    exact .inr (.inr h)
  · rw [hstep]
    obtain ⟨server₀, ⟨phase, channel⟩, clock, origin, surveyed, emitted, reported, polls⟩ := patrol
    obtain ⟨hpolls, hsurveyed, hemitted, hreported⟩ := h
    have hnothing : emitted ++ arrived channel.record channel.record = reading.emitted := by
      rw [arrived_self, List.append_nil]
      exact hemitted
    rcases hreported with ⟨hphase, hreported⟩ | ⟨hphase | ⟨due, hphase⟩, hreported⟩
    · -- the error is reported
      cases hphase
      cases hmove with
      | reported isOpen room =>
        refine .inr (.inr ⟨hpolls, hsurveyed, hnothing, .inr ⟨.inr ⟨_, rfl⟩, ?_⟩⟩)
        show reported ++ arrived channel.error (some error) = _
        rw [room]
        exact congrArg (· ++ [error]) hreported
      | closed isClosed => exact .inl isClosed
    · -- the next poll
      cases hphase
      exact .inr (.inl (Nat.lt_succ_of_le (Nat.le_of_eq hpolls.symm)))
    · -- the poller rests
      cases hphase
      cases hmove with
      | resumed isOpen =>
        refine .inr (.inr ⟨hpolls, hsurveyed, hnothing, .inr ⟨.inl rfl, ?_⟩⟩)
        show reported ++ arrived channel.error channel.error = _
        rw [arrived_self, List.append_nil]
        exact hreported
      | closed isClosed => exact .inl isClosed

theorem Stalled.step (h : Stalled reading cursor error patrol) (action : Action) :
    (patrol.step action).channel.isClosed = true ∨ reading.polls + 1 < (patrol.step action).polls ∨
      Stalled reading cursor error (patrol.step action) := by
  cases action with
  | poll => exact h.stepPoll
  | request | fault | tick | receive | close | drop =>
    exact .inr (.inr ⟨h.polls, h.surveyed, h.emitted, h.reported⟩)

theorem Stalled.run (h : Stalled reading cursor error patrol) {actions : List Action}
    (isOpen : (patrol.run actions).channel.isClosed = false)
    (polls : (patrol.run actions).polls = reading.polls + 1) :
    Stalled reading cursor error (patrol.run actions) := by
  induction actions generalizing patrol with
  | nil => exact h
  | cons action later ih =>
    -- what is closed stays so and polls are not taken back, so neither happened on the way
    rcases h.step action with hclosed | hpolls | hstalled
    · rw [run, isClosed_run hclosed later] at isOpen
      cases isOpen
    · have hlater := (patrol.step action).polls_run later
      have hcount : ((patrol.step action).run later).polls = reading.polls + 1 := polls
      omega
    · exact ih hstalled isOpen polls

end

/-- A poll that fails leaves the poller stalled until the next one. -/
theorem stalled_run {opened : Patrol} {earlier later : List Action} {cursor cursor' : Position}
    {error : StoreError} (phase : (opened.run earlier).poller.phase = .reading cursor)
    (failing : (opened.run (earlier ++ [.poll])).poller.phase = .failing cursor' error)
    (polls : (opened.run (earlier ++ .poll :: later)).polls = (opened.run earlier).polls + 1)
    (isOpen : (opened.run (earlier ++ .poll :: later)).channel.isClosed = false) :
    Stalled (opened.run earlier) cursor error (opened.run (earlier ++ .poll :: later)) := by
  rw [run_append] at failing polls isOpen ⊢
  exact (stalled_of_failing phase failing).run isOpen polls

/-! ## Every record is delivered -/

/-- When all that was read is dealt with, every record of a stream that is not deleted came into the
channel that was stored when a poll read it, that lies beyond the position where delivery starts and
that the filter admits. -/
theorem Kept.emitted_of_surveyed {stream : StreamId} {options : SubscribeOptions} {patrol : Patrol}
    {commit : Int} {passed rest : List Record} (h : Kept stream options patrol commit passed rest)
    (aligned : Aligned stream patrol.log patrol.surveyed) (going : patrol.poller.phase ≠ .ended)
    (done : patrol.poller.phase.inHand = []) {record : Record} (surveyed : record ∈ patrol.surveyed)
    (beyond : patrol.origin < record.positionIn stream)
    (admitted : options.admitsType record.typeName = true) : record ∈ patrol.emitted := by
  refine h.mem_emitted.mpr ⟨?_, admitted⟩
  refine ((h.trail_passed going done).mem_iff surveyed beyond).mpr fun earlier hearlier hbefore => ?_
  have hread : earlier ∈ patrol.surveyed := h.read (List.mem_append_left _ hearlier)
  exact aligned.ordered earlier (List.mem_append_left _ hread) record
    (List.mem_append_left _ surveyed) hbefore

/-- **Polling loses nothing**: as long as its stream is not deleted, a poller delivers in the order of
positions, starting where it is to start, each record once; when it has dealt with all that it read, it
has delivered every record of its kind that was stored at a poll which did not fail; and a poll that
fails leaves it where it was, with one error to report. -/
theorem polling_loses_nothing (before : List LogRequest) (stream : StreamId) (options : SubscribeOptions)
    (actions : List Action) (spares : ∀ action ∈ actions, action.Spares stream)
    (few : (((start before stream options).run actions).log.lastCommit : Int)
      < Int64.maxValue.toInt) :
    let opened := start before stream options
    let patrol := opened.run actions
    (options.position.isLast = false → patrol.origin = options.position) ∧
    (∀ earlier later cursor, actions = earlier ++ .poll :: later →
      (opened.run earlier).poller.phase = .locating →
      (opened.run (earlier ++ [.poll])).poller.phase = .reading cursor →
        patrol.origin = cursor ∧
          cursor = cursorAfter stream .start ((opened.run earlier).log.stored stream)) ∧
    patrol.emitted.Pairwise (·.positionIn stream < ·.positionIn stream) ∧
    (∀ record ∈ patrol.emitted, record ∈ patrol.surveyed ∧
      patrol.origin < record.positionIn stream ∧ options.admitsType record.typeName = true) ∧
    (patrol.poller.phase ≠ .ended → patrol.poller.phase.inHand = [] →
      ∀ record ∈ patrol.surveyed, patrol.origin < record.positionIn stream →
        options.admitsType record.typeName = true → record ∈ patrol.emitted) ∧
    ∀ earlier later cursor cursor' error, actions = earlier ++ .poll :: later →
      (opened.run earlier).poller.phase = .reading cursor →
      (opened.run (earlier ++ [.poll])).poller.phase = .failing cursor' error →
      patrol.polls = (opened.run earlier).polls + 1 → patrol.channel.isClosed = false →
        Stalled (opened.run earlier) cursor error patrol := by
  intro opened patrol
  change (patrol.log.lastCommit : Int) < Int64.maxValue.toInt at few
  have hopened : opened.log.lastCommit ≤ patrol.log.lastCommit := opened.lastCommit_run actions
  have hopenedFew : (opened.log.lastCommit : Int) ≤ Int64.maxValue.toInt := by omega
  have hstart : Kept stream options opened 0 [] [] := kept_start before stream options hopenedFew
  obtain ⟨commit, passed, rest, hkept⟩ := hstart.run actions few
  refine ⟨hkept.origin, ?_, hkept.emitted_ordered.imp And.left, ?_, ?_, ?_⟩
  · intro earlier later cursor hactions hlocating hreading
    subst hactions
    exact hstart.origin_of_located few hlocating hreading
  · intro record hrecord
    obtain ⟨hpassed, hadmitted⟩ := hkept.mem_emitted.mp hrecord
    exact ⟨hkept.read (List.mem_append_left _ hpassed), hkept.origin_lt hrecord, hadmitted⟩
  · have haligned : Aligned stream patrol.log patrol.surveyed :=
      (aligned_empty hstart.ledger.numbered hopenedFew).run hstart spares few
    exact fun going done record => hkept.emitted_of_surveyed haligned going done
  · intro earlier later cursor cursor' error hactions hphase hfailing hpolls hopen
    subst hactions
    exact stalled_run hphase hfailing hpolls hopen

/-- Records of other types than `u` are wanted. While the poller is at work, the first record of the
stream is truncated, another stream comes and goes, and a poll fails. -/
def sampleStart : List LogRequest :=
  [.append ⟨"a"⟩ .any [⟨"1", "t", .null, []⟩, ⟨"2", "u", .null, []⟩]]

def sampleOptions : SubscribeOptions := ⟨.start, some (.exclude ["u"])⟩

def sampleBeforeFailure : List Action :=
  [.poll, .poll, .poll, .poll, .receive, .request (.truncate ⟨"a"⟩ 1),
    .request (.append ⟨"b"⟩ .any [⟨"4", "t", .null, []⟩]), .request (.delete ⟨"b"⟩),
    .fault ⟨.readStream, .logServer 503 "", 1⟩, .tick, .poll]

/-- Then the error is received, a third record is appended, and the next poll succeeds. -/
def sampleAfterFailure : List Action :=
  [.receive, .request (.append ⟨"a"⟩ .any [⟨"3", "t", .null, []⟩]), .tick, .poll, .poll, .poll]

def samplePatrol (actions : List Action) : Patrol :=
  (start sampleStart ⟨"a"⟩ sampleOptions).run (sampleBeforeFailure ++ actions)

/-- The failed poll costs nothing, and the third record is delivered. -/
theorem polling_loses_nothing_sample :
    (∀ action ∈ sampleBeforeFailure ++ .poll :: .poll :: sampleAfterFailure, action.Spares ⟨"a"⟩) ∧
      ((samplePatrol (.poll :: .poll :: sampleAfterFailure)).log.lastCommit : Int)
        < Int64.maxValue.toInt ∧
      (samplePatrol []).poller.phase = .reading ⟨1⟩ ∧
      (samplePatrol [.poll]).poller.phase = .failing ⟨1⟩ (.logServer 503 "") ∧
      Stalled (samplePatrol []) ⟨1⟩ (.logServer 503 "") (samplePatrol [.poll, .poll]) ∧
      (samplePatrol (.poll :: .poll :: sampleAfterFailure)).poller.phase = .delivering ⟨2⟩ [] ∧
      (samplePatrol (.poll :: .poll :: sampleAfterFailure)).emitted.map Record.id
        = [⟨"1"⟩, ⟨"3"⟩] ∧
      ∃ record ∈ (samplePatrol (.poll :: .poll :: sampleAfterFailure)).surveyed,
        record.id = ⟨"3"⟩ ∧
          record ∈ (samplePatrol (.poll :: .poll :: sampleAfterFailure)).emitted := by
  have spares : ∀ action ∈ sampleBeforeFailure ++ .poll :: .poll :: sampleAfterFailure,
      action.Spares ⟨"a"⟩ := by decide
  have spares' : ∀ action ∈ sampleBeforeFailure ++ [.poll, .poll], action.Spares ⟨"a"⟩ := by decide
  have few : ((samplePatrol (.poll :: .poll :: sampleAfterFailure)).log.lastCommit : Int)
      < Int64.maxValue.toInt := by decide
  have few' : ((samplePatrol [.poll, .poll]).log.lastCommit : Int) < Int64.maxValue.toInt := by decide
  have reading : (samplePatrol []).poller.phase = .reading ⟨1⟩ := rfl
  have failing : (samplePatrol [.poll]).poller.phase = .failing ⟨1⟩ (.logServer 503 "") := rfl
  have stored : (⟨⟨⟨"3"⟩, "t", .null, .empty⟩, ⟨"a"⟩, ⟨2⟩, ⟨4⟩,
      Timestamp.start2024.addSeconds 4⟩ : Record)
      ∈ (samplePatrol (.poll :: .poll :: sampleAfterFailure)).surveyed := by decide
  refine ⟨spares, few, reading, failing, ?_, rfl, rfl, _, stored, rfl, ?_⟩
  · obtain ⟨-, -, -, -, -, hstalled⟩ :=
      polling_loses_nothing sampleStart ⟨"a"⟩ sampleOptions _ spares' few'
    exact hstalled sampleBeforeFailure [.poll] _ _ _ rfl reading failing rfl rfl
  · obtain ⟨-, -, -, -, hcomplete, -⟩ :=
      polling_loses_nothing sampleStart ⟨"a"⟩ sampleOptions _ spares few
    exact hcomplete nofun rfl _ stored (by decide) (by decide)

end Patrol

end EventJournal
