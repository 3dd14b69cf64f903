import EventJournal.Proofs.LogServer.Requests

/-!
# The extent of a stream that others write to

The extent of a stream on a log server is asked for in two reads, one for the first record and one for the
last, and other clients may be served between them. So its two ends may come from different moments, and
even from different lives of the stream.

* `SharedLog` — a server that others use too: what they ask for is served before each request.
* `LogModel.Onward.head_eq` — the first record of a stream stays so as long as it is stored.
* `LogModel.Spared.first_le` — it stands before every later one unless the stream is deleted.
* `bounds_of_two_moments` — the main statement. The trace after it is one where the extent that is told
  begins above its end.
-/

namespace EventJournal

/-- A log server that others use too. -/
structure SharedLog where
  server : LogModel
  /-- What others ask for before each of the next requests. -/
  others : List (List LogRequest)

namespace SharedLog

/-- Serves the others, then a request. -/
def serve {α : Type} (request : LogModel → Outcome α × LogModel) (log : SharedLog) :
    Outcome α × SharedLog :=
  let (outcome, server) := request (LogRequest.sendAll LogModel.client (log.others.headD []) log.server)
  (outcome, ⟨server, log.others.tail⟩)

/-- The way to a server that others use too. -/
def client : LogClient SharedLog where
  append stream expected events := serve (LogModel.client.append stream expected events)
  readStream stream request := serve (LogModel.client.readStream stream request)
  readAll request := serve (LogModel.client.readAll request)
  truncate stream before := serve (LogModel.client.truncate stream before)
  delete stream := serve (LogModel.client.delete stream)

/-- A read gives what the server gives once the others were served. -/
theorem readRecords_eq (stream : StreamId) (request : ReadRequest) (server : LogModel)
    (next : List LogRequest) (others : List (List LogRequest)) :
    LogServer.readRecords client stream request ⟨server, next :: others⟩
      = ((LogServer.readRecords LogModel.client stream request
          (LogRequest.sendAll LogModel.client next server)).1,
        ⟨LogRequest.sendAll LogModel.client next server, others⟩) := by
  unfold LogServer.readRecords
  split <;> rfl

end SharedLog

/-- The extent of a stream with a first and a last record. -/
def StreamBounds.ofEnds (stream : StreamId) (first last : Option Record) : Outcome StreamBounds :=
  match first, last with
  | some first, some last =>
    .ok ⟨stream, ⟨(last.positionIn stream).value⟩, ⟨(first.positionIn stream).value⟩⟩
  | _, _ => .error (.streamNotFound stream)

/-- The extent of a stream comes from the ends of two reads. -/
theorem bounds_of_reads {σ : Type} {client : LogClient σ} {stream : StreamId} {state state' state'' : σ}
    {first last : Option (List Record)}
    (read : LogServer.readRecords client stream .first state = (.ok first, state'))
    (read' : LogServer.readRecords client stream .last state' = (.ok last, state'')) :
    (LogServer.bounds client stream state).outcome
      = StreamBounds.ofEnds stream (first.bind List.head?) (last.bind List.head?) := by
  have hfirst : LogServer.readFor client "get_stream" stream .first state = .unchanged state' first := by
    rw [LogServer.readFor, read]
    rfl
  have hlast : LogServer.readFor client "get_stream" stream .last state' = .unchanged state'' last := by
    rw [LogServer.readFor, read']
    rfl
  rw [LogServer.bounds, hfirst]
  simp only [Answer.unchanged, Answer.andThen, hlast]
  cases first.bind List.head? with
  | none => rfl
  | some record => cases last.bind List.head? <;> rfl

namespace LogModel

variable {server : LogModel} {stream : StreamId}

/-- With nobody else, both ends are those of what is stored. -/
theorem Numbered.bounds_eq (h : Numbered server)
    (few : (server.lastCommit : Int) < Int64.maxValue.toInt) (stream : StreamId) :
    (LogServer.bounds client stream server).outcome
      = StreamBounds.ofEnds stream (server.stored stream).head? (server.stored stream).getLast? := by
  obtain ⟨first, hread, hfirst⟩ := readRecords_first server stream
  obtain ⟨last, hread', hlast⟩ := h.readRecords_last few stream
  rw [bounds_of_reads hread hread', hfirst, hlast]

/-- The first record of a stream stays so as long as it is stored. -/
theorem Onward.head_eq {before after : LogModel} (onward : Onward stream before after)
    (h : Numbered before) (h' : Numbered after)
    (few : (before.lastCommit : Int) ≤ Int64.maxValue.toInt)
    (few' : (after.lastCommit : Int) ≤ Int64.maxValue.toInt) {record : Record}
    (first : (before.stored stream).head? = some record) (stored : record ∈ after.stored stream) :
    (after.stored stream).head? = some record := by
  obtain ⟨later, hbefore⟩ := List.head?_eq_some_iff.mp first
  have hordered := h.stored_ordered few stream
  have hordered' := h'.stored_ordered few' stream
  have hnumber := (h.stored_numbers few (List.mem_of_head? first)).1
  cases hafter : after.stored stream with
  | nil =>
    rw [hafter] at stored
    cases stored
  | cons other rest =>
    rw [hafter] at stored hordered'
    rcases List.mem_cons.mp stored with rfl | hrest
    · rfl
    · -- what stands before it would be older, and was not there
      have hlt := ((List.pairwise_cons.mp hordered').1 record hrest).2
      rw [SequenceNumber.lt_iff_toInt] at hlt
      rcases onward.fresh other (hafter ▸ List.mem_cons_self) with hold | hfresh
      · rw [hbefore] at hold hordered
        rcases List.mem_cons.mp hold with rfl | hlater
        · rfl
        · have hback := ((List.pairwise_cons.mp hordered).1 other hlater).2
          rw [SequenceNumber.lt_iff_toInt] at hback
          omega
      · omega

/-- The first record of a stream that is not deleted stands before every one that comes later. -/
theorem Spared.first_le {before after : LogModel} (spared : Spared stream before after)
    (h : Numbered before) (few : (before.lastCommit : Int) ≤ Int64.maxValue.toInt)
    {first last : Record} (hfirst : (before.stored stream).head? = some first)
    (hlast : last ∈ after.stored stream) :
    (first.positionIn stream).toInt ≤ (last.positionIn stream).toInt := by
  rcases spared.beyond last hlast with hold | hbeyond
  · obtain ⟨later, hbefore⟩ := List.head?_eq_some_iff.mp hfirst
    have hordered := h.stored_ordered few stream
    rw [hbefore] at hold hordered
    rcases List.mem_cons.mp hold with rfl | hlater
    · exact Int.le_refl _
    · have hlt := ((List.pairwise_cons.mp hordered).1 last hlater).1
      rw [Position.lt_iff_toInt] at hlt
      omega
  · have hnumbers := (h.stored_numbers few (List.mem_of_head? hfirst)).2.1
    omega

end LogModel

/-- **The extent of a stream comes from two moments**: `first` is the server when it serves the first read,
and `second` when it serves the second. The answer is made of the first record that was stored at the one
and of the last that was stored at the other. It is the answer that one of the two moments would have given,
unless there is an extent at all and the first record was removed between them. The first version is not
above the last unless the stream was deleted between them. -/
theorem bounds_of_two_moments (history before between : List LogRequest) (stream : StreamId)
    (few : ((LogRequest.sendAll LogModel.client (history ++ before ++ between) .empty).lastCommit : Int)
      < Int64.maxValue.toInt) :
    let server := LogRequest.sendAll LogModel.client history .empty
    let first := LogRequest.sendAll LogModel.client before server
    let second := LogRequest.sendAll LogModel.client between first
    let answer := (LogServer.bounds SharedLog.client stream ⟨server, [before, between]⟩).outcome
    answer = StreamBounds.ofEnds stream (first.stored stream).head? (second.stored stream).getLast? ∧
      (answer = (LogServer.bounds LogModel.client stream first).outcome ∨
        answer = (LogServer.bounds LogModel.client stream second).outcome ∨
        (∃ bounds, answer = .ok bounds) ∧
          ∃ record, (first.stored stream).head? = some record ∧ record ∉ second.stored stream) ∧
      ((∀ request ∈ between, request.Spares stream) → ∀ bounds, answer = .ok bounds →
        bounds.initialVersion.toInt ≤ bounds.version.toInt) := by
  intro server first second answer
  have hsecond : LogRequest.sendAll LogModel.client (history ++ before ++ between) .empty = second := by
    rw [LogRequest.sendAll_append, LogRequest.sendAll_append]
  rw [hsecond] at few
  have honward : first.lastCommit ≤ second.lastCommit := LogModel.lastCommit_sendAll between first
  have hnumbered : LogModel.Numbered first := by
    have hfirst : LogRequest.sendAll LogModel.client (history ++ before) .empty = first :=
      LogRequest.sendAll_append ..
    rw [← hfirst]
    exact LogModel.Numbered.empty.sendAll _ (by rw [hfirst]; omega)
  have hnumbered' : LogModel.Numbered second := hnumbered.sendAll between (Int.le_of_lt few)
  obtain ⟨read, hread, hhead⟩ := LogModel.readRecords_first first stream
  obtain ⟨read', hread', hlast⟩ := hnumbered'.readRecords_last few stream
  have hanswer : answer
      = StreamBounds.ofEnds stream (first.stored stream).head? (second.stored stream).getLast? := by
    rw [← hhead, ← hlast]
    have hshared : LogServer.readRecords SharedLog.client stream .first ⟨server, [before, between]⟩
        = (.ok read, ⟨first, [between]⟩) := by
      rw [SharedLog.readRecords_eq, hread]
    have hshared' : LogServer.readRecords SharedLog.client stream .last ⟨first, [between]⟩
        = (.ok read', ⟨second, []⟩) := by
      rw [SharedLog.readRecords_eq, hread']
    exact bounds_of_reads hshared hshared'
  refine ⟨hanswer, ?_, fun spares bounds hbounds => ?_⟩
  · rw [hnumbered.bounds_eq (by omega), hnumbered'.bounds_eq few, hanswer]
    cases hhead : (first.stored stream).head? with
    | none => exact .inl rfl
    | some record =>
      right
      cases hlast : (second.stored stream).getLast? with
      | none =>
        left
        rw [List.getLast?_eq_none_iff.mp hlast]
        rfl
      | some last =>
        by_cases hstored : record ∈ second.stored stream
        · left
          rw [(hnumbered.onward_sendAll stream between (Int.le_of_lt few)).head_eq hnumbered
            hnumbered' (by omega) (Int.le_of_lt few) hhead hstored]
        · exact .inr ⟨⟨_, rfl⟩, record, rfl, hstored⟩
  · rw [hanswer] at hbounds
    cases hhead : (first.stored stream).head? with
    | none =>
      rw [hhead] at hbounds
      cases hbounds
    | some record =>
      cases hlast : (second.stored stream).getLast? with
      | none =>
        rw [hhead, hlast] at hbounds
        cases hbounds
      | some last =>
        rw [hhead, hlast] at hbounds
        cases hbounds
        exact (hnumbered.spared_sendAll spares (Int.le_of_lt few)).first_le hnumbered (by omega) hhead
          (List.mem_of_getLast? hlast)

/-- A stream of three records of which the first two are cut off. -/
def extentHistory : List LogRequest :=
  [.append ⟨"a"⟩ .any [⟨"1", "t", .null, []⟩, ⟨"2", "t", .null, []⟩, ⟨"3", "t", .null, []⟩],
    .truncate ⟨"a"⟩ 2]

/-- It is deleted and begins anew. -/
def startingAnew : List LogRequest := [.delete ⟨"a"⟩, .append ⟨"a"⟩ .any [⟨"4", "t", .null, []⟩]]

/-- The server when it served the history and some of the rest. -/
def anewServer (served : Nat) : LogModel :=
  LogRequest.sendAll LogModel.client (startingAnew.take served)
    (LogRequest.sendAll LogModel.client extentHistory .empty)

/-- The extent that is told begins above its end, and at no moment was it the extent of the stream. -/
theorem bounds_of_two_moments_sample :
    ((LogRequest.sendAll LogModel.client (extentHistory ++ [] ++ startingAnew) .empty).lastCommit : Int)
        < Int64.maxValue.toInt ∧
      (LogServer.bounds SharedLog.client ⟨"a"⟩ ⟨anewServer 0, [[], startingAnew]⟩).outcome
        = .ok ⟨⟨"a"⟩, ⟨0⟩, ⟨2⟩⟩ ∧
      (LogServer.bounds LogModel.client ⟨"a"⟩ (anewServer 0)).outcome = .ok ⟨⟨"a"⟩, ⟨2⟩, ⟨2⟩⟩ ∧
      (LogServer.bounds LogModel.client ⟨"a"⟩ (anewServer 1)).outcome
        = .error (.streamNotFound ⟨"a"⟩) ∧
      (LogServer.bounds LogModel.client ⟨"a"⟩ (anewServer 2)).outcome = .ok ⟨⟨"a"⟩, ⟨0⟩, ⟨0⟩⟩ ∧
      ∃ record, ((anewServer 0).stored ⟨"a"⟩).head? = some record ∧
        record ∉ (anewServer 2).stored ⟨"a"⟩ := by
  have few : ((LogRequest.sendAll LogModel.client (extentHistory ++ [] ++ startingAnew)
      .empty).lastCommit : Int) < Int64.maxValue.toInt := by decide
  have told : (LogServer.bounds SharedLog.client ⟨"a"⟩ ⟨anewServer 0, [[], startingAnew]⟩).outcome
      = .ok ⟨⟨"a"⟩, ⟨0⟩, ⟨2⟩⟩ := by decide
  have before : (LogServer.bounds LogModel.client ⟨"a"⟩ (anewServer 0)).outcome
      = .ok ⟨⟨"a"⟩, ⟨2⟩, ⟨2⟩⟩ := by decide
  have after : (LogServer.bounds LogModel.client ⟨"a"⟩ (anewServer 2)).outcome
      = .ok ⟨⟨"a"⟩, ⟨0⟩, ⟨0⟩⟩ := by decide
  obtain ⟨-, hmoment, -⟩ := bounds_of_two_moments extentHistory [] startingAnew ⟨"a"⟩ few
  refine ⟨few, told, before, by decide, after, ?_⟩
  rcases hmoment with hsame | hsame | ⟨-, hgone⟩
  · cases told.symm.trans (hsame.trans before)
  · cases told.symm.trans (hsame.trans after)
  · exact hgone

end EventJournal
