import EventJournal.LogServer.Unreliable
import EventJournal.Proofs.LogServer.Agreement
import EventJournal.Proofs.Store.Trail

/-!
# A log server, request by request

A call of a store over a log server comes to a few requests, and others may be served between two of
them. So what is to hold of a server at every moment is proved for requests.

* `IssuedCall.run_requests` — a call comes to a list of requests, over any client.
* `LogModel.Numbered` — commit positions are in order along the log and revisions along each stream.
  `LogModel.Numbered.send`: every request keeps them so.
* `LogModel.Onward` — what is stored after a request was stored before or has a later commit position;
  `LogModel.Spared`: and a greater number in its stream, when the stream is not deleted.
-/

namespace EventJournal

/-! ## Requests -/

/-- A request to a log server. -/
inductive LogRequest where
  | append (stream : StreamId) (expected : ExpectedRevision) (events : List ProposedEvent)
  | readStream (stream : StreamId) (request : ReadRequest)
  | readAll (request : ReadRequest)
  | truncate (stream : StreamId) (before : UInt64)
  | delete (stream : StreamId)
  deriving Repr, DecidableEq, Inhabited

namespace LogRequest

variable {σ : Type}

/-- What a request leaves of the server, or of the way to it. -/
def send (client : LogClient σ) (state : σ) : LogRequest → σ
  | append stream expected events => (client.append stream expected events state).2
  | readStream stream request => (client.readStream stream request state).2
  | readAll request => (client.readAll request state).2
  | truncate stream before => (client.truncate stream before state).2
  | delete stream => (client.delete stream state).2

/-- What requests leave that are sent one after another. -/
def sendAll (client : LogClient σ) : List LogRequest → σ → σ
  | [], state => state
  | request :: rest, state => sendAll client rest (request.send client state)

theorem sendAll_append (client : LogClient σ) (earlier later : List LogRequest) (state : σ) :
    sendAll client (earlier ++ later) state = sendAll client later (sendAll client earlier state) := by
  induction earlier generalizing state with
  | nil => rfl
  | cons request rest ih => exact ih _

/-- The request neither deletes a stream nor, on the whole log, can matter to it. -/
def Spares (stream : StreamId) : LogRequest → Prop
  | delete other => other ≠ stream ∨ stream = .global
  | _ => True

instance (stream : StreamId) (request : LogRequest) : Decidable (request.Spares stream) :=
  match request with
  | .delete other => inferInstanceAs (Decidable (other ≠ stream ∨ stream = .global))
  | .append _ _ _ => inferInstanceAs (Decidable True)
  | .readStream _ _ => inferInstanceAs (Decidable True)
  | .readAll _ => inferInstanceAs (Decidable True)
  | .truncate _ _ => inferInstanceAs (Decidable True)

end LogRequest

section

variable {σ : Type} {client : LogClient σ} {gone : StreamId → Prop} {state state' state'' : σ}

/-- One state is what some requests leave of another, of which those that delete a stream delete one of
the given kind. -/
def LogClient.Reaches (client : LogClient σ) (gone : StreamId → Prop) (state state' : σ) : Prop :=
  ∃ requests, (∀ stream, .delete stream ∈ requests → gone stream) ∧
    state' = LogRequest.sendAll client requests state

namespace LogClient.Reaches

theorem refl (client : LogClient σ) (gone : StreamId → Prop) (state : σ) :
    client.Reaches gone state state :=
  ⟨[], nofun, rfl⟩

theorem of_send (request : LogRequest) (deletes : ∀ stream, request = .delete stream → gone stream) :
    client.Reaches gone state (request.send client state) :=
  ⟨[request], fun stream h => deletes stream (List.mem_singleton.mp h).symm, rfl⟩

theorem of_truncate {stream : StreamId} {before : UInt64} {outcome : Outcome Unit}
    (h : client.truncate stream before state = (outcome, state')) :
    client.Reaches gone state state' :=
  ⟨[.truncate stream before], nofun, (congrArg Prod.snd h).symm⟩

theorem of_delete {stream : StreamId} {outcome : Outcome Bool}
    (h : client.delete stream state = (outcome, state')) :
    client.Reaches (stream = ·) state state' := by
  refine ⟨[.delete stream], fun other hother => ?_, (congrArg Prod.snd h).symm⟩
  cases List.mem_singleton.mp hother
  rfl

theorem mono {gone' : StreamId → Prop} (h : client.Reaches gone state state')
    (weaker : ∀ stream, gone stream → gone' stream) : client.Reaches gone' state state' := by
  obtain ⟨requests, hrequests, rfl⟩ := h
  exact ⟨requests, fun stream hstream => weaker stream (hrequests stream hstream), rfl⟩

theorem trans (h : client.Reaches gone state state') (h' : client.Reaches gone state' state'') :
    client.Reaches gone state state'' := by
  obtain ⟨earlier, hearlier, rfl⟩ := h
  obtain ⟨later, hlater, rfl⟩ := h'
  refine ⟨earlier ++ later, fun stream hstream => ?_, (LogRequest.sendAll_append ..).symm⟩
  exact (List.mem_append.mp hstream).elim (hearlier stream) (hlater stream)

/-- What follows an answer starts where the answer ended, or does not take place. -/
theorem andThen {α β : Type} {answer : Answer σ α} {next : α → σ → Answer σ β}
    (h : client.Reaches gone state answer.state)
    (h' : ∀ value, client.Reaches gone answer.state (next value answer.state).state) :
    client.Reaches gone state (answer.andThen next).state := by
  unfold Answer.andThen
  split
  · exact h
  · exact h.trans (h' _)

end LogClient.Reaches

open LogClient.Reaches

theorem readRecords_reaches (stream : StreamId) (request : ReadRequest) :
    client.Reaches gone state (LogServer.readRecords client stream request state).2 := by
  unfold LogServer.readRecords
  split
  · exact of_send (.readAll request) nofun
  · exact of_send (.readStream stream request) nofun

theorem bounds_reaches (stream : StreamId) :
    client.Reaches gone state (LogServer.bounds client stream state).state := by
  refine andThen (readRecords_reaches stream .first) fun first => ?_
  refine andThen (readRecords_reaches stream .last) fun last => ?_
  split
  · exact refl client gone _
  · exact refl client gone _

theorem append_reaches (stream : StreamId) (events : List Event) (expected : Option StreamVersion) :
    client.Reaches gone state (LogServer.append client stream events expected state).state := by
  unfold LogServer.append
  split
  · exact refl client gone state
  · split
    · exact refl client gone state
    · split
      · split
        · exact refl client gone state
        · exact bounds_reaches stream
      · have hsend : client.Reaches gone state _ :=
          of_send (.append stream (.ofVersion expected) (events.map ProposedEvent.ofEvent)) nofun
        unfold LogServer.send
        dsimp only
        split
        all_goals exact hsend

theorem delete_reaches (stream : StreamId) (fresh : EventId) :
    client.Reaches (stream = ·) state (LogServer.delete client stream fresh state).state := by
  unfold LogServer.delete
  split
  · exact refl client _ state
  · split
    · rename_i hdelete
      exact of_delete hdelete
    · rename_i hdelete
      exact of_delete hdelete
    · rename_i hdelete
      exact (of_delete hdelete).trans (append_reaches .markers _ none)

/-- A call of a store over a log server comes to a list of requests, and deletes what it is to delete. -/
theorem IssuedCall.run_requests (issued : IssuedCall) :
    client.Reaches (fun stream => issued.call = .delete stream) state
      (issued.run (.logServer client) state).2 := by
  obtain ⟨call, now, fresh⟩ := issued
  cases call with
  | append stream events expected => exact append_reaches stream events expected
  | read stream options =>
    refine andThen (readRecords_reaches stream _) fun records => ?_
    cases records <;> exact refl client _ _
  | truncate stream before =>
    show client.Reaches _ state (LogServer.truncate client stream before fresh state).state
    unfold LogServer.truncate
    split
    · exact refl client _ state
    · split
      · rename_i htruncate
        exact of_truncate htruncate
      · rename_i htruncate
        exact (of_truncate htruncate).trans (append_reaches .markers _ none)
  | delete stream =>
    exact (delete_reaches stream fresh).mono fun other hother => congrArg StoreCall.delete hother
  | exists? stream => exact readRecords_reaches stream .first
  | bounds stream => exact bounds_reaches stream

end

/-! ## The numbers of a model server -/

/-- An unsigned word that is not too great stands for itself. -/
theorem toInt_toInt64 {code : UInt64} (h : (code.toNat : Int) ≤ Int64.maxValue.toInt) :
    code.toInt64.toInt = code.toNat := by
  have hmax : Int64.maxValue.toInt = 9223372036854775807 := by decide
  have hword : (Int64.ofNat code.toNat).toInt = code.toNat := by
    refine Int64.toInt_ofNat_of_lt ?_
    omega
  rw [toInt64_eq hword]
  exact hword

namespace LogModel

variable {server : LogModel}

/-- The records of a server, as records of the journal. -/
def journal (server : LogModel) : List Record := server.records.map ServerRecord.toRecord

/-- What a read of a stream goes through. -/
def stored (server : LogModel) (stream : StreamId) : List Record :=
  ((server.readable? stream).getD []).map ServerRecord.toRecord

/-- The number that a stream gives out next; on the whole log, the next commit position. -/
def nextNumber (server : LogModel) (stream : StreamId) : Nat :=
  if stream.isGlobal then server.lastCommit + 1 else (server.head? stream).getD 0

/-- The numbers on a server are in order and were given out. -/
structure Numbered (server : LogModel) : Prop where
  ordered : server.records.Pairwise fun a b =>
    a.commitPosition.toNat < b.commitPosition.toNat ∧
      (a.stream = b.stream → a.revision.toNat < b.revision.toNat)
  committed : ∀ record ∈ server.records,
    1 ≤ record.commitPosition.toNat ∧ record.commitPosition.toNat ≤ server.lastCommit
  revised : ∀ record ∈ server.records,
    ∃ head, server.head? ⟨record.stream⟩ = some head ∧ record.revision.toNat < head
  heads : ∀ stream head, server.head? stream = some head → head ≤ server.lastCommit

theorem Numbered.empty : Numbered .empty := ⟨.nil, nofun, nofun, nofun⟩

/-! ### Batches -/

/-- The numbers in a batch are consecutive. -/
theorem mem_recordBatch {stream : StreamId} {events : List ProposedEvent} {revision commit : Nat}
    {record : ServerRecord} (h : record ∈ recordBatch stream events revision commit) :
    record.stream = stream.name ∧ ∃ place < events.length,
      record.revision = UInt64.ofNat (revision + place) ∧
        record.commitPosition = UInt64.ofNat (commit + 1 + place) := by
  induction events generalizing revision commit with
  | nil => cases h
  | cons event rest ih =>
    rcases List.mem_cons.mp h with rfl | hlater
    · exact ⟨rfl, 0, Nat.zero_lt_succ _, rfl, rfl⟩
    · obtain ⟨hstream, place, hplace, hrevision, hcommit⟩ := ih hlater
      refine ⟨hstream, place + 1, Nat.succ_lt_succ hplace, ?_, ?_⟩
      · rw [hrevision, Nat.add_assoc, Nat.add_comm 1 place]
      · rw [hcommit, Nat.add_assoc (commit + 1), Nat.add_comm 1 place]

/-- As long as the words do not run out, they are numbers from the next ones on. -/
theorem recordBatch_numbers {stream : StreamId} {events : List ProposedEvent} {revision commit : Nat}
    (room : (commit + events.length : Int) ≤ Int64.maxValue.toInt)
    (room' : (revision + events.length : Int) ≤ Int64.maxValue.toInt) {record : ServerRecord}
    (h : record ∈ recordBatch stream events revision commit) :
    (revision ≤ record.revision.toNat ∧ record.revision.toNat < revision + events.length) ∧
      commit < record.commitPosition.toNat ∧ record.commitPosition.toNat ≤ commit + events.length := by
  obtain ⟨-, place, hplace, hrevision, hcommit⟩ := mem_recordBatch h
  rw [hrevision, hcommit, toNat_ofNat (by omega), toNat_ofNat (by omega)]
  omega

theorem recordBatch_ordered {stream : StreamId} {events : List ProposedEvent} {revision commit : Nat}
    (room : (commit + events.length : Int) ≤ Int64.maxValue.toInt)
    (room' : (revision + events.length : Int) ≤ Int64.maxValue.toInt) :
    (recordBatch stream events revision commit).Pairwise fun a b =>
      a.commitPosition.toNat < b.commitPosition.toNat ∧
        (a.stream = b.stream → a.revision.toNat < b.revision.toNat) := by
  induction events generalizing revision commit with
  | nil => exact .nil
  | cons event rest ih =>
    rw [List.length_cons] at room room'
    refine .cons (fun later hlater => ?_) (ih (by omega) (by omega))
    have hnumbers := recordBatch_numbers (by omega) (by omega) hlater
    show (UInt64.ofNat (commit + 1)).toNat < _ ∧ (_ → (UInt64.ofNat revision).toNat < _)
    rw [toNat_ofNat (by omega), toNat_ofNat (by omega)]
    exact ⟨by omega, fun _ => by omega⟩

/-! ### Keeping the numbers in order -/

theorem head?_add (stream other : StreamId) (events : List ProposedEvent) :
    (server.add stream events).head? other
      = if other = stream then some ((server.head? stream).getD 0 + events.length)
        else server.head? other := by
  show List.lookup other (_ :: _) = _
  rw [List.lookup_cons, MemoryStore.lookup_filter_ne]
  by_cases hsame : other = stream
  · rw [if_pos hsame, if_pos hsame, hsame, beq_self_eq_true]
  · rw [if_neg hsame, if_neg hsame, beq_false_of_ne hsame]
    rfl

theorem Numbered.head_le (h : Numbered server) (stream : StreamId) :
    (server.head? stream).getD 0 ≤ server.lastCommit := by
  cases hhead : server.head? stream with
  | none => exact Nat.zero_le _
  | some head => exact h.heads stream head hhead

theorem Numbered.add (h : Numbered server) (stream : StreamId) (events : List ProposedEvent)
    (room : (server.lastCommit + events.length : Int) ≤ Int64.maxValue.toInt) :
    Numbered (server.add stream events) := by
  have hhead := h.head_le stream
  have room' : ((server.head? stream).getD 0 + events.length : Int) ≤ Int64.maxValue.toInt := by omega
  constructor
  case ordered =>
    refine List.pairwise_append.mpr ⟨h.ordered, recordBatch_ordered room room', ?_⟩
    intro old hold fresh hfresh
    have hcommitted := (h.committed old hold).2
    obtain ⟨⟨hrevision, -⟩, hcommit, -⟩ := recordBatch_numbers room room' hfresh
    refine ⟨by omega, fun hsame => ?_⟩
    obtain ⟨head, hfound, hlt⟩ := h.revised old hold
    have hstream : (⟨old.stream⟩ : StreamId) = stream := by rw [hsame, (mem_recordBatch hfresh).1]
    rw [hstream] at hfound
    rw [hfound, Option.getD_some] at hrevision
    omega
  case committed =>
    intro record hrecord
    show _ ∧ _ ≤ server.lastCommit + events.length
    rcases List.mem_append.mp hrecord with hold | hfresh
    · have hcommitted := h.committed record hold
      omega
    · have hnumbers := recordBatch_numbers room room' hfresh
      omega
  case revised =>
    intro record hrecord
    rw [head?_add]
    rcases List.mem_append.mp hrecord with hold | hfresh
    · obtain ⟨head, hfound, hlt⟩ := h.revised record hold
      split
      · rename_i hstream
        rw [hstream] at hfound
        rw [hfound]
        exact ⟨_, rfl, by rw [Option.getD_some]; omega⟩
      · exact ⟨head, hfound, hlt⟩
    · have hstream : (⟨record.stream⟩ : StreamId) = stream := by rw [(mem_recordBatch hfresh).1]
      rw [if_pos hstream]
      exact ⟨_, rfl, (recordBatch_numbers room room' hfresh).1.2⟩
  case heads =>
    intro other head hfound
    show head ≤ server.lastCommit + events.length
    rw [head?_add] at hfound
    split at hfound
    · cases hfound
      omega
    · have hle := h.heads other head hfound
      omega

theorem Numbered.removeWhere (h : Numbered server) (gone : ServerRecord → Bool) :
    Numbered (server.removeWhere gone) where
  ordered := h.ordered.sublist List.filter_sublist
  committed record hrecord := h.committed record (List.mem_of_mem_filter hrecord)
  revised record hrecord := h.revised record (List.mem_of_mem_filter hrecord)
  heads := h.heads

/-- The server without a stream. -/
def withoutStream (server : LogModel) (stream : StreamId) : LogModel :=
  { server.removeWhere (·.stream = stream.name) with heads := server.heads.filter (·.1 ≠ stream) }

theorem head?_withoutStream (stream other : StreamId) :
    (server.withoutStream stream).head? other = if other = stream then none else server.head? other :=
  MemoryStore.lookup_filter_ne ..

theorem Numbered.withoutStream (h : Numbered server) (stream : StreamId) :
    Numbered (server.withoutStream stream) where
  ordered := h.ordered.sublist List.filter_sublist
  committed record hrecord := h.committed record (List.mem_of_mem_filter hrecord)
  revised record hrecord := by
    obtain ⟨hold, hkept⟩ := List.mem_filter.mp hrecord
    rw [head?_withoutStream, if_neg]
    · exact h.revised record hold
    · rintro rfl
      simp at hkept
  heads other head hfound := by
    rw [head?_withoutStream] at hfound
    split at hfound
    · cases hfound
    · exact h.heads other head hfound

/-- What a request can do to a server. -/
theorem send_cases (request : LogRequest) (server : LogModel) :
    request.send client server = server ∨
      (∃ stream events, request.send client server = server.add stream events) ∨
      (∃ gone, request.send client server = server.removeWhere gone) ∨
      ∃ stream, request = .delete stream ∧
        request.send client server = server.withoutStream stream := by
  cases request with
  | append stream expected events =>
    show (server.append stream expected events).2 = _ ∨ _
    cases hmeets : meets expected (server.head? stream) with
    | false =>
      rw [append_of_not_meets events hmeets]
      exact .inl rfl
    | true =>
      cases hfind : events.find? fun event => server.ids.contains event.eventId with
      | some event =>
        rw [append_of_duplicate hmeets hfind]
        exact .inl rfl
      | none =>
        refine .inr (.inl ⟨stream, events, ?_⟩)
        show (server.append stream expected events).2 = _
        rw [append_of_fresh hmeets hfind]
  | readStream stream request => exact .inl rfl
  | readAll request => exact .inl rfl
  | truncate stream before =>
    show (server.truncate stream before).2 = _ ∨ _ ∨ (∃ gone, (server.truncate stream before).2 = _) ∨ _
    unfold truncate
    split
    · exact .inl rfl
    · exact .inr (.inr (.inl ⟨_, rfl⟩))
  | delete stream =>
    show (server.delete stream).2 = _ ∨ _ ∨ _ ∨ ∃ other, _ ∧ (server.delete stream).2 = _
    unfold delete
    split
    · exact .inl rfl
    · exact .inr (.inr (.inr ⟨stream, rfl, rfl⟩))

/-- Every request keeps the numbers in order as long as the words do not run out. -/
theorem Numbered.send (h : Numbered server) (request : LogRequest)
    (few : ((request.send client server).lastCommit : Int) ≤ Int64.maxValue.toInt) :
    Numbered (request.send client server) := by
  rcases send_cases request server with hsame | ⟨stream, events, hadd⟩ | ⟨gone, hgone⟩ |
    ⟨stream, -, hdeleted⟩
  · rw [hsame]
    exact h
  · rw [hadd] at few ⊢
    exact h.add stream events few
  · rw [hgone]
    exact h.removeWhere gone
  · rw [hdeleted]
    exact h.withoutStream stream

/-- Commit positions are never given out anew. -/
theorem lastCommit_send (request : LogRequest) (server : LogModel) :
    server.lastCommit ≤ (request.send client server).lastCommit := by
  rcases send_cases request server with hsame | ⟨stream, events, hadd⟩ | ⟨gone, hgone⟩ |
    ⟨stream, -, hdeleted⟩
  · rw [hsame]
  · rw [hadd]
    exact Nat.le_add_right _ _
  · rw [hgone]
    exact Nat.le_refl _
  · rw [hdeleted]
    exact Nat.le_refl _

/-- The same after requests that are sent one after another. -/
theorem lastCommit_sendAll (requests : List LogRequest) (server : LogModel) :
    server.lastCommit ≤ (LogRequest.sendAll client requests server).lastCommit := by
  induction requests generalizing server with
  | nil => exact Nat.le_refl _
  | cons request rest ih => exact Nat.le_trans (lastCommit_send request server) (ih _)

theorem Numbered.sendAll (h : Numbered server) (requests : List LogRequest)
    (few : ((LogRequest.sendAll client requests server).lastCommit : Int) ≤ Int64.maxValue.toInt) :
    Numbered (LogRequest.sendAll client requests server) := by
  induction requests generalizing server with
  | nil => exact h
  | cons request rest ih =>
    have hlater : (request.send client server).lastCommit
        ≤ (LogRequest.sendAll client (request :: rest) server).lastCommit := lastCommit_sendAll rest _
    exact ih (h.send request (Int.le_trans (Int.ofNat_le.mpr hlater) few)) few

/-! ### What is stored -/

/-- What a read of a stream goes through are the records of the journal that it concerns. -/
theorem Numbered.stored_eq (h : Numbered server) (stream : StreamId) :
    server.stored stream = server.journal.filter stream.concerns := by
  unfold stored readable? journal
  by_cases hglobal : stream.isGlobal = true
  · rw [if_pos hglobal]
    refine (List.filter_eq_self.mpr fun record _ => ?_).symm
    rw [StreamId.concerns, hglobal, Bool.true_or]
  · have hconcerns : (stream.concerns ∘ ServerRecord.toRecord)
        = fun other : ServerRecord => decide (other.stream = stream.name) := by
      funext other
      show (stream.isGlobal || decide ((⟨other.stream⟩ : StreamId) = stream)) = _
      rw [Bool.eq_false_iff.mpr hglobal, Bool.false_or]
      exact decide_eq_decide.mpr ⟨congrArg StreamId.name, congrArg StreamId.mk⟩
    rw [if_neg hglobal, List.filter_map, hconcerns]
    cases hhead : server.head? stream with
    | some head => rfl
    | none =>
      -- a stream without a head has no record
      refine (List.map_eq_nil_iff.mpr (List.filter_eq_nil_iff.mpr fun other hother hsame => ?_)).symm
      obtain ⟨head, hfound, -⟩ := h.revised other hother
      have hstream : (⟨other.stream⟩ : StreamId) = stream :=
        congrArg StreamId.mk (of_decide_eq_true hsame)
      rw [hstream, hhead] at hfound
      cases hfound

theorem Numbered.mem_stored (h : Numbered server) {stream : StreamId} {record : Record} :
    record ∈ server.stored stream ↔ record ∈ server.journal ∧ stream.concerns record = true := by
  rw [h.stored_eq, List.mem_filter]

/-- As long as the words do not run out, the numbers of the journal are those of the server. -/
theorem Numbered.toInt_eq (h : Numbered server)
    (few : (server.lastCommit : Int) ≤ Int64.maxValue.toInt) {other : ServerRecord}
    (hother : other ∈ server.records) :
    other.toRecord.sequence.toInt = other.commitPosition.toNat ∧
      other.toRecord.version.toInt = other.revision.toNat := by
  obtain ⟨head, hfound, hlt⟩ := h.revised other hother
  have hhead := h.heads _ head hfound
  have hcommitted := h.committed other hother
  exact ⟨toInt_toInt64 (by omega), toInt_toInt64 (by omega)⟩

/-- The numbers of a stored record were given out. -/
theorem Numbered.stored_numbers (h : Numbered server)
    (few : (server.lastCommit : Int) ≤ Int64.maxValue.toInt) {stream : StreamId} {record : Record}
    (hrecord : record ∈ server.stored stream) :
    record.sequence.toInt ≤ server.lastCommit ∧
      (record.positionIn stream).toInt < server.nextNumber stream ∧
      Position.start < record.positionIn stream ∧ 1 ≤ record.sequence.toInt := by
  obtain ⟨hjournal, hconcerns⟩ := h.mem_stored.mp hrecord
  obtain ⟨other, hother, rfl⟩ := List.mem_map.mp hjournal
  obtain ⟨hsequence, hversion⟩ := h.toInt_eq few hother
  have hcommitted := h.committed other hother
  obtain ⟨head, hfound, hlt⟩ := h.revised other hother
  refine ⟨by omega, ?_, MemoryStore.start_lt_positionIn (by omega) (by omega) stream, by omega⟩
  by_cases hglobal : stream = .global
  · subst hglobal
    show other.toRecord.sequence.toInt < ((server.lastCommit + 1 : Nat) : Int)
    omega
  · have hstream : (⟨other.stream⟩ : StreamId) = stream :=
      (MemoryStore.concerns_iff.mp hconcerns).resolve_left hglobal
    rw [Record.positionIn_of_ne_global _ hglobal, StreamVersion.toInt_position, hversion, nextNumber,
      StreamId.isGlobal, decide_eq_false hglobal, ← hstream, hfound]
    show (_ : Int) < (head : Int)
    omega

/-- What is stored of a stream stands in the order of positions and of commits. -/
theorem Numbered.stored_ordered (h : Numbered server)
    (few : (server.lastCommit : Int) ≤ Int64.maxValue.toInt) (stream : StreamId) :
    (server.stored stream).Pairwise fun a b =>
      a.positionIn stream < b.positionIn stream ∧ a.sequence < b.sequence := by
  have hjournal : server.journal.Pairwise fun a b => a.sequence.toInt < b.sequence.toInt ∧
      (a.stream = b.stream → a.version.toInt < b.version.toInt) := by
    refine List.pairwise_map.mpr (h.ordered.imp_of_mem fun {a b} ha hb hab => ?_)
    rw [(h.toInt_eq few ha).1, (h.toInt_eq few hb).1, (h.toInt_eq few ha).2, (h.toInt_eq few hb).2]
    exact ⟨Int.ofNat_lt.mpr hab.1,
      fun hsame => Int.ofNat_lt.mpr (hab.2 (congrArg StreamId.name hsame))⟩
  rw [h.stored_eq]
  refine (hjournal.sublist List.filter_sublist).imp_of_mem fun {a b} ha hb hab => ?_
  refine ⟨?_, SequenceNumber.lt_iff_toInt.mpr hab.1⟩
  by_cases hglobal : stream = .global
  · subst hglobal
    exact Position.lt_iff_toInt.mpr hab.1
  · have hstream : a.stream = b.stream := by
      rw [(MemoryStore.concerns_iff.mp (List.mem_filter.mp ha).2).resolve_left hglobal,
        (MemoryStore.concerns_iff.mp (List.mem_filter.mp hb).2).resolve_left hglobal]
    rw [Record.positionIn_of_ne_global _ hglobal, Record.positionIn_of_ne_global _ hglobal]
    exact Position.lt_iff_toInt.mpr (hab.2 hstream)

/-! ### What a request adds -/

/-- What is stored after something happened was stored before or was committed since. -/
structure Onward (stream : StreamId) (before after : LogModel) : Prop where
  commit : before.lastCommit ≤ after.lastCommit
  fresh : ∀ record ∈ after.stored stream, record ∈ before.stored stream ∨
    (before.lastCommit : Int) < record.sequence.toInt

/-- And when the stream was not deleted, what is new lies beyond all numbers given out before. -/
structure Spared (stream : StreamId) (before after : LogModel) : Prop where
  number : before.nextNumber stream ≤ after.nextNumber stream
  beyond : ∀ record ∈ after.stored stream, record ∈ before.stored stream ∨
    (before.nextNumber stream : Int) ≤ (record.positionIn stream).toInt

section

variable {request : LogRequest} {stream : StreamId}

/-- A record in the journal after a request was there before or has numbers that were not given out. -/
theorem Numbered.journal_send (h : Numbered server)
    (few : ((request.send client server).lastCommit : Int) ≤ Int64.maxValue.toInt) {record : Record}
    (hrecord : record ∈ (request.send client server).journal) :
    record ∈ server.journal ∨ (server.lastCommit : Int) < record.sequence.toInt ∧
      ((server.head? record.stream).getD 0 : Int) ≤ record.version.toInt := by
  obtain ⟨other, hother, rfl⟩ := List.mem_map.mp hrecord
  have hnumbers := (h.send request few).toInt_eq few hother
  rcases send_cases request server with hsame | ⟨target, events, hadd⟩ | ⟨gone, hgone⟩ |
    ⟨target, -, hdeleted⟩
  · rw [hsame] at hother
    exact .inl (List.mem_map_of_mem hother)
  · rw [hadd] at hother few
    rcases List.mem_append.mp hother with hold | hfresh
    · exact .inl (List.mem_map_of_mem hold)
    · have hhead := h.head_le target
      have room : (server.lastCommit + events.length : Int) ≤ Int64.maxValue.toInt := few
      have hbatch := recordBatch_numbers room (by omega) hfresh
      have hstream : other.toRecord.stream = target :=
        congrArg StreamId.mk (mem_recordBatch hfresh).1
      rw [hnumbers.1, hnumbers.2, hstream]
      exact .inr ⟨by omega, by omega⟩
  · rw [hgone] at hother
    exact .inl (List.mem_map_of_mem (List.mem_of_mem_filter hother))
  · rw [hdeleted] at hother
    exact .inl (List.mem_map_of_mem (List.mem_of_mem_filter hother))

theorem Numbered.onward (h : Numbered server) (stream : StreamId)
    (few : ((request.send client server).lastCommit : Int) ≤ Int64.maxValue.toInt) :
    Onward stream server (request.send client server) where
  commit := lastCommit_send request server
  fresh record hrecord := by
    obtain ⟨hjournal, hconcerns⟩ := (h.send request few).mem_stored.mp hrecord
    rcases h.journal_send few hjournal with hold | ⟨hcommit, -⟩
    · exact .inl (h.mem_stored.mpr ⟨hold, hconcerns⟩)
    · exact .inr hcommit

/-- A stream that is not deleted never gives out a number anew. -/
theorem nextNumber_send (spares : request.Spares stream) (server : LogModel) :
    server.nextNumber stream ≤ (request.send client server).nextNumber stream := by
  have hcommit := lastCommit_send request server
  unfold nextNumber
  split
  · omega
  · rename_i hglobal
    rcases send_cases request server with hsame | ⟨target, events, hadd⟩ | ⟨gone, hgone⟩ |
      ⟨target, rfl, hdeleted⟩
    · rw [hsame]
    · rw [hadd, head?_add]
      split
      · rename_i hstream
        rw [hstream, Option.getD_some]
        exact Nat.le_add_right _ _
      · exact Nat.le_refl _
    · rw [hgone]
      exact Nat.le_refl _
    · have hother : stream ≠ target := fun hsame =>
        spares.elim (· hsame.symm) fun hall => hglobal (StreamId.isGlobal_iff.mpr hall)
      rw [hdeleted, head?_withoutStream, if_neg hother]

theorem Numbered.spared (h : Numbered server) (spares : request.Spares stream)
    (few : ((request.send client server).lastCommit : Int) ≤ Int64.maxValue.toInt) :
    Spared stream server (request.send client server) where
  number := nextNumber_send spares server
  beyond record hrecord := by
    obtain ⟨hjournal, hconcerns⟩ := (h.send request few).mem_stored.mp hrecord
    rcases h.journal_send few hjournal with hold | ⟨hcommit, hversion⟩
    · exact .inl (h.mem_stored.mpr ⟨hold, hconcerns⟩)
    · right
      by_cases hglobal : stream = .global
      · subst hglobal
        show ((server.lastCommit + 1 : Nat) : Int) ≤ record.sequence.toInt
        omega
      · have hstream : record.stream = stream :=
          (MemoryStore.concerns_iff.mp hconcerns).resolve_left hglobal
        rw [nextNumber, StreamId.isGlobal, decide_eq_false hglobal, ← hstream,
          Record.positionIn_of_ne_global _ (hstream ▸ hglobal), StreamVersion.toInt_position]
        exact hversion

end

/-! ### What requests add -/

theorem Onward.refl (stream : StreamId) (server : LogModel) : Onward stream server server :=
  ⟨Nat.le_refl _, fun _ h => .inl h⟩

theorem Onward.trans {stream : StreamId} {first second third : LogModel}
    (h : Onward stream first second) (h' : Onward stream second third) :
    Onward stream first third where
  commit := Nat.le_trans h.commit h'.commit
  fresh record hrecord := by
    have hcommit := h.commit
    rcases h'.fresh record hrecord with hold | hfresh
    · exact h.fresh record hold
    · exact .inr (by omega)

theorem Spared.refl (stream : StreamId) (server : LogModel) : Spared stream server server :=
  ⟨Nat.le_refl _, fun _ h => .inl h⟩

theorem Spared.trans {stream : StreamId} {first second third : LogModel}
    (h : Spared stream first second) (h' : Spared stream second third) :
    Spared stream first third where
  number := Nat.le_trans h.number h'.number
  beyond record hrecord := by
    have hnumber := h.number
    rcases h'.beyond record hrecord with hold | hbeyond
    · exact h.beyond record hold
    · exact .inr (by omega)

/-- The same after requests that are sent one after another. -/
theorem Numbered.onward_sendAll (h : Numbered server) (stream : StreamId)
    (requests : List LogRequest)
    (few : ((LogRequest.sendAll client requests server).lastCommit : Int) ≤ Int64.maxValue.toInt) :
    Onward stream server (LogRequest.sendAll client requests server) := by
  induction requests generalizing server with
  | nil => exact .refl stream server
  | cons request rest ih =>
    have hlater : (request.send client server).lastCommit
        ≤ (LogRequest.sendAll client (request :: rest) server).lastCommit := lastCommit_sendAll rest _
    have fewer := Int.le_trans (Int.ofNat_le.mpr hlater) few
    exact (h.onward stream fewer).trans (ih (h.send request fewer) few)

theorem Numbered.spared_sendAll (h : Numbered server) {stream : StreamId} {requests : List LogRequest}
    (spares : ∀ request ∈ requests, request.Spares stream)
    (few : ((LogRequest.sendAll client requests server).lastCommit : Int) ≤ Int64.maxValue.toInt) :
    Spared stream server (LogRequest.sendAll client requests server) := by
  induction requests generalizing server with
  | nil => exact .refl stream server
  | cons request rest ih =>
    have hlater : (request.send client server).lastCommit
        ≤ (LogRequest.sendAll client (request :: rest) server).lastCommit := lastCommit_sendAll rest _
    have fewer := Int.le_trans (Int.ofNat_le.mpr hlater) few
    exact (h.spared (spares request List.mem_cons_self) fewer).trans
      (ih (h.send request fewer) (fun other hother => spares other (List.mem_cons_of_mem _ hother)) few)

/-! ### Polls -/

theorem mem_of_readable {stream : StreamId} {others : List ServerRecord}
    (h : server.readable? stream = some others) {other : ServerRecord} (hother : other ∈ others) :
    other ∈ server.records := by
  unfold readable? at h
  split at h
  · cases h
    exact hother
  · obtain ⟨head, -, rfl⟩ := Option.map_eq_some_iff.mp h
    exact List.mem_of_mem_filter hother

/-- The number by which a read goes is the position of the record. -/
theorem Numbered.toInt_positionIn (h : Numbered server)
    (few : (server.lastCommit : Int) ≤ Int64.maxValue.toInt) (stream : StreamId)
    {other : ServerRecord} (hother : other ∈ server.records) :
    (other.toRecord.positionIn stream).toInt = (other.numberIn stream).toNat := by
  obtain ⟨hsequence, hversion⟩ := h.toInt_eq few hother
  unfold ServerRecord.numberIn Record.positionIn
  split
  · exact hsequence
  · exact hversion

/-- A poll gives what is stored beyond its cursor. -/
theorem Numbered.poll (h : Numbered server)
    (few : (server.lastCommit : Int) ≤ Int64.maxValue.toInt) {stream : StreamId} {cursor : Position}
    {records : Option (List Record)}
    (read : LogServer.readRecords client stream (.forward cursor) server = (.ok records, server)) :
    records.getD [] = (server.stored stream).filter fun record =>
      cursor < record.positionIn stream := by
  rw [readRecords_eq] at read
  cases read
  unfold stored
  cases hreadable : server.readable? stream with
  | none => rfl
  | some others =>
    show List.map _ (List.filter _ others) = List.filter _ (List.map _ others)
    rw [List.filter_map]
    refine congrArg (List.map ServerRecord.toRecord) (List.filter_congr fun other hother => ?_)
    refine decide_eq_decide.mpr ?_
    show cursor.toInt < ((other.numberIn stream).toNat : Int) ↔ _
    rw [Position.lt_iff_toInt, h.toInt_positionIn few stream (mem_of_readable hreadable hother)]

/-- A read of the first record of a stream gives the first that is stored of it. -/
theorem readRecords_first (server : LogModel) (stream : StreamId) :
    ∃ records, LogServer.readRecords client stream .first server = (.ok records, server) ∧
      records.bind List.head? = (server.stored stream).head? := by
  refine ⟨_, readRecords_eq stream .first server, ?_⟩
  unfold stored
  cases server.readable? stream with
  | none => rfl
  | some others =>
    rw [Option.map_some, select_first, Option.bind_some, head?_map_take, Option.getD_some,
      List.head?_map]

/-- A read of the last record gives the last. -/
theorem Numbered.readRecords_last (h : Numbered server)
    (few : (server.lastCommit : Int) < Int64.maxValue.toInt) (stream : StreamId) :
    ∃ records, LogServer.readRecords client stream .last server = (.ok records, server) ∧
      records.bind List.head? = (server.stored stream).getLast? := by
  refine ⟨_, readRecords_eq stream .last server, ?_⟩
  unfold stored
  cases hreadable : server.readable? stream with
  | none => rfl
  | some others =>
    have hbelow : ∀ other ∈ others,
        ((other.numberIn stream).toNat : Int) < Int64.maxValue.toInt := by
      intro other hother
      have hmem := mem_of_readable hreadable hother
      obtain ⟨head, hfound, hlt⟩ := h.revised other hmem
      have hhead := h.heads _ head hfound
      have hcommitted := h.committed other hmem
      unfold ServerRecord.numberIn
      split <;> omega
    rw [Option.map_some, select_last hbelow, Option.bind_some, head?_map_take, List.head?_reverse,
      Option.getD_some, List.getLast?_map]

/-- The end of a stream is the position of the last record stored of it. -/
theorem Numbered.head (h : Numbered server)
    (few : (server.lastCommit : Int) < Int64.maxValue.toInt) (stream : StreamId) :
    LogServer.headPosition client stream server
      = (.ok (cursorAfter stream .start (server.stored stream)), server) := by
  obtain ⟨records, hread, hlast⟩ := h.readRecords_last few stream
  rw [LogServer.headPosition, hread, cursorAfter, ← hlast]
  rfl

end LogModel

/-! ## Requests that fail now and then -/

/-- A planned failure leaves what it strikes alone. -/
theorem Faulty.run_cases {ω σ α : Type} [DecidableEq ω] {operation : ω}
    {action : σ → Outcome α × σ} {faulty faulty' : Faulty ω σ} {outcome : Outcome α}
    (h : faulty.run operation action = (outcome, faulty')) :
    (∃ error, outcome = .error error) ∧ faulty'.inner = faulty.inner ∨
      action faulty.inner = (outcome, faulty'.inner) := by
  unfold Faulty.run at h
  split at h
  · cases h
    exact .inl ⟨⟨_, rfl⟩, rfl⟩
  · cases h
    exact .inr rfl

/-- An operation that only reads changes nothing, and gives what it gives without failures if it
succeeds. -/
theorem Faulty.run_reads {ω σ α : Type} [DecidableEq ω] {operation : ω}
    {action : σ → Outcome α × σ} {faulty faulty' : Faulty ω σ} {outcome : Outcome α}
    (h : faulty.run operation action = (outcome, faulty'))
    (only : ∀ state, (action state).2 = state) :
    faulty'.inner = faulty.inner ∧
      ∀ value, outcome = .ok value → action faulty.inner = (.ok value, faulty.inner) := by
  rcases Faulty.run_cases h with ⟨⟨error, rfl⟩, hinner⟩ | hserved
  · exact ⟨hinner, nofun⟩
  · have hinner : faulty'.inner = faulty.inner := by
      rw [← only faulty.inner, hserved]
    refine ⟨hinner, fun value hvalue => ?_⟩
    rw [hserved, hvalue, hinner]

/-- A request to a server that fails now and then is served or leaves the server alone. -/
theorem LogRequest.send_unreliable (request : LogRequest) (faulty : Faulty LogOperation LogModel) :
    (request.send LogModel.client.unreliable faulty).inner = faulty.inner ∨
      (request.send LogModel.client.unreliable faulty).inner
        = request.send LogModel.client faulty.inner := by
  have hrun {α : Type} (operation : LogOperation) (action : LogModel → Outcome α × LogModel) :
      (faulty.run operation action).2.inner = faulty.inner ∨
        (faulty.run operation action).2.inner = (action faulty.inner).2 :=
    (Faulty.run_cases rfl).imp And.right fun h => (congrArg Prod.snd h).symm
  cases request with
  | append stream expected events => exact hrun .append _
  | readStream stream request => exact hrun .readStream _
  | readAll request => exact hrun .readAll _
  | truncate stream before => exact hrun .truncate _
  | delete stream => exact hrun .delete _

/-- A read through a server that fails now and then changes nothing, and gives what the server gives if
it succeeds. -/
theorem readRecords_unreliable {stream : StreamId} {request : ReadRequest}
    {faulty faulty' : Faulty LogOperation LogModel} {outcome : Outcome (Option (List Record))}
    (h : LogServer.readRecords LogModel.client.unreliable stream request faulty = (outcome, faulty')) :
    faulty'.inner = faulty.inner ∧ ∀ records, outcome = .ok records →
      LogServer.readRecords LogModel.client stream request faulty.inner
        = (.ok records, faulty.inner) := by
  unfold LogServer.readRecords at h ⊢
  split at h
  · rename_i hglobal
    rw [if_pos hglobal]
    generalize hrun : LogModel.client.unreliable.readAll request faulty = ran at h
    obtain ⟨answer, after⟩ := ran
    obtain ⟨hinner, hserved⟩ := Faulty.run_reads hrun fun _ => rfl
    cases h
    refine ⟨hinner, fun records hrecords => ?_⟩
    cases answer with
    | error error => cases hrecords
    | ok others =>
      cases hrecords
      dsimp only
      rw [hserved others rfl]
      rfl
  · rename_i hglobal
    rw [if_neg hglobal]
    generalize hrun : LogModel.client.unreliable.readStream stream request faulty = ran at h
    obtain ⟨answer, after⟩ := ran
    obtain ⟨hinner, hserved⟩ := Faulty.run_reads hrun fun _ => rfl
    cases h
    refine ⟨hinner, fun records hrecords => ?_⟩
    cases answer with
    | error error => cases hrecords
    | ok others =>
      cases hrecords
      dsimp only
      rw [hserved others rfl]
      rfl

/-- The same of looking for the end of a stream. -/
theorem headPosition_unreliable {stream : StreamId} {faulty faulty' : Faulty LogOperation LogModel}
    {outcome : Outcome Position}
    (h : LogServer.headPosition LogModel.client.unreliable stream faulty = (outcome, faulty')) :
    faulty'.inner = faulty.inner ∧ ∀ position, outcome = .ok position →
      LogServer.headPosition LogModel.client stream faulty.inner = (.ok position, faulty.inner) := by
  unfold LogServer.headPosition at h ⊢
  generalize hread : LogServer.readRecords LogModel.client.unreliable stream .last faulty = answer at h
  obtain ⟨read, after⟩ := answer
  obtain ⟨hinner, hserved⟩ := readRecords_unreliable hread
  cases h
  refine ⟨hinner, fun position hposition => ?_⟩
  cases read with
  | error error => cases hposition
  | ok records =>
    cases hposition
    rw [hserved records rfl]
    rfl

end EventJournal
