import EventJournal.Proofs.LogServer.Addresses

/-!
# What an answer is taken for

The client reads the answer to each request by its status and its body. The protocol is a table of what the
server answers to each kind of request, and the client goes by it: an answer of the table is taken for what
the table says, and any other one is a failure. There is one exception. A read of the whole log shares its
reader with the reads of streams, and what is a missing stream there, status 404, is an empty log here,
though the table has no such row.

* `readAppend_ok_iff`, `readRecords_ok_iff`, `readTruncate_ok_iff`, `readDelete_ok_iff` — what each reader
  takes for success.
* `Documented` — the table.
* `reply_iff` — the main statement.
-/

namespace EventJournal

/-! ## Performing a call -/

variable {σ : Type}

/-- What an append came to, as a reply. -/
def LogReply.ofAppend : AppendResult → LogReply
  | .success list => .records list
  | .wrongVersion actual => .wrongVersion actual
  | .duplicate id => .duplicate id

/-- What a read of a stream came to, as a reply. -/
def LogReply.ofRecords : Option (List ServerRecord) → LogReply
  | some list => .records list
  | none => .missing

/-- Performs a call. -/
def LogClient.perform (client : LogClient σ) (call : LogCall) (state : σ) : Outcome LogReply × σ :=
  match call with
  | .append stream expected events =>
    let (outcome, state) := client.append stream expected events state
    (outcome.map .ofAppend, state)
  | .readStream stream read =>
    let (outcome, state) := client.readStream stream read state
    (outcome.map .ofRecords, state)
  | .readAll read =>
    let (outcome, state) := client.readAll read state
    (outcome.map .records, state)
  | .truncate stream before =>
    let (outcome, state) := client.truncate stream before state
    (outcome.map fun _ => .done, state)
  | .delete stream =>
    let (outcome, state) := client.delete stream state
    (outcome.map .existed, state)

namespace HttpLog

/-- The reply that the answer to a call is read as. -/
def readReply (call : LogCall) (response : HttpResponse) : Outcome LogReply :=
  match call with
  | .append .. => (readAppend response).map .ofAppend
  | .readStream .. => (readRecords response).map .ofRecords
  | .readAll _ => ((readRecords response).map (·.getD [])).map .records
  | .truncate stream _ => (readTruncate stream response).map fun _ => .done
  | .delete _ => (readDelete response).map .existed

/-- What is made of the outcome can be made of each answer. -/
theorem exchange_map {α β : Type} (transport : Transport σ) (request : HttpRequest)
    (read : HttpResponse → Outcome α) (f : α → β) (state : σ) :
    ((exchange transport request read state).1.map f, (exchange transport request read state).2)
      = exchange transport request (fun response => (read response).map f) state := by
  unfold exchange
  cases transport request state with
  | mk answer after => cases answer <;> rfl

/-- A call is one request, and its outcome is read off the answer. -/
theorem perform_client (log : HttpLog) (transport : Transport σ) (call : LogCall) (state : σ) :
    (log.client transport).perform call state
      = exchange transport (log.requestOf call) (readReply call) state := by
  cases call <;> exact exchange_map ..

theorem exchange_fst_ok_iff {α : Type} {transport : Transport σ} {request : HttpRequest}
    {read : HttpResponse → Outcome α} {state : σ} {value : α} :
    (exchange transport request read state).1 = .ok value
      ↔ ∃ response, (transport request state).1 = some response ∧ read response = .ok value := by
  unfold exchange
  obtain ⟨_ | response, after⟩ := transport request state
  · simp
  · simp

theorem exchange_snd {α : Type} (transport : Transport σ) (request : HttpRequest)
    (read : HttpResponse → Outcome α) (state : σ) :
    (exchange transport request read state).2 = (transport request state).2 := by
  unfold exchange
  obtain ⟨_ | response, after⟩ := transport request state <;> rfl

/-! ## What is taken for success -/

theorem map_eq_ok_iff {α β : Type} {outcome : Outcome α} {f : α → β} {value : β} :
    outcome.map f = .ok value ↔ ∃ result, outcome = .ok result ∧ f result = value := by
  cases outcome <;> simp [Except.map]

theorem conflict_result_ok_iff {conflict : Conflict} {result : AppendResult} :
    conflict.result = .ok result ↔
      conflict.error = "wrong_expected_version" ∧ result = .wrongVersion conflict.actualRevision ∨
        conflict.error = "duplicate_event" ∧ ∃ id, conflict.eventId = some id ∧ result = .duplicate id := by
  unfold Conflict.result
  split <;> grind

theorem readAppend_ok_iff {response : HttpResponse} {result : AppendResult} :
    readAppend response = .ok result ↔
      (response.status = 200 ∧ ∃ records, readBody recordsOfJson response.body = .ok records ∧
        .success records = result) ∨
      (response.status = 409 ∧ ∃ conflict, readBody Conflict.ofJson response.body = .ok conflict ∧
        conflict.result = .ok result) := by
  unfold readAppend
  by_cases hok : response.status = 200
  · rw [if_pos hok, map_eq_ok_iff]
    simp [hok]
  · rw [if_neg hok]
    by_cases hconflict : response.status = 409
    · rw [if_pos hconflict]
      cases readBody Conflict.ofJson response.body <;> simp [hconflict, Except.bind]
    · rw [if_neg hconflict]
      simp [hok, hconflict]

theorem readRecords_ok_iff {response : HttpResponse} {found : Option (List ServerRecord)} :
    readRecords response = .ok found ↔
      (response.status = 200 ∧ ∃ records, readBody recordsOfJson response.body = .ok records ∧
        some records = found) ∨
      (response.status = 404 ∧ none = found) := by
  unfold readRecords
  by_cases hok : response.status = 200
  · rw [if_pos hok, map_eq_ok_iff]
    simp [hok]
  · rw [if_neg hok]
    by_cases hmissing : response.status = 404
    · rw [if_pos hmissing]
      simp [hmissing]
    · rw [if_neg hmissing]
      simp [hok, hmissing]

theorem isSuccess_missing : isSuccess 404 = false := rfl

theorem readTruncate_ok_iff {stream : StreamId} {response : HttpResponse} {done : Unit} :
    readTruncate stream response = .ok done ↔ isSuccess response.status = true := by
  unfold readTruncate
  split
  · simp_all
  · split
    · simp_all
    · split <;> simp_all

theorem readDelete_ok_iff {response : HttpResponse} {existed : Bool} :
    readDelete response = .ok existed ↔
      (isSuccess response.status = true ∧ true = existed) ∨ (response.status = 404 ∧ false = existed) := by
  unfold readDelete
  by_cases hmissing : response.status = 404
  · rw [hmissing, isSuccess_missing]
    simp
  · by_cases hok : isSuccess response.status = true
    · rw [if_pos hok]
      simp [hok, hmissing]
    · rw [if_neg hok, if_neg hmissing]
      split <;> simp [hok, hmissing]

end HttpLog

/-! ## The table -/

open HttpLog (readBody recordsOfJson Conflict isSuccess)

/-- What the answer to a call means, by the table of the protocol. -/
inductive Documented : LogCall → HttpResponse → LogReply → Prop
  | appended {stream expected events response records} (ok : response.status = 200)
      (decoded : readBody recordsOfJson response.body = .ok records) :
      Documented (.append stream expected events) response (.records records)
  | wrongVersion {stream expected events response conflict} (refused : response.status = 409)
      (decoded : readBody Conflict.ofJson response.body = .ok conflict)
      (reason : conflict.error = "wrong_expected_version") :
      Documented (.append stream expected events) response (.wrongVersion conflict.actualRevision)
  | duplicate {stream expected events response conflict id} (refused : response.status = 409)
      (decoded : readBody Conflict.ofJson response.body = .ok conflict)
      (reason : conflict.error = "duplicate_event") (named : conflict.eventId = some id) :
      Documented (.append stream expected events) response (.duplicate id)
  | read {stream read response records} (ok : response.status = 200)
      (decoded : readBody recordsOfJson response.body = .ok records) :
      Documented (.readStream stream read) response (.records records)
  | missing {stream read response} (none : response.status = 404) :
      Documented (.readStream stream read) response .missing
  | readAll {read response records} (ok : response.status = 200)
      (decoded : readBody recordsOfJson response.body = .ok records) :
      Documented (.readAll read) response (.records records)
  | truncated {stream before response} (ok : isSuccess response.status = true) :
      Documented (.truncate stream before) response .done
  | deleted {stream response} (ok : isSuccess response.status = true) :
      Documented (.delete stream) response (.existed true)
  | absent {stream response} (none : response.status = 404) :
      Documented (.delete stream) response (.existed false)

section

variable {call : LogCall} {response : HttpResponse} {reply : LogReply}

open HttpLog (readReply map_eq_ok_iff readAppend_ok_iff conflict_result_ok_iff readRecords_ok_iff
  readTruncate_ok_iff readDelete_ok_iff)

/-- An answer of the table is read as the table says. -/
theorem Documented.readReply_eq (documented : Documented call response reply) :
    readReply call response = .ok reply := by
  cases documented with
  | appended ok decoded =>
    exact map_eq_ok_iff.mpr ⟨_, readAppend_ok_iff.mpr (.inl ⟨ok, _, decoded, rfl⟩), rfl⟩
  | wrongVersion refused decoded reason =>
    have hresult := conflict_result_ok_iff.mpr (.inl ⟨reason, rfl⟩)
    exact map_eq_ok_iff.mpr ⟨_, readAppend_ok_iff.mpr (.inr ⟨refused, _, decoded, hresult⟩), rfl⟩
  | duplicate refused decoded reason named =>
    have hresult := conflict_result_ok_iff.mpr (.inr ⟨reason, _, named, rfl⟩)
    exact map_eq_ok_iff.mpr ⟨_, readAppend_ok_iff.mpr (.inr ⟨refused, _, decoded, hresult⟩), rfl⟩
  | read ok decoded =>
    exact map_eq_ok_iff.mpr ⟨_, readRecords_ok_iff.mpr (.inl ⟨ok, _, decoded, rfl⟩), rfl⟩
  | missing none => exact map_eq_ok_iff.mpr ⟨_, readRecords_ok_iff.mpr (.inr ⟨none, rfl⟩), rfl⟩
  | readAll ok decoded =>
    have hread := readRecords_ok_iff.mpr (.inl ⟨ok, _, decoded, rfl⟩)
    exact map_eq_ok_iff.mpr ⟨_, map_eq_ok_iff.mpr ⟨_, hread, rfl⟩, rfl⟩
  | truncated ok => exact map_eq_ok_iff.mpr ⟨(), readTruncate_ok_iff.mpr ok, rfl⟩
  | deleted ok => exact map_eq_ok_iff.mpr ⟨_, readDelete_ok_iff.mpr (.inl ⟨ok, rfl⟩), rfl⟩
  | absent none => exact map_eq_ok_iff.mpr ⟨_, readDelete_ok_iff.mpr (.inr ⟨none, rfl⟩), rfl⟩

/-- What is read as a reply is an answer of the table, or no log where one has to be. -/
theorem documented_of_readReply (h : readReply call response = .ok reply) :
    Documented call response reply ∨
      call.operation = .readAll ∧ response.status = 404 ∧ reply = .records [] := by
  cases call with
  | append stream expected events =>
    obtain ⟨result, hread, rfl⟩ := map_eq_ok_iff.mp h
    rcases readAppend_ok_iff.mp hread with ⟨hok, list, hbody, rfl⟩ | ⟨hrefused, conflict, hbody, hresult⟩
    · exact .inl (.appended hok hbody)
    · rcases conflict_result_ok_iff.mp hresult with ⟨herror, rfl⟩ | ⟨herror, id, hid, rfl⟩
      · exact .inl (.wrongVersion hrefused hbody herror)
      · exact .inl (.duplicate hrefused hbody herror hid)
  | readStream stream read =>
    obtain ⟨found, hread, rfl⟩ := map_eq_ok_iff.mp h
    rcases readRecords_ok_iff.mp hread with ⟨hok, list, hbody, rfl⟩ | ⟨hmissing, rfl⟩
    · exact .inl (.read hok hbody)
    · exact .inl (.missing hmissing)
  | readAll read =>
    obtain ⟨list, hlist, rfl⟩ := map_eq_ok_iff.mp h
    obtain ⟨found, hread, rfl⟩ := map_eq_ok_iff.mp hlist
    rcases readRecords_ok_iff.mp hread with ⟨hok, list, hbody, rfl⟩ | ⟨hmissing, rfl⟩
    · exact .inl (.readAll hok hbody)
    · exact .inr ⟨rfl, hmissing, rfl⟩
  | truncate stream before =>
    obtain ⟨done, hread, rfl⟩ := map_eq_ok_iff.mp h
    exact .inl (.truncated (readTruncate_ok_iff.mp hread))
  | delete stream =>
    obtain ⟨existed, hread, rfl⟩ := map_eq_ok_iff.mp h
    rcases readDelete_ok_iff.mp hread with ⟨hok, rfl⟩ | ⟨habsent, rfl⟩
    · exact .inl (.deleted hok)
    · exact .inl (.absent habsent)

theorem readReply_ok_iff :
    readReply call response = .ok reply ↔ Documented call response reply ∨
      call.operation = .readAll ∧ response.status = 404 ∧ reply = .records [] := by
  refine ⟨documented_of_readReply, ?_⟩
  rintro (documented | ⟨hoperation, hmissing, rfl⟩)
  · exact documented.readReply_eq
  · cases call with
    | readAll read =>
      have hread := readRecords_ok_iff.mpr (.inr ⟨hmissing, rfl⟩)
      exact map_eq_ok_iff.mpr ⟨_, map_eq_ok_iff.mpr ⟨_, hread, rfl⟩, rfl⟩
    | append stream expected events => cases hoperation
    | readStream stream read => cases hoperation
    | truncate stream before => cases hoperation
    | delete stream => cases hoperation

end

/-- Whatever carries its request, a call succeeds exactly if the server answers by the table, or answers a
read of the whole log with status 404, which gives no records; and the request is the only one sent. -/
theorem reply_iff (log : HttpLog) (transport : Transport σ) (call : LogCall) (state : σ) (reply : LogReply) :
    (((log.client transport).perform call state).1 = .ok reply ↔
        ∃ response, (transport (log.requestOf call) state).1 = some response ∧
          (Documented call response reply ∨
            call.operation = .readAll ∧ response.status = 404 ∧ reply = .records [])) ∧
      ((log.client transport).perform call state).2 = (transport (log.requestOf call) state).2 := by
  rw [HttpLog.perform_client, HttpLog.exchange_fst_ok_iff, HttpLog.exchange_snd]
  refine ⟨exists_congr fun response => and_congr_right fun _ => readReply_ok_iff, rfl⟩

/-- Status 404 for the whole log, whatever is said with it, is an empty log. -/
theorem reply_iff_sample :
    ((sampleLog.client .scripted).perform (.readAll (.forward .start)) ([⟨404, "not here"⟩], [])).1
      = .ok (.records []) :=
  (reply_iff sampleLog .scripted _ _ _).1.mpr ⟨⟨404, "not here"⟩, rfl, .inr ⟨rfl, rfl, rfl⟩⟩

end EventJournal
