import EventJournal.Proofs.LogServer.Requests

/-!
# Removals that fail half-way

A truncation or a deletion over a log server is two requests, the removal and the append of its marker, and
either may fail. When the first fails nothing happened. When the second fails the removal stays, without a
marker; the caller is told, but a deletion that is tried again finds no stream and succeeds at once.

* `Removal.Attempt.Ends` — everything an attempt can come to; `Removal.Attempt.ends`: it comes to one of
  these.
* `Removal.markers_after` — the stream of markers tells, in order, the attempts that succeeded on a stream
  that was there.
* `Removal.unmarked_only_retried` — the main statement: an attempt that succeeds without a marker is a
  deletion of a stream that was not there; had it been there in the beginning, then an earlier deletion had
  succeeded or had lost its marker. The trace after it is one where a marker is lost.
-/

namespace EventJournal

/-- What a caller wants to be removed. -/
inductive Removal where
  | truncate (stream : StreamId) (before : Position)
  | delete (stream : StreamId)
  deriving Repr, DecidableEq, Inhabited

namespace Removal

/-- The stream to remove or to cut. -/
def stream : Removal → StreamId
  | truncate stream _ => stream
  | delete stream => stream

/-- The marker it is to leave, with its id. -/
def marker (removal : Removal) (fresh : EventId) : Event :=
  match removal with
  | truncate stream before => StreamTruncated.event ⟨stream, before⟩ fresh
  | delete stream => StreamDeleted.event ⟨stream⟩ fresh

/-- A server that served the first request. -/
def removed (removal : Removal) (server : LogModel) : LogModel :=
  match removal with
  | truncate stream before => server.removeWhere fun record =>
      record.stream = stream.name && record.revision < LogServer.cutRevision before
  | delete stream => server.withoutStream stream

/-- The first request: it removes, and says whether there was something to remove. -/
def request {σ : Type} (removal : Removal) (client : LogClient σ) (state : σ) : Outcome Bool × σ :=
  match removal with
  | truncate stream before =>
    let (outcome, state) := client.truncate stream (LogServer.cutRevision before) state
    (outcome.map fun _ => true, state)
  | delete stream => client.delete stream state

/-- The operation of the first request. -/
def operation : Removal → LogOperation
  | truncate _ _ => .truncate
  | delete _ => .delete

/-- The global stream and the stream of markers are not removed. -/
def Removable (removal : Removal) : Prop := removal.stream ≠ .global ∧ removal.stream ≠ .markers

/-- The call of a store. -/
def call {σ : Type} (removal : Removal) (client : LogClient σ) (fresh : EventId) (state : σ) :
    Answer σ Unit :=
  match removal with
  | truncate stream before => LogServer.truncate client stream before fresh state
  | delete stream => LogServer.delete client stream fresh state

/-- A removal that is tried once: which of its requests fail, and how, is planned. -/
structure Attempt where
  removal : Removal
  /-- The id of the marker. -/
  fresh : EventId
  faults : List (Fault LogOperation)

namespace Attempt

variable {attempt : Attempt} {server : LogModel}

/-- What the caller is told, and the server afterwards. -/
def run (attempt : Attempt) (server : LogModel) : Outcome Unit × LogModel :=
  let answer := attempt.removal.call LogModel.client.unreliable attempt.fresh ⟨attempt.faults, server⟩
  (answer.outcome, answer.state.inner)

/-- The marker as it is sent. -/
def proposed (attempt : Attempt) : ProposedEvent := .ofEvent (attempt.removal.marker attempt.fresh)

/-- The server once the stream is removed, before the marker is there. -/
def unmarked (attempt : Attempt) (server : LogModel) : LogModel := attempt.removal.removed server

/-- The server once the stream is removed and the marker is there. -/
def marked (attempt : Attempt) (server : LogModel) : LogModel :=
  (attempt.unmarked server).add .markers [attempt.proposed]

/-- Everything an attempt can come to. -/
inductive Ends (attempt : Attempt) (server : LogModel) : Outcome Unit → LogModel → Prop where
  /-- It fails, and nothing happened. -/
  | refused (error : StoreError)
      (cause : ¬ attempt.removal.Removable ∨ server.head? attempt.removal.stream = none ∨
        ∃ fault ∈ attempt.faults, fault.strikes attempt.removal.operation = true) :
      Ends attempt server (.error error) server
  /-- There is no stream to delete, and nothing happens. -/
  | missing (removable : attempt.removal.Removable) (stream : StreamId)
      (delete : attempt.removal = .delete stream) (absent : server.head? stream = none) :
      Ends attempt server (.ok ()) server
  /-- The removal and its marker took effect. -/
  | marked (removable : attempt.removal.Removable)
      (found : (server.head? attempt.removal.stream).isSome) :
      Ends attempt server (.ok ()) (attempt.marked server)
  /-- The removal took effect and its marker did not: its append failed, or its id was in use. -/
  | unmarked (removable : attempt.removal.Removable)
      (found : (server.head? attempt.removal.stream).isSome) (error : StoreError)
      (cause : (∃ fault ∈ attempt.faults, fault.strikes .append = true) ∨
        attempt.fresh.name ∈ (attempt.unmarked server).ids) :
      Ends attempt server (.error error) (attempt.unmarked server)

end Attempt

/-! ## One attempt -/

/-- An error comes from a fault that is planned for the request. -/
theorem exists_strikes {operation : LogOperation} {faults : List (Fault LogOperation)}
    {struck : StoreError × List (Fault LogOperation)} (h : Fault.take operation faults = some struck) :
    ∃ fault ∈ faults, fault.strikes operation = true := by
  by_contra hnone
  have htake : Fault.take operation faults = none :=
    (Fault.take_eq_none_iff operation faults).mpr fun fault hfault =>
      Bool.eq_false_iff.mpr fun hstrikes => hnone ⟨fault, hfault, hstrikes⟩
  rw [htake] at h
  cases h

/-- The append of a marker succeeds unless a fault strikes it or its id is in use. -/
theorem append_marker (faults : List (Fault LogOperation)) (server : LogModel) (marker : Event) :
    let answer := LogServer.append LogModel.client.unreliable .markers [marker] none ⟨faults, server⟩
    (∃ records, answer.outcome = .ok records) ∧
        answer.state.inner = server.add .markers [.ofEvent marker] ∨
      (∃ error, answer.outcome = .error error) ∧ answer.state.inner = server ∧
        ((∃ fault ∈ faults, fault.strikes .append = true) ∨ marker.id.name ∈ server.ids) := by
  intro answer
  have hanswer : answer
      = LogServer.send LogModel.client.unreliable .markers [marker] none ⟨faults, server⟩ := rfl
  rw [hanswer, LogServer.send]
  simp only [LogClient.unreliable, Faulty.run]
  cases htake : Fault.take LogOperation.append faults with
  | some struck => exact .inr ⟨⟨_, rfl⟩, rfl, .inl (exists_strikes htake)⟩
  | none =>
    have hmeets : LogModel.meets (.ofVersion none) (server.head? .markers) = true := rfl
    cases hfind : [ProposedEvent.ofEvent marker].find? fun event =>
        server.ids.contains event.eventId with
    | some event =>
      simp only [LogModel.client, List.map_cons, List.map_nil,
        LogModel.append_of_duplicate hmeets hfind]
      have hused := List.find?_some hfind
      rw [List.mem_singleton.mp (List.mem_of_find?_eq_some hfind)] at hused
      exact .inr ⟨⟨_, rfl⟩, rfl, .inr (List.contains_iff_mem.mp hused)⟩
    | none =>
      simp only [LogModel.client, List.map_cons, List.map_nil, LogModel.append_of_fresh hmeets hfind]
      exact .inl ⟨⟨_, rfl⟩, trivial⟩

/-- A call is refused at once, ends with its first request or goes on to its marker. -/
theorem call_cases {σ : Type} (removal : Removal) (client : LogClient σ) (fresh : EventId) (state : σ) :
    (¬ removal.Removable ∧ ∃ error, removal.call client fresh state = .refused state error) ∨
      removal.Removable ∧
        match removal.request client state with
        | (.error _, state') => ∃ error, removal.call client fresh state = .refused state' error
        | (.ok false, state') => removal.call client fresh state = .unchanged state' ()
        | (.ok true, state') => removal.call client fresh state
          = (LogServer.append client .markers [removal.marker fresh] none state').map fun _ => () := by
  cases removal with
  | truncate stream before =>
    cases hremovable : ensureRemovable stream "truncate" with
    | error error =>
      refine .inl ⟨fun removable => ?_, error, ?_⟩
      · cases (MemoryStore.ensureRemovable_eq_ok_iff.mpr removable).symm.trans hremovable
      · simp only [call, LogServer.truncate, hremovable]
    | ok done =>
      refine .inr ⟨MemoryStore.ensureRemovable_eq_ok_iff.mp hremovable, ?_⟩
      cases hserved : client.truncate stream (LogServer.cutRevision before) state with
      | mk outcome state' =>
        simp only [call, LogServer.truncate, request, hremovable, hserved]
        cases outcome with
        | error error => exact ⟨_, rfl⟩
        | ok done => rfl
  | delete stream =>
    cases hremovable : ensureRemovable stream "delete" with
    | error error =>
      refine .inl ⟨fun removable => ?_, error, ?_⟩
      · cases (MemoryStore.ensureRemovable_eq_ok_iff.mpr removable).symm.trans hremovable
      · simp only [call, LogServer.delete, hremovable]
    | ok done =>
      refine .inr ⟨MemoryStore.ensureRemovable_eq_ok_iff.mp hremovable, ?_⟩
      cases hserved : client.delete stream state with
      | mk outcome state' =>
        simp only [call, LogServer.delete, request, hremovable, hserved]
        cases outcome with
        | error error => exact ⟨_, rfl⟩
        | ok existed => cases existed <;> rfl

/-- The first request fails, finds no stream to delete, or removes. -/
theorem request_cases (removal : Removal) (faults : List (Fault LogOperation)) (server : LogModel) :
    ((∃ error faults', removal.request LogModel.client.unreliable ⟨faults, server⟩
          = (.error error, ⟨faults', server⟩)) ∧
        (server.head? removal.stream = none ∨
          ∃ fault ∈ faults, fault.strikes removal.operation = true)) ∨
      ((∃ stream, removal = .delete stream) ∧ server.head? removal.stream = none ∧
        removal.request LogModel.client.unreliable ⟨faults, server⟩
          = (.ok false, ⟨faults, server⟩)) ∨
      (server.head? removal.stream).isSome ∧
        removal.request LogModel.client.unreliable ⟨faults, server⟩
          = (.ok true, ⟨faults, removal.removed server⟩) := by
  cases removal with
  | truncate stream before =>
    simp only [request, LogClient.unreliable, Faulty.run]
    cases htake : Fault.take LogOperation.truncate faults with
    | some struck => exact .inl ⟨⟨_, _, rfl⟩, .inr (exists_strikes htake)⟩
    | none =>
      cases hhead : server.head? stream with
      | none =>
        simp only [LogModel.client, LogModel.truncate, hhead]
        exact .inl ⟨⟨_, _, rfl⟩, .inl hhead⟩
      | some head =>
        simp only [LogModel.client, LogModel.truncate, hhead]
        exact .inr (.inr ⟨Option.isSome_of_eq_some hhead, rfl⟩)
  | delete stream =>
    simp only [request, LogClient.unreliable, Faulty.run]
    cases htake : Fault.take LogOperation.delete faults with
    | some struck => exact .inl ⟨⟨_, _, rfl⟩, .inr (exists_strikes htake)⟩
    | none =>
      cases hhead : server.head? stream with
      | none =>
        simp only [LogModel.client, LogModel.delete, hhead]
        exact .inr (.inl ⟨⟨_, rfl⟩, hhead, trivial⟩)
      | some head =>
        simp only [LogModel.client, LogModel.delete, hhead]
        exact .inr (.inr ⟨Option.isSome_of_eq_some hhead, rfl⟩)

namespace Attempt

variable {attempt : Attempt} {server : LogModel}

/-- A removal that was served ends with its marker or without it. -/
theorem ends_of_served (removable : attempt.removal.Removable)
    (found : (server.head? attempt.removal.stream).isSome) :
    let answer := (LogServer.append LogModel.client.unreliable .markers
      [attempt.removal.marker attempt.fresh] none
        ⟨attempt.faults, attempt.unmarked server⟩).map fun _ => ()
    attempt.Ends server answer.outcome answer.state.inner := by
  intro answer
  have hid : (attempt.removal.marker attempt.fresh).id = attempt.fresh := by
    cases attempt.removal <;> rfl
  rcases append_marker attempt.faults (attempt.unmarked server)
      (attempt.removal.marker attempt.fresh) with
    ⟨⟨records, houtcome⟩, hstate⟩ | ⟨⟨error, houtcome⟩, hstate, hcause⟩
  · have hok : answer.outcome = .ok () := congrArg (Except.map fun _ => ()) houtcome
    rw [hok, show answer.state.inner = attempt.marked server from hstate]
    exact .marked removable found
  · have herror : answer.outcome = .error error := congrArg (Except.map fun _ => ()) houtcome
    rw [herror, show answer.state.inner = attempt.unmarked server from hstate]
    rw [hid] at hcause
    exact .unmarked removable found error hcause

/-- An attempt comes to one of its ends. -/
theorem ends (attempt : Attempt) (server : LogModel) :
    attempt.Ends server (attempt.run server).1 (attempt.run server).2 := by
  unfold run
  rcases attempt.removal.call_cases LogModel.client.unreliable attempt.fresh
      (⟨attempt.faults, server⟩ : Faulty LogOperation LogModel) with
    ⟨removable, error, hcall⟩ | ⟨removable, hserved⟩
  · rw [hcall]
    exact .refused error (.inl removable)
  · rcases attempt.removal.request_cases attempt.faults server with
      ⟨⟨error, faults, hrequest⟩, hcause⟩ | ⟨⟨stream, hdelete⟩, habsent, hrequest⟩ |
      ⟨hfound, hrequest⟩
    · rw [hrequest] at hserved
      obtain ⟨error', hcall⟩ := hserved
      rw [hcall]
      exact .refused error' (.inr hcause)
    · rw [hrequest] at hserved
      rw [hserved]
      rw [hdelete] at habsent
      exact .missing removable stream hdelete habsent
    · rw [hrequest] at hserved
      rw [hserved]
      exact ends_of_served removable hfound

end Attempt

/-! ## Markers -/

end Removal

/-- The markers on a server, in order. -/
def LogModel.markers (server : LogModel) : List Event :=
  (server.records.filter (·.stream = StreamId.markers.name)).map (·.toRecord.event)

namespace Removal

variable {server : LogModel}

/-- No removal removes a marker. -/
theorem markers_removed {removal : Removal} (removable : removal.Removable) (server : LogModel) :
    (removal.removed server).markers = server.markers := by
  have hname : removal.stream.name ≠ StreamId.markers.name :=
    fun hsame => removable.2 (congrArg StreamId.mk hsame)
  -- whatever is removed is of the removal's stream
  have hkeeps : ∀ gone : ServerRecord → Bool,
      (∀ record, gone record = true → record.stream = removal.stream.name) →
        (server.records.filter fun record => !gone record).filter
            (·.stream = StreamId.markers.name)
          = server.records.filter (·.stream = StreamId.markers.name) := by
    intro gone hgone
    rw [List.filter_filter]
    refine List.filter_congr fun record _ => ?_
    by_cases hmarker : record.stream = StreamId.markers.name
    · have hkept : gone record = false := by
        refine Bool.eq_false_iff.mpr fun hremoved => hname ?_
        rw [← hgone record hremoved, hmarker]
      rw [hkept, Bool.not_false, Bool.and_true]
    · rw [decide_eq_false hmarker, Bool.false_and]
  cases removal with
  | truncate stream before =>
    refine congrArg (List.map _) (hkeeps _ fun record hgone => ?_)
    exact of_decide_eq_true (Bool.and_eq_true_iff.mp hgone).1
  | delete stream =>
    exact congrArg (List.map _) (hkeeps _ fun record hgone => of_decide_eq_true hgone)

/-- A marker comes after those that are there. -/
theorem markers_add (server : LogModel) (marker : Event) :
    (server.add .markers [.ofEvent marker]).markers = server.markers ++ [marker] := by
  show List.map _ (List.filter _ (server.records ++ _)) = _
  rw [List.filter_append, List.map_append]
  rfl

/-- The marker of an attempt that succeeds on a stream that is there. -/
def Attempt.left (attempt : Attempt) (server : LogModel) : List Event :=
  match (attempt.run server).1, server.head? attempt.removal.stream with
  | .ok (), some _ => [attempt.removal.marker attempt.fresh]
  | _, _ => []

/-- An attempt leaves its marker when it succeeds on a stream that is there, and only then. -/
theorem Attempt.markers_run (attempt : Attempt) (server : LogModel) :
    (attempt.run server).2.markers = server.markers ++ attempt.left server := by
  have hends := attempt.ends server
  unfold left
  generalize attempt.run server = answer at hends
  obtain ⟨outcome, after⟩ := answer
  cases hends with
  | refused error => exact (List.append_nil _).symm
  | missing removable stream delete absent =>
    rw [show attempt.removal.stream = stream from congrArg Removal.stream delete, absent]
    exact (List.append_nil _).symm
  | marked removable found =>
    obtain ⟨head, hhead⟩ := Option.isSome_iff_exists.mp found
    rw [hhead]
    show (attempt.marked server).markers = _
    rw [marked, proposed, markers_add, unmarked, markers_removed removable]
  | unmarked removable found error =>
    exact (markers_removed removable server).trans (List.append_nil _).symm

/-- An attempt takes no stream away but the one it is to delete, and makes none but that of markers. -/
theorem Attempt.head?_run (attempt : Attempt) (server : LogModel) {stream : StreamId}
    (unlike : stream ≠ .markers) :
    (attempt.run server).2.head? stream = server.head? stream ∨
      attempt.removal = .delete stream ∧ (server.head? stream).isSome ∧
        (attempt.run server = (.ok (), attempt.marked server) ∨
          ∃ error, attempt.run server = (.error error, attempt.unmarked server)) := by
  have hends := attempt.ends server
  generalize attempt.run server = answer at hends
  obtain ⟨outcome, after⟩ := answer
  -- a truncation keeps its stream, also when it cuts off every record
  have hkept : attempt.removal ≠ .delete stream →
      (attempt.unmarked server).head? stream = server.head? stream := by
    intro hother
    unfold unmarked removed
    cases hremoval : attempt.removal with
    | truncate target before => rfl
    | delete target =>
      have hne : stream ≠ target := by
        rintro rfl
        exact hother hremoval
      exact (LogModel.head?_withoutStream target stream).trans (if_neg hne)
  cases hends with
  | refused error => exact .inl rfl
  | missing => exact .inl rfl
  | marked removable found =>
    by_cases hsame : attempt.removal = .delete stream
    · rw [hsame] at found
      exact .inr ⟨hsame, found, .inl rfl⟩
    · left
      show (attempt.marked server).head? stream = _
      rw [marked, LogModel.head?_add, if_neg unlike, hkept hsame]
  | unmarked removable found error =>
    by_cases hsame : attempt.removal = .delete stream
    · rw [hsame] at found
      exact .inr ⟨hsame, found, .inr ⟨error, rfl⟩⟩
    · exact .inl (hkept hsame)

/-! ## Attempts one after another -/

/-- The server after some attempts. -/
def after : List Attempt → LogModel → LogModel
  | [], server => server
  | attempt :: rest, server => after rest (attempt.run server).2

/-- The markers of the attempts that succeed on a stream that is there, in order. -/
def left : List Attempt → LogModel → List Event
  | [], _ => []
  | attempt :: rest, server => attempt.left server ++ left rest (attempt.run server).2

theorem after_append (earlier later : List Attempt) (server : LogModel) :
    after (earlier ++ later) server = after later (after earlier server) := by
  induction earlier generalizing server with
  | nil => rfl
  | cons attempt rest ih => exact ih _

/-- The markers tell the attempts that succeeded on a stream that was there. -/
theorem markers_after (attempts : List Attempt) (server : LogModel) :
    (after attempts server).markers = server.markers ++ left attempts server := by
  induction attempts generalizing server with
  | nil => exact (List.append_nil _).symm
  | cons attempt rest ih =>
    rw [after, ih, attempt.markers_run, left, List.append_assoc]

/-- A stream that is gone was deleted, with a marker or without. -/
theorem deleted_of_gone {attempts : List Attempt} {stream : StreamId} (unlike : stream ≠ .markers)
    (there : (server.head? stream).isSome) (gone : (after attempts server).head? stream = none) :
    ∃ sooner lost later, attempts = sooner ++ lost :: later ∧ lost.removal = .delete stream ∧
      (lost.run (after sooner server) = (.ok (), lost.marked (after sooner server)) ∨
        ∃ error, lost.run (after sooner server)
          = (.error error, lost.unmarked (after sooner server))) := by
  induction attempts generalizing server with
  | nil =>
    rw [show server.head? stream = none from gone] at there
    cases there
  | cons attempt rest ih =>
    rcases attempt.head?_run server unlike with hsame | ⟨hdelete, -, hrun⟩
    · rw [← hsame] at there
      obtain ⟨sooner, lost, later, rfl, hlost⟩ := ih there gone
      exact ⟨attempt :: sooner, lost, later, rfl, hlost⟩
    · exact ⟨[], attempt, rest, rfl, hdelete, hrun⟩

/-- **Only a deletion that is tried again succeeds without its marker**: whatever a server holds and
whichever requests fail, an attempt after some others ends in one of four ways, and the markers tell in order
which of them succeeded on a stream that was there. An attempt that succeeds on a stream that is not there
is a deletion; when that stream was there in the beginning, an earlier deletion took it away, which either
succeeded or told the caller that it failed and left no marker. -/
theorem unmarked_only_retried (server : LogModel) (earlier : List Attempt) (attempt : Attempt) :
    let before := after earlier server
    attempt.Ends before (attempt.run before).1 (attempt.run before).2 ∧
      (attempt.run before).2.markers = server.markers ++ left (earlier ++ [attempt]) server ∧
      ((attempt.run before).1 = .ok () → before.head? attempt.removal.stream = none →
        ∃ stream, attempt.removal = .delete stream ∧ (attempt.run before).2 = before ∧
          ((server.head? stream).isSome →
            ∃ sooner lost later, earlier = sooner ++ lost :: later ∧ lost.removal = .delete stream ∧
              (lost.run (after sooner server) = (.ok (), lost.marked (after sooner server)) ∨
                ∃ error, lost.run (after sooner server)
                  = (.error error, lost.unmarked (after sooner server))))) := by
  intro before
  refine ⟨attempt.ends before, ?_, fun hok hgone => ?_⟩
  · have hmarkers := markers_after (earlier ++ [attempt]) server
    rw [after_append] at hmarkers
    exact hmarkers
  · have hends := attempt.ends before
    generalize attempt.run before = answer at hends hok
    obtain ⟨outcome, final⟩ := answer
    change outcome = .ok () at hok
    change ∃ stream, attempt.removal = .delete stream ∧ final = before ∧ _
    change attempt.Ends before outcome final at hends
    cases hends with
    | refused error => cases hok
    | missing removable stream delete absent =>
      have unlike : stream ≠ .markers := by
        have hmarkers := removable.2
        rw [delete] at hmarkers
        exact hmarkers
      exact ⟨stream, delete, rfl, fun there => deleted_of_gone unlike there absent⟩
    | marked removable found =>
      rw [hgone] at found
      cases found
    | unmarked removable found error => cases hok

/-- A server with a stream of one record. -/
def stocked : LogModel :=
  (LogRequest.append ⟨"a"⟩ .any [⟨"1", "t", .null, []⟩]).send LogModel.client .empty

/-- A deletion whose marker cannot be appended. -/
def lostAttempt : Attempt := ⟨.delete ⟨"a"⟩, ⟨"m"⟩, [⟨.append, .logServer 503 "busy", 1⟩]⟩

/-- The same deletion, tried again. -/
def retriedAttempt : Attempt := ⟨.delete ⟨"a"⟩, ⟨"n"⟩, []⟩

/-- The first attempt fails although the stream is gone, the second one succeeds, and there is no marker. -/
theorem unmarked_only_retried_sample :
    (lostAttempt.run stocked).1
        = .error (.context "append_to_stream" .markers (.logServer 503 "busy")) ∧
      (stocked.head? ⟨"a"⟩).isSome ∧ (lostAttempt.run stocked).2.head? ⟨"a"⟩ = none ∧
      (retriedAttempt.run (lostAttempt.run stocked).2).1 = .ok () ∧
      (retriedAttempt.run (lostAttempt.run stocked).2).2.markers = [] ∧
      ∃ sooner lost later, [lostAttempt] = sooner ++ lost :: later ∧ lost.removal = .delete ⟨"a"⟩ ∧
        (lost.run (after sooner stocked) = (.ok (), lost.marked (after sooner stocked)) ∨
          ∃ error, lost.run (after sooner stocked)
            = (.error error, lost.unmarked (after sooner stocked))) := by
  have gone : (lostAttempt.run stocked).2.head? ⟨"a"⟩ = none := rfl
  have succeeds : (retriedAttempt.run (lostAttempt.run stocked).2).1 = .ok () := rfl
  obtain ⟨-, hmarkers, hretried⟩ := unmarked_only_retried stocked [lostAttempt] retriedAttempt
  obtain ⟨stream, hdelete, -, hlost⟩ := hretried succeeds gone
  cases hdelete
  exact ⟨rfl, rfl, gone, succeeds, hmarkers.trans (by decide), hlost rfl⟩

end Removal

end EventJournal
