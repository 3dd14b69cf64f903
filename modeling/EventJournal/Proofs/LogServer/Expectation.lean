import EventJournal.Proofs.LogServer.Requests

/-!
# Two ways to check an expected version

Over a log server the expected version of a batch is checked in two ways. A batch with events is sent, and the
server compares with the next revision of the stream. An empty batch is not sent; its expected version is
compared with the last record that is stored. Truncation takes records away and leaves the next revision, so
the two differ where nothing is left.

* `LogModel.Emptied` — the streams where they do.
* `append_verdict` and `append_nothing_verdict` — what each of them compares with.
* `verdicts_agree_iff` — the main statement, with what a store in memory says of an empty batch.
-/

namespace EventJournal

namespace LogModel

/-- The version of a stream as the server counts: the one before its next revision. -/
def versionOf (server : LogModel) (stream : StreamId) : StreamVersion :=
  ((lastRevision (server.head? stream)).map fun revision =>
    (⟨revision.toInt64⟩ : StreamVersion)).getD .initial

/-- The stream exists and nothing is stored of it: it was truncated past its end. -/
def Emptied (server : LogModel) (stream : StreamId) : Prop :=
  (server.head? stream).isSome ∧ server.stored stream = []

instance (server : LogModel) (stream : StreamId) : Decidable (server.Emptied stream) :=
  inferInstanceAs (Decidable (_ ∧ _))

/-- Events that nothing but the version can keep the server from appending. -/
structure Sendable (server : LogModel) (events : List Event) : Prop where
  nonempty : events ≠ []
  distinct : (events.map Event.id).Nodup
  unused : ∀ event ∈ events, event.id.name ∉ server.ids

end LogModel

/-- Whether an append was accepted, or why not. -/
def LogServer.verdict (stream : StreamId) (events : List Event) (version : StreamVersion)
    (server : LogModel) : Outcome Unit :=
  (LogServer.append LogModel.client stream events (some version) server).outcome.map fun _ => ()

/-- The same of a store in memory. -/
def MemoryStore.verdict (store : MemoryStore) (stream : StreamId) (events : List Event)
    (version : StreamVersion) (now : Timestamp) : Outcome Unit :=
  (store.append stream now events (some version)).outcome.map fun _ => ()

/-! ## Checks -/

theorem ensureWritable_of_ne_global {stream : StreamId} (h : stream ≠ .global) (operation : String) :
    ensureWritable stream operation = .ok () := by
  simp [ensureWritable, StreamId.isGlobal, h]

/-- A check tells the versions that it is made against apart, whatever version is expected. -/
theorem checkExpected_inj {stream : StreamId} {version actual other : StreamVersion} :
    checkExpected stream (some version) actual = checkExpected stream (some version) other
      ↔ actual = other := by
  constructor
  · intro h
    by_cases hactual : version = actual
    · have hother : checkExpected stream (some version) other = .ok () := by
        rw [← h, checkExpected, if_pos hactual]
      rw [← hactual]
      exact MemoryStore.checkExpected_eq_ok_iff.mp hother version rfl
    · -- a conflict names the actual version
      rw [checkExpected, checkExpected, if_neg hactual] at h
      by_cases hother : version = other
      · rw [if_pos hother] at h
        cases h
      · rw [if_neg hother] at h
        cases h
        rfl
  · rintro rfl
    rfl

section

variable {store : MemoryStore} {server : LogModel} {stream : StreamId}

theorem Agrees.versionOf_eq (agrees : Agrees store server) (sound : store.Sound) (stream : StreamId) :
    server.versionOf stream = store.versionOf stream :=
  agrees.lastRevision_eq sound stream

/-- The same records are stored in memory. -/
theorem Agrees.emptied_iff (agrees : Agrees store server) (regular : stream ≠ .global) :
    server.Emptied stream ↔ (store.version? stream).isSome ∧ store.recordsOf stream = [] := by
  have hregular : stream.isGlobal = false :=
    Bool.eq_false_iff.mpr fun h => regular (StreamId.isGlobal_iff.mp h)
  have hhead : (server.head? stream).isSome = (store.version? stream).isSome := by
    rw [agrees.heads, Option.isSome_map]
  unfold LogModel.Emptied
  rw [hhead]
  refine and_congr_right fun hexists => ?_
  rcases agrees.readable stream with ⟨hmissing, -⟩ | ⟨-, others, hreadable, twins⟩
  · rw [hregular, Bool.false_or, hexists] at hmissing
    cases hmissing
  · rw [MemoryStore.readable_of_ne_global store regular] at twins
    rw [LogModel.stored, hreadable, Option.getD_some, List.map_eq_nil_iff, ← List.isEmpty_iff,
      ← List.isEmpty_iff, twins.isEmpty_eq]

/-- A stream that exists does not have the initial version, whether anything is stored of it or not. -/
theorem LogModel.Emptied.versionOf_ne_initial (emptied : server.Emptied stream)
    (agrees : Agrees store server) (sound : store.Sound) : server.versionOf stream ≠ .initial := by
  obtain ⟨hexists, -⟩ := emptied
  rw [agrees.heads, Option.isSome_map] at hexists
  obtain ⟨version, hversion⟩ := Option.isSome_iff_exists.mp hexists
  obtain ⟨hnonnegative, -⟩ := sound.version stream version hversion
  rw [agrees.versionOf_eq sound, MemoryStore.versionOf, hversion, Option.getD_some]
  rintro rfl
  rw [StreamVersion.toInt_initial] at hnonnegative
  omega

/-! ## The verdicts -/

/-- A batch with events is checked against the version that the server counts. -/
theorem append_verdict (agrees : Agrees store server) (sound : store.Sound)
    (writable : stream ≠ .global) {events : List Event} (sendable : server.Sendable events)
    (version : StreamVersion) :
    LogServer.verdict stream events version server
      = checkExpected stream (some version) (server.versionOf stream) := by
  have hwritable := ensureWritable_of_ne_global writable "append to"
  have hunique := MemoryStore.checkUnique_eq_ok_iff.mpr sendable.distinct
  have hempty : events.isEmpty = false := List.isEmpty_eq_false_iff.mpr sendable.nonempty
  have hmeets := agrees.meets_iff sound stream (some version)
  rw [← MemoryStore.checkExpected_eq_ok_iff, ← agrees.versionOf_eq sound] at hmeets
  unfold LogServer.verdict LogServer.append
  simp only [hwritable, hunique, hempty, Bool.false_eq_true, if_false]
  cases hcheck : checkExpected stream (some version) (server.versionOf stream) with
  | error error =>
    obtain ⟨given, hgiven, -, rfl⟩ := MemoryStore.checkExpected_eq_error hcheck
    cases hgiven
    have hnot : LogModel.meets (.ofVersion (some version)) (server.head? stream) = false := by
      refine Bool.eq_false_iff.mpr fun hmet => ?_
      have hok := hmeets.mp hmet
      rw [hcheck] at hok
      cases hok
    simp only [LogServer.send, LogModel.client, LogModel.append_of_not_meets _ hnot]
    rfl
  | ok done =>
    have hmet := hmeets.mpr hcheck
    have hunused : ((events.map ProposedEvent.ofEvent).find? fun event =>
        server.ids.contains event.eventId) = none := by
      refine List.find?_eq_none.mpr fun proposed hproposed => ?_
      obtain ⟨event, hevent, rfl⟩ := List.mem_map.mp hproposed
      rw [List.contains_iff_mem]
      exact sendable.unused event hevent
    simp only [LogServer.send, LogModel.client, LogModel.append_of_fresh hmet hunused]
    rfl

/-- An empty batch is checked against the version of the last record that is stored. -/
theorem append_nothing_verdict (agrees : Agrees store server) (sound : store.Sound)
    (writable : stream ≠ .global) (version : StreamVersion) :
    LogServer.verdict stream [] version server
      = checkExpected stream (some version)
          (if server.Emptied stream then .initial else server.versionOf stream) := by
  have hregular : ¬ stream.isGlobal = true := fun h => writable (StreamId.isGlobal_iff.mp h)
  have hwritable := ensureWritable_of_ne_global writable "append to"
  have hunique : checkUnique [] = .ok () := rfl
  have hbounds : (LogServer.bounds LogModel.client stream server).outcome = store.bounds stream :=
    (bounds_matches agrees sound stream).same.symm
  have hchecked : LogServer.verdict stream [] version server
      = (LogServer.checkBounds LogModel.client stream version server).outcome := by
    unfold LogServer.verdict LogServer.append
    simp only [hwritable, hunique, List.isEmpty_nil, if_true, Answer.map]
    cases (LogServer.checkBounds LogModel.client stream version server).outcome <;> rfl
  rw [hchecked, LogServer.checkBounds]
  dsimp only
  rw [hbounds, MemoryStore.bounds, if_neg hregular, agrees.versionOf_eq sound]
  cases hhead : (store.recordsOf stream).head? with
  | some first =>
    have hstored : ¬ server.Emptied stream := by
      rw [agrees.emptied_iff writable]
      rintro ⟨-, hnone⟩
      rw [hnone] at hhead
      cases hhead
    rw [if_neg hstored]
    rfl
  | none =>
    -- nothing is stored: either there is no such stream, or it was emptied
    have hnone : store.recordsOf stream = [] := List.head?_eq_none_iff.mp hhead
    have hactual : (if server.Emptied stream then StreamVersion.initial else store.versionOf stream)
        = .initial := by
      by_cases hemptied : server.Emptied stream
      · rw [if_pos hemptied]
      · rw [if_neg hemptied]
        rw [agrees.emptied_iff writable, hnone, eq_self, and_true, Option.not_isSome_iff_eq_none]
          at hemptied
        rw [MemoryStore.versionOf, hemptied]
        rfl
    rw [hactual]
    rfl

/-- In memory an empty batch is checked against the version of the stream, as any other batch is. -/
theorem MemoryStore.append_nothing_verdict (store : MemoryStore) (writable : stream ≠ .global)
    (version : StreamVersion) (now : Timestamp) :
    store.verdict stream [] version now
      = checkExpected stream (some version) (store.versionOf stream) := by
  have hunique : checkUnique [] = .ok () := rfl
  rw [verdict, append_of_ne_global store now [] _ writable, appendChecked, hunique]
  cases checkExpected stream (some version) (store.versionOf stream) <;> rfl

end

/-! ## Where the two ways differ -/

/-- **The two ways agree except on emptied streams**: after any calls to a store over a fresh log server, and for
any stream that can be written, a batch whose ids are distinct and unused is accepted just if the version is the
one that the server counts, and otherwise the conflict names that one. An empty batch is checked against it too
unless the stream exists and nothing is stored of it; then the initial version is taken for the actual one,
which is never right. So the two verdicts agree, for any expected version, just if the stream is not emptied; and
so do those of the log server and of the store in memory on an empty batch, since in memory the version is the
one that the server counts. -/
theorem verdicts_agree_iff (calls : List IssuedCall)
    (few : ((MemoryStore.appendedBy (calls.flatMap IssuedCall.writes) .empty).length : Int)
      < Int64.maxValue.toInt)
    {stream : StreamId} (writable : stream ≠ .global) (version : StreamVersion) :
    let server := (Backend.logServer LogModel.client).after calls .empty
    let store := MemoryStore.empty.run (calls.flatMap IssuedCall.writes)
    (∀ events, server.Sendable events →
      LogServer.verdict stream events version server
        = checkExpected stream (some version) (server.versionOf stream)) ∧
      LogServer.verdict stream [] version server
        = checkExpected stream (some version)
            (if server.Emptied stream then .initial else server.versionOf stream) ∧
      (∀ events, server.Sendable events →
        (LogServer.verdict stream [] version server = LogServer.verdict stream events version server
          ↔ ¬ server.Emptied stream)) ∧
      ∀ now,
        store.verdict stream [] version now
            = checkExpected stream (some version) (server.versionOf stream) ∧
          (LogServer.verdict stream [] version server = store.verdict stream [] version now
            ↔ ¬ server.Emptied stream) := by
  intro server store
  have hempty : MemoryStore.empty.Sound := .empty .empty
  have hfirst : MemoryStore.empty.nextSequence.toInt ≤ (0 : Nat) + 1 := by decide
  have hsound : store.Sound := (hempty.run _ 0 hfirst (by omega)).1
  have hagrees : Agrees store server :=
    Backend.after_agrees .empty hempty calls 0 hfirst (by omega)
  have hsent {events : List Event} (sendable : server.Sendable events) :=
    append_verdict hagrees hsound writable sendable version
  have hnothing := append_nothing_verdict hagrees hsound writable version
  have hmemory (now : Timestamp) := store.append_nothing_verdict writable version now
  -- the versions compared with are the same just if the stream is not emptied
  have hdiffer : (if server.Emptied stream then StreamVersion.initial else server.versionOf stream)
      = server.versionOf stream ↔ ¬ server.Emptied stream := by
    by_cases hemptied : server.Emptied stream
    · rw [if_pos hemptied]
      have hne := hemptied.versionOf_ne_initial hagrees hsound
      exact iff_of_false hne.symm (not_not_intro hemptied)
    · rw [if_neg hemptied]
      exact iff_of_true rfl hemptied
  refine ⟨fun events sendable => hsent sendable, hnothing, ?_, ?_⟩
  · intro events sendable
    rw [hsent sendable, hnothing, checkExpected_inj]
    exact hdiffer
  · intro now
    rw [hmemory, hnothing, ← hagrees.versionOf_eq hsound]
    exact ⟨rfl, checkExpected_inj.trans hdiffer⟩

/-- A stream that is truncated past its end, and one that is truncated up to its last record. -/
def emptying : List IssuedCall :=
  [.append ⟨"a"⟩ [⟨⟨"1"⟩, "t", .null, .empty⟩] none,
    .append ⟨"b"⟩ [⟨⟨"2"⟩, "t", .null, .empty⟩, ⟨⟨"3"⟩, "t", .null, .empty⟩] none,
    .truncate ⟨"a"⟩ ⟨1⟩, .truncate ⟨"b"⟩ ⟨1⟩, .append ⟨"a"⟩ [] (some ⟨0⟩)].mapIdx
      fun place call => ⟨call, default, ⟨String.ofList (.replicate place 'm')⟩⟩

theorem verdicts_agree_iff_sample :
    ((MemoryStore.appendedBy (emptying.flatMap IssuedCall.writes) .empty).length : Int)
        < Int64.maxValue.toInt ∧
      let server := (Backend.logServer LogModel.client).after emptying .empty
      server.Sendable [⟨⟨"1"⟩, "t", .null, .empty⟩] ∧
        LogServer.verdict ⟨"a"⟩ [⟨⟨"1"⟩, "t", .null, .empty⟩] ⟨0⟩ server = .ok () ∧
        LogServer.verdict ⟨"a"⟩ [] ⟨0⟩ server = .error (.concurrency ⟨"a"⟩ ⟨0⟩ .initial) ∧
        LogServer.verdict ⟨"a"⟩ [] ⟨0⟩ server
          ≠ LogServer.verdict ⟨"a"⟩ [⟨⟨"1"⟩, "t", .null, .empty⟩] ⟨0⟩ server ∧
        LogServer.verdict ⟨"b"⟩ [] ⟨1⟩ server
          = LogServer.verdict ⟨"b"⟩ [⟨⟨"1"⟩, "t", .null, .empty⟩] ⟨1⟩ server := by
  have few : ((MemoryStore.appendedBy (emptying.flatMap IssuedCall.writes) .empty).length : Int)
      < Int64.maxValue.toInt := by decide
  have ha : StreamId.mk "a" ≠ .global := by decide
  have hb : StreamId.mk "b" ≠ .global := by decide
  have hsendable : ((Backend.logServer LogModel.client).after emptying .empty).Sendable
      [⟨⟨"1"⟩, "t", .null, .empty⟩] := ⟨by decide, by decide, by decide⟩
  obtain ⟨-, -, hdiffer, -⟩ := verdicts_agree_iff emptying few ha ⟨0⟩
  obtain ⟨-, -, hagree, -⟩ := verdicts_agree_iff emptying few hb ⟨1⟩
  refine ⟨few, hsendable, by decide, by decide, ?_, ?_⟩
  · intro hsame
    exact (hdiffer _ hsendable).mp hsame (by decide)
  · exact (hagree _ hsendable).mpr (by decide)

end EventJournal
