import EventJournal.Proofs.Process.Forward
import EventJournal.Proofs.Process.Handings
import EventJournal.Proofs.Upcast.Stages

/-!
# Passes that return without a failure

A pass that does not find its stream has nothing to do, and returns without a failure. It knows a missing
stream by the failure of its read, whatever stream that failure names and wherever it comes from. So an
upcaster that looks for a stream of its own and does not find it ends the read in the same way, and the
pass returns without a failure and without having handled a record. No other failure of a read is passed
over like this.

* `MemoryStore.read_reader_error_iff` — when a read fails, plain or through a chain, and how.
* `Course.WorkingOn` — what a pass did since its read, and what it has still to do.
* `Course.working_of_acting` — every pass at work goes back to a read.
* `Course.handled_unless_not_found` — the main statement. The course after it is one where an upcaster fails
  on the only record of a stream and nobody hears of it.
-/

namespace EventJournal

open MemoryStore PassAction

theorem StoreError.isStreamNotFound_withContext (error : StoreError) (operation : String)
    (stream : StreamId) : (error.withContext operation stream).isStreamNotFound = error.isStreamNotFound := by
  rw [isStreamNotFound, isStreamNotFound, root_withContext]

/-- A forward read fails when there is no such stream, and when an upcaster fails on the records beyond the
position. -/
theorem MemoryStore.read_reader_error_iff {chain : Option UpcastChain} {now : Timestamp}
    {fresh : EventId} {stream : StreamId} {position : Position} {filter : Option TypeFilter}
    {store : MemoryStore} {error : StoreError} :
    ((reader chain now fresh).read stream { ReadOptions.forward with position, filter } store).outcome
        = .error error ↔
      (stream.isGlobal || (store.version? stream).isSome) = false ∧ error = .streamNotFound stream ∨
      (stream.isGlobal || (store.version? stream).isSome) = true ∧
        ∃ failure, ((chain.getD .identity).upcastRecords (store.beyond stream position)).outcome
          = .error failure ∧ error = failure.withContext "upcast" stream := by
  cases hknown : stream.isGlobal || (store.version? stream).isSome with
  | false =>
    rw [reader_of_missing chain now fresh _ hknown]
    simp [eq_comm]
  | true =>
    simp only [Bool.true_eq_false, false_and, false_or, true_and]
    cases chain with
    | none =>
      have hread : store.read stream { ReadOptions.forward with position, filter } = .ok _ :=
        if_pos hknown
      show store.read stream { ReadOptions.forward with position, filter } = .error error ↔ _
      rw [hread]
      constructor
      · nofun
      · rintro ⟨failure, hfailure, -⟩
        cases hfailure
    | some chain =>
      show (Answer.andThen ⟨store.read stream { ReadOptions.forward with position, filter := none },
        store, []⟩ (chain.upcastSlice stream filter)).outcome = .error error ↔ _
      cases hread : store.read stream { ReadOptions.forward with position, filter := none } with
      | error other =>
        rw [show store.read stream { ReadOptions.forward with position, filter := none } = .ok _ from
          if_pos hknown] at hread
        cases hread
      | ok slice =>
        have hslice : slice.records = store.beyond stream position := by
          rw [read_beyond hread]
          exact List.filter_eq_self.mpr fun _ _ => rfl
        simp only [Answer.andThen, UpcastChain.upcastSlice, Option.getD_some, hslice]
        cases (chain.upcastRecords (store.beyond stream position)).outcome with
        | error failure => simp [Except.map, Outcome.context, eq_comm]
        | ok outputs => simp [Except.map, Outcome.context]

namespace Processor

variable {σ κ η : Type} {processor : Processor σ κ η} {position : Position} {store : σ}

/-- The records of a pass are those of its read, and none if the read does not find a stream. -/
theorem readAfter_ok_iff {records : List Record} :
    (processor.readAfter position store).outcome = .ok records ↔
      match (processor.store.read processor.config.stream
        { ReadOptions.forward with position, filter := processor.config.filter } store).outcome with
      | .ok slice => slice.records = records
      | .error error => error.isStreamNotFound = true ∧ records = [] := by
  simp only [readAfter]
  cases (processor.store.read processor.config.stream
    { ReadOptions.forward with position, filter := processor.config.filter } store).outcome with
  | ok slice => simp
  | error error =>
    dsimp only
    by_cases hmissing : error.isStreamNotFound = true
    · rw [if_pos hmissing]
      exact ⟨fun h => ⟨hmissing, (Except.ok.inj h).symm⟩, fun h => congrArg Except.ok h.2.symm⟩
    · rw [if_neg hmissing]
      exact ⟨nofun, fun h => absurd h.1 hmissing⟩

/-- Any other failure of its read is one of the pass. -/
theorem readAfter_error_of {error : StoreError} (found : error.isStreamNotFound = false)
    (failed : (processor.store.read processor.config.stream
      { ReadOptions.forward with position, filter := processor.config.filter } store).outcome
        = .error error) : (processor.readAfter position store).outcome = .error error := by
  simp only [readAfter, failed, found, Bool.false_eq_true, if_false]

end Processor

namespace Course

variable {κ η : Type} {processor : Processor MemoryStore κ η} {reading course : Course κ η}
  {checkpoint current : Checkpoint} {records : List Record} {todo : List PassAction}
  {done : List Handing}

/-! ## Since the read -/

/-- A pass that read some records at an earlier course: it handled the first of them, has the others still
to do, and holds the checkpoint that it loaded if there was nothing to read. -/
structure WorkingOn (reading : Course κ η) (checkpoint : Checkpoint) (records : List Record)
    (course : Course κ η) (current : Checkpoint) (todo : List PassAction) (done : List Handing) :
    Prop where
  pass : course.pass = some (.acting current todo)
  handings : course.handings = reading.handings ++ done
  succeeded : ∀ handing ∈ done, handing.succeeded = true
  split : done.map (·.record) ++ todo.filterMap record? = records
  idle : records = [] → current = checkpoint ∧ todo = []

/-- What a step of the plan notes: the record that it handed over, if it did. -/
theorem handings_note {action : PassAction} {rest : List PassAction} {next : Checkpoint}
    (phase : course.pass = some (.acting current (action :: rest)))
    (succeeds : (processor.act current action course.place).outcome = .ok next) :
    ∃ more, (course.note processor).handings = course.handings ++ more ∧
      (∀ handing ∈ more, handing.succeeded = true) ∧ more.map (·.record) = action.record?.toList := by
  have hupcoming : course.upcoming = (PassPhase.acting current (action :: rest)).upcoming := by
    rw [upcoming, phase, Option.bind_some]
  cases action with
  | commit position =>
    have hquiet : course.upcoming = none := hupcoming
    rw [note_of_upcoming_none hquiet]
    exact ⟨[], (List.append_nil _).symm, List.forall_mem_nil _, rfl⟩
  | handle record position =>
    have hhanded : course.upcoming = some (record, position) := hupcoming
    simp only [Processor.act, Processor.handle] at succeeds
    cases hresult : processor.handler record course.place.handler with
    | mk result handler =>
      rw [hresult] at succeeds
      cases result with
      | error reasons => cases succeeds
      | ok answer =>
        simp only [note, hhanded, hresult]
        exact ⟨[_], rfl, fun handing hmem => by rw [List.mem_singleton.mp hmem]; rfl, rfl⟩

/-- A step of the plan: the pass is over, or the first thing to do is done. -/
theorem WorkingOn.act {action : PassAction} {rest : List PassAction}
    (h : WorkingOn reading checkpoint records course current (action :: rest) done) :
    (course.advance processor).pass = none ∨
      ∃ next more, WorkingOn reading checkpoint records (course.advance processor) next rest
        (done ++ more) := by
  have hstep : processor.passStep ⟨.acting current (action :: rest), course.place⟩
      = some (Processor.passAfter (processor.act current action course.place) (.acting · rest)) := rfl
  have hpass := (advance_of_answer processor _ _ h.pass hstep (fun _ _ h => by cases h)).2
  have hhandings : (course.advance processor).handings = (course.note processor).handings := by
    rw [advance, h.pass, Option.bind_some, hstep]
    exact handings_after ..
  cases houtcome : (processor.act current action course.place).outcome with
  | error error =>
    rw [houtcome] at hpass
    exact .inl hpass
  | ok next =>
    rw [houtcome] at hpass
    obtain ⟨more, hnote, hsucceeded, hrecords⟩ := handings_note h.pass houtcome
    refine .inr ⟨next, more, hpass, ?_, ?_, ?_, ?_⟩
    · rw [hhandings, hnote, h.handings, List.append_assoc]
    · intro handing hmem
      exact (List.mem_append.mp hmem).elim (h.succeeded handing) (hsucceeded handing)
    · rw [← h.split, List.map_append, hrecords, List.append_assoc]
      cases action <;> rfl
    · intro hnone
      cases (h.idle hnone).2

/-- Whatever happens while a pass is at work, it goes on with what it read, or is over. -/
theorem WorkingOn.step (h : WorkingOn reading checkpoint records course current todo done)
    (action : Action) :
    (course.step processor action).pass = none ∨
      ∃ next left finished, WorkingOn reading checkpoint records (course.step processor action) next left
        finished := by
  cases action with
  | write call => exact .inr ⟨current, todo, done, h.pass, h.handings, h.succeeded, h.split, h.idle⟩
  | begin =>
    have hsame : course.step processor .begin = course := by
      show course.begin = course
      rw [Course.begin, h.pass]
    rw [hsame]
    exact .inr ⟨current, todo, done, h⟩
  | abandon => exact .inl rfl
  | advance =>
    cases todo with
    | nil =>
      left
      show (course.advance processor).pass = none
      rw [advance, h.pass]
      rfl
    | cons action rest =>
      rcases h.act with hover | ⟨next, more, hmore⟩
      · exact .inl hover
      · exact .inr ⟨next, rest, done ++ more, hmore⟩

/-- A pass comes to work by its read. -/
theorem read_of_acting (readsOnly : processor.ReadsOnly) {action : Action}
    (before : ∀ current todo, course.pass ≠ some (.acting current todo))
    (acting : (course.step processor action).pass = some (.acting current todo)) :
    action = .advance ∧ ∃ checkpoint records, course.pass = some (.reading checkpoint) ∧
      (processor.readAfter checkpoint.position course.place.store).outcome = .ok records ∧
      WorkingOn course checkpoint records (course.advance processor) current todo [] := by
  cases action with
  | write call => exact absurd acting (before current todo)
  | abandon => cases acting
  | begin =>
    change course.begin.pass = _ at acting
    unfold Course.begin at acting
    split at acting
    · cases acting
    · exact absurd acting (before current todo)
  | advance =>
    refine ⟨rfl, ?_⟩
    change (course.advance processor).pass = _ at acting
    cases hphase : course.pass with
    | none =>
      rw [advance, hphase] at acting
      exact absurd acting (before current todo)
    | some phase =>
      cases phase with
      | acting current todo => exact absurd hphase (before current todo)
      | ended outcome =>
        rw [advance, hphase] at acting
        exact absurd acting (before current todo)
      | loading =>
        have hpass := (advance_of_answer processor (processor.load course.place) .reading hphase rfl
          (fun _ _ h => by cases h)).2
        rw [hpass] at acting
        obtain ⟨loaded, -, hloaded⟩ := Option.map_eq_some_iff.mp acting
        cases hloaded
      | reading checkpoint =>
        have hpass := (advance_of_answer processor (processor.prepare checkpoint course.place)
          (.acting checkpoint) hphase rfl (fun _ _ h => by cases h)).2
        cases hread : (processor.readAfter checkpoint.position course.place.store).outcome with
        | error error =>
          rw [hpass, Processor.prepare, hread] at acting
          cases acting
        | ok records =>
          have hadvance := advance_reading readsOnly hphase hread
          rw [hadvance] at acting ⊢
          cases acting
          refine ⟨_, records, rfl, hread, rfl, (List.append_nil _).symm, List.forall_mem_nil _, ?_, ?_⟩
          · exact plan_handled ..
          · rintro rfl
            exact ⟨rfl, rfl⟩

/-- Every pass at work goes back to a read, and is at work since. -/
theorem working_of_acting (readsOnly : processor.ReadsOnly) (started : Course κ η)
    (fresh : started.pass = none) (actions : List Action)
    (acting : (started.run processor actions).pass = some (.acting current todo)) :
    ∃ earlier later checkpoint records, actions = earlier ++ .advance :: later ∧
      (started.run processor earlier).pass = some (.reading checkpoint) ∧
      (processor.readAfter checkpoint.position (started.run processor earlier).place.store).outcome
        = .ok records ∧
      ∀ begun, begun <+: later → ∃ current todo done,
        WorkingOn (started.run processor earlier) checkpoint records
          (started.run processor (earlier ++ .advance :: begun)) current todo done := by
  induction actions using List.reverseRecOn generalizing current todo with
  | nil =>
    rw [show started.run processor [] = started from rfl, fresh] at acting
    cases acting
  | append_singleton actions action ih =>
    have hlast : started.run processor (actions ++ [action])
        = (started.run processor actions).step processor action := run_append _ _
    rw [hlast] at acting
    by_cases hbefore : ∃ current todo,
        (started.run processor actions).pass = some (.acting current todo)
    · -- the pass was at work already
      obtain ⟨current', todo', hacting⟩ := hbefore
      obtain ⟨earlier, later, checkpoint, records, rfl, hreading, hread, hworking⟩ := ih hacting
      refine ⟨earlier, later ++ [action], checkpoint, records, by simp, hreading, hread, ?_⟩
      intro begun hbegun
      rcases List.prefix_concat_iff.mp hbegun with rfl | hearlier
      · obtain ⟨_, _, _, hnow⟩ := hworking later List.prefix_rfl
        rcases hnow.step action with hover | hnext
        · rw [hover] at acting
          cases acting
        · rw [← List.cons_append, ← List.append_assoc, hlast]
          exact hnext
      · exact hworking begun hearlier
    · -- it comes to work by this step
      obtain ⟨rfl, checkpoint, records, hreading, hread, hworking⟩ :=
        read_of_acting readsOnly (fun current todo h => hbefore ⟨current, todo, h⟩) acting
      refine ⟨actions, [], checkpoint, records, rfl, hreading, hread, ?_⟩
      intro begun hbegun
      rw [List.prefix_nil.mp hbegun, hlast]
      exact ⟨_, _, _, hworking⟩

/-- **What a pass did that returns without a failure**: since its read it handled every record that the
read gave, each once and in order; or the read failed and nothing was handled, because the stream did not
exist, or because an upcaster failed on a record that was to be read and reported some stream as missing.
The handler went from the state that it was in at the read through just the records that were handled. Any
other failure of the read is what the pass returns. -/
theorem handled_unless_not_found (config : ProcessorConfig) (chain : Option UpcastChain)
    (checkpointStore : CheckpointStore κ) (handler : Handler η) (now : Timestamp) (fresh : EventId)
    (before : List Write) (checkpoints : κ) (state : η) :
    let processor := Processor.reading config chain checkpointStore handler now fresh
    let started := start before checkpoints state
    let read := fun (checkpoint : Checkpoint) (store : MemoryStore) =>
      ((reader chain now fresh).read config.stream { ReadOptions.forward with
        position := checkpoint.position, filter := config.filter } store).outcome
    (∀ actions reached, (started.run processor actions).returned processor = some (.ok reached) →
      ∃ earlier later checkpoint handings, actions = earlier ++ .advance :: later ∧
        (started.run processor earlier).pass = some (.reading checkpoint) ∧
        (∀ begun, begun <+: later → ∃ current todo,
          (started.run processor (earlier ++ .advance :: begun)).pass = some (.acting current todo)) ∧
        (started.run processor actions).handings
          = (started.run processor earlier).handings ++ handings ∧
        (∀ handing ∈ handings, handing.succeeded = true) ∧
        handler.work (handings.map (·.record)) (started.run processor earlier).place.handler
          = (handings.map (·.succeeded), (started.run processor actions).place.handler) ∧
        let store := (started.run processor earlier).place.store
        match read checkpoint store with
        | .ok slice => handings.map (·.record) = slice.records
        | .error error => handings = [] ∧ reached = checkpoint ∧
          (config.stream ≠ .global ∧ store.version? config.stream = none ∧
              error = .streamNotFound config.stream ∨
            ∃ failure, ((chain.getD .identity).upcastRecords
                (store.beyond config.stream checkpoint.position)).outcome = .error failure ∧
              failure.isStreamNotFound = true ∧ error = failure.withContext "upcast" config.stream)) ∧
      ∀ actions checkpoint error, (started.run processor actions).pass = some (.reading checkpoint) →
        read checkpoint (started.run processor actions).place.store = .error error →
        error.isStreamNotFound = false →
          (started.run processor actions).returned processor = some (.error error) := by
  intro processor started read
  have readsOnly : processor.ReadsOnly := fun position store =>
    reader_read_state chain now fresh _ _ store
  constructor
  · intro actions reached returned
    have hacting := acting_of_returned returned
    obtain ⟨earlier, later, checkpoint, records, rfl, hreading, hread, hworking⟩ :=
      working_of_acting readsOnly started rfl actions hacting
    obtain ⟨current, todo, done, hnow⟩ := hworking later List.prefix_rfl
    -- nothing is left to do at the end
    cases hnow.pass.symm.trans hacting
    have hdone : done.map (·.record) = records := by
      rw [← hnow.split]
      exact (List.append_nil _).symm
    have hworked := (truthful_run processor before checkpoints state earlier).since
      (truthful_run processor before checkpoints state (earlier ++ .advance :: later)) hnow.handings
    refine ⟨earlier, later, checkpoint, done, rfl, hreading, ?_, hnow.handings, hnow.succeeded, hworked, ?_⟩
    · intro begun hbegun
      obtain ⟨current, todo, _, hthen⟩ := hworking begun hbegun
      exact ⟨current, todo, hthen.pass⟩
    · have houtcome : match read checkpoint (started.run processor earlier).place.store with
          | .ok slice => slice.records = records
          | .error error => error.isStreamNotFound = true ∧ records = [] :=
        Processor.readAfter_ok_iff.mp hread
      dsimp only
      cases hresult : read checkpoint (started.run processor earlier).place.store with
      | ok slice =>
        rw [hresult] at houtcome
        exact hdone.trans houtcome.symm
      | error error =>
        rw [hresult] at houtcome
        obtain ⟨hmissing, rfl⟩ := houtcome
        refine ⟨List.map_eq_nil_iff.mp hdone, (hnow.idle rfl).1, ?_⟩
        rcases read_reader_error_iff.mp hresult with ⟨hunknown, rfl⟩ | ⟨-, failure, hfailure, rfl⟩
        · obtain ⟨hglobal, hversion⟩ := Bool.or_eq_false_iff.mp hunknown
          refine .inl ⟨fun h => ?_, Option.isNone_iff_eq_none.mp (Option.isSome_eq_false_iff.mp hversion), rfl⟩
          rw [StreamId.isGlobal_iff.mpr h] at hglobal
          cases hglobal
        · rw [StoreError.isStreamNotFound_withContext] at hmissing
          exact .inr ⟨failure, hfailure, hmissing, rfl⟩
  · intro actions checkpoint error hreading failed found
    have hprepare : (processor.prepare checkpoint (started.run processor actions).place).outcome
        = .error error := by
      rw [Processor.prepare, Processor.readAfter_error_of found failed]
      rfl
    exact returned_of_error processor hreading rfl hprepare

/-- An upcaster that needs another stream, and does not find it. -/
def searching : UpcastChain :=
  ⟨[{ name := "t", supports := fun draft => draft.typeName = "t",
      upcast := fun _ => .error (.streamNotFound ⟨"b"⟩) }]⟩

/-- A processor that reads through it. -/
def searchingProcessor : Processor MemoryStore CheckpointTable Unit :=
  .reading ⟨"p", ⟨"a"⟩, none, .afterHandling⟩ (some searching) CheckpointTable.store
    (fun _ _ => (.ok (), ())) default default

/-- One record is stored, and a pass has read. -/
def unreported : Course CheckpointTable Unit :=
  (start [.append ⟨"a"⟩ [⟨⟨"1"⟩, "t", .null, .empty⟩] none default] .empty ()).run searchingProcessor
    [.begin, .advance, .advance]

/-- The pass returns without a failure, and the record that is stored was not handled. -/
theorem handled_unless_not_found_sample :
    unreported.returned searchingProcessor = some (.ok (.initial "p" ⟨"a"⟩)) ∧
      (unreported.place.store.readable ⟨"a"⟩).map (·.id) = [⟨"1"⟩] ∧ unreported.handings = [] ∧
      ∃ failure, (searching.upcastRecords (unreported.place.store.beyond ⟨"a"⟩ .start)).outcome
        = .error failure ∧ failure.isStreamNotFound = true := by
  have returned : unreported.returned searchingProcessor = some (.ok (.initial "p" ⟨"a"⟩)) := rfl
  refine ⟨returned, by decide, rfl, ?_⟩
  obtain ⟨earlier, later, checkpoint, handings, hactions, hreading, -, hhandings, -, -, hread⟩ :=
    (handled_unless_not_found ⟨"p", ⟨"a"⟩, none, .afterHandling⟩ (some searching) CheckpointTable.store
      (fun _ _ => (.ok (), ())) default default _ .empty ()).1 _ _ returned
  -- the pass read in the last of its three steps
  rcases earlier with _ | ⟨first, _ | ⟨second, _ | ⟨third, rest⟩⟩⟩
  · cases hactions
  · cases hactions
    cases hreading
  · cases hactions
    cases hreading
    obtain ⟨-, -, ⟨-, hversion, -⟩ | ⟨failure, hfailure, hmissing, -⟩⟩ := hread
    · cases hversion
    · exact ⟨failure, hfailure, hmissing⟩
  · simp at hactions

end Course

end EventJournal
