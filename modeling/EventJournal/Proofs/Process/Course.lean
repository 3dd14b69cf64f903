import EventJournal.Proofs.Process.Groups
import EventJournal.Proofs.Process.WakeUp
import EventJournal.Proofs.Store.Horizon
import EventJournal.Proofs.Upcast.Outputs

/-!
# Passes, one after another

The passes of a processor follow one another, and others write between any two of their steps. A pass
may fail at each step, and it may be abandoned between two. A `Course` is what came of all this so far:
the workplace, the pass under way if there is one, and notes of what was handed over and where a pass
was interrupted.

* `catchUp_returns` and `catchUp_steps` — a whole pass made at once is a pass made step by step.
* `Course.Move` and `step_cases` — everything a step can do to the pass.
* `holds_run_of` — what every move and every permitted write keeps holds at every moment.
* `CheckpointStore.Atomic` — checkpoints of which a failed save leaves what was kept.
-/

namespace EventJournal

/-! ## Checkpoints -/

/-- A store of checkpoints whose failures change nothing in what it keeps. -/
structure CheckpointStore.Atomic {κ : Type} (store : CheckpointStore κ)
    (saved : String → κ → Option Checkpoint) : Prop extends store.Keeps saved where
  load_failed : ∀ {id : String} {state after : κ} {error : StoreError},
    store.load id state = (.error error, after) → saved id after = saved id state
  save_failed : ∀ {id : String} {checkpoint : Checkpoint} {state after : κ} {error : StoreError},
    store.save checkpoint state = (.error error, after) → saved id after = saved id state

theorem CheckpointTable.atomic : CheckpointTable.store.Atomic fun id table => table.load id where
  toKeeps := CheckpointTable.keeps
  load_failed := nofun
  save_failed := nofun

/-- A store that fails now and then changes nothing when it fails. -/
theorem CheckpointStore.Atomic.unreliable {κ : Type} {store : CheckpointStore κ}
    {saved : String → κ → Option Checkpoint} (atomic : store.Atomic saved) :
    store.unreliable.Atomic fun id faulty => saved id faulty.inner where
  toKeeps := atomic.toKeeps.unreliable
  load_failed {id faulty after error} h := by
    simp only [CheckpointStore.unreliable, Faulty.run] at h
    split at h
    · cases h
      rfl
    · obtain ⟨houtcome, rfl⟩ := Prod.mk.inj h
      exact atomic.load_failed (Prod.ext houtcome rfl)
  save_failed {id checkpoint faulty after error} h := by
    simp only [CheckpointStore.unreliable, Faulty.run] at h
    split at h
    · cases h
      rfl
    · obtain ⟨houtcome, rfl⟩ := Prod.mk.inj h
      exact atomic.save_failed (Prod.ext houtcome rfl)

section

variable {κ η : Type} {saved : String → κ → Option Checkpoint}

/-- A processor that, after a position, reads what the stored records beyond it show. -/
structure Processor.Shows (processor : Processor MemoryStore κ η)
    (outputs : Record → List Record) : Prop where
  readsOnly : processor.ReadsOnly
  /-- It may read nothing, when the stream is not found. -/
  read : ∀ {position : Position} {store : MemoryStore} {records : List Record},
    (processor.readAfter position store).outcome = .ok records →
      records = [] ∨ records = (store.beyond processor.config.stream position).flatMap outputs
  /-- What a record shows stands where the record stands. -/
  placed : ∀ {record output : Record}, output ∈ outputs record →
    output.sequence = record.sequence ∧
      output.positionIn processor.config.stream = record.positionIn processor.config.stream

/-- A processor over the store in memory, at a moment, that reads through a chain if there is one. -/
def Processor.reading (config : ProcessorConfig) (chain : Option UpcastChain)
    (checkpoints : CheckpointStore κ) (handler : Handler η) (now : Timestamp) (fresh : EventId) :
    Processor MemoryStore κ η :=
  ⟨config, MemoryStore.reader chain now fresh, checkpoints, handler⟩

theorem Processor.reading_shows (config : ProcessorConfig) {chain : Option UpcastChain}
    (keeps : (chain.getD .identity).KeepsPlace) (checkpoints : CheckpointStore κ)
    (handler : Handler η) (now : Timestamp) (fresh : EventId) :
    (Processor.reading config chain checkpoints handler now fresh).Shows
      ((chain.getD .identity).shown config.filter) where
  readsOnly position store := MemoryStore.reader_read_state chain now fresh _ _ store
  read {position store records} h := by
    unfold readAfter at h
    dsimp only at h
    split at h
    · rename_i slice hread
      cases h
      exact .inr (MemoryStore.read_reader hread)
    · split at h
      · cases h
        exact .inl rfl
      · cases h
  placed h := by
    obtain ⟨hsequence, hposition⟩ := keeps.made (List.mem_of_mem_filter h)
    exact ⟨hsequence, hposition config.stream⟩

/-- Through a chain that only reshapes, a processor always reads what the stored records beyond a position
show; nothing, when the stream does not exist yet. -/
theorem Processor.reading_readAfter (config : ProcessorConfig) {chain : Option UpcastChain}
    (reshapes : (chain.getD .identity).Reshapes) (checkpoints : CheckpointStore κ)
    (handler : Handler η) (now : Timestamp) (fresh : EventId) {store : MemoryStore}
    (sound : store.Sound) (position : Position) :
    ((Processor.reading config chain checkpoints handler now fresh).readAfter position store).outcome
      = .ok ((store.beyond config.stream position).flatMap
          ((chain.getD .identity).shown config.filter)) := by
  simp only [readAfter, Processor.reading]
  cases hknown : config.stream.isGlobal || (store.version? config.stream).isSome with
  | true =>
    obtain ⟨slice, hread⟩ := MemoryStore.reader_of_known reshapes now fresh
      { ReadOptions.forward with position, filter := config.filter } hknown
    rw [hread]
    exact congrArg Except.ok (MemoryStore.read_reader hread)
  | false =>
    rw [MemoryStore.reader_of_missing chain now fresh _ hknown, sound.beyond_of_missing hknown]
    rfl

/-- A checkpoint that cannot be loaded stays as it is. -/
theorem CheckpointStore.Atomic.checkpoint_failed {processor : Processor MemoryStore κ η}
    (atomic : processor.checkpoints.Atomic saved) {checkpoints after : κ} {error : StoreError}
    (h : processor.checkpoint checkpoints = (.error error, after)) :
    saved processor.config.name after = saved processor.config.name checkpoints := by
  unfold Processor.checkpoint at h
  split at h
  · rename_i hload
    obtain ⟨-, rfl⟩ := Prod.mk.inj h
    exact atomic.load_failed hload
  · rename_i loaded after' hload
    obtain ⟨-, rfl⟩ := Prod.mk.inj h
    -- the checkpoint is of another stream, but it was loaded
    obtain ⟨hsaved, hafter⟩ := atomic.load hload
    exact hafter.trans hsaved

end

/-! ## Courses -/

/-- A record that was handed to the handler. -/
structure Handing where
  record : Record
  /-- How many records of its sequence number the pass had handed over before it. -/
  index : Nat
  succeeded : Bool
  deriving DecidableEq

/-- The record that a phase hands over next, with its position. -/
def PassPhase.upcoming : PassPhase → Option (Record × Position)
  | .acting _ (.handle record position :: _) => some (record, position)
  | _ => none

/-- What came of the passes of a processor so far. -/
structure Course (κ η : Type) where
  place : Workplace MemoryStore κ η
  /-- The pass under way. -/
  pass : Option PassPhase
  /-- The records that this pass handed over, in order. -/
  given : List Record
  /-- All that was ever handed over. -/
  handings : List Handing
  /-- The positions in whose group a pass failed or was abandoned. -/
  interrupted : List Position
  /-- All records ever appended to the store. -/
  written : List Record

namespace Course

variable {κ η : Type}

/-- What may happen next. -/
inductive Action where
  | write (call : MemoryStore.Write)
  /-- A pass begins, unless there is one under way. -/
  | begin
  /-- The pass under way makes a step. -/
  | advance
  /-- The pass under way is abandoned. -/
  | abandon
  deriving Inhabited

/-- No pass was made yet; the store was written to before. -/
def start (before : List MemoryStore.Write) (checkpoints : κ) (handler : η) : Course κ η where
  place := ⟨MemoryStore.empty.run before, checkpoints, handler, ⟨0, 0⟩⟩
  pass := none
  given := []
  handings := []
  interrupted := []
  written := MemoryStore.appendedBy before .empty

/-- The record that the pass under way hands over next, with its position. -/
def upcoming (course : Course κ η) : Option (Record × Position) := course.pass.bind (·.upcoming)

/-- The position of the group that the pass under way is handing over. -/
def within (course : Course κ η) : Option Position := course.upcoming.map (·.2)

/-- Notes that a record is handed over. -/
def hand (course : Course κ η) (record : Record) (succeeded : Bool) : Course κ η :=
  { course with
    given := course.given ++ [record],
    handings := course.handings ++ [⟨record, record.indexAfter course.given, succeeded⟩] }

/-- The pass under way ends where it is. -/
def stop (course : Course κ η) : Course κ η :=
  { course with pass := none, interrupted := course.interrupted ++ course.within.toList }

/-- Notes the record that the pass under way hands over in its next step, if it does. -/
def note (processor : Processor MemoryStore κ η) (course : Course κ η) : Course κ η :=
  match course.upcoming with
  | some (record, _) => course.hand record (processor.handler record course.place.handler).1.isOk
  | none => course

/-- The course after a step of the pass under way. -/
def after (course : Course κ η) (view : PassView MemoryStore κ η) : Course κ η :=
  match view.phase with
  | .ended _ => { course.stop with place := view.place }
  | phase => { course with pass := some phase, place := view.place }

/-- A pass begins, unless there is one under way. -/
def begin (course : Course κ η) : Course κ η :=
  match course.pass with
  | none => { course with pass := some .loading, given := [] }
  | some _ => course

/-- The pass under way makes a step. -/
def advance (processor : Processor MemoryStore κ η) (course : Course κ η) : Course κ η :=
  match course.pass.bind fun phase => processor.passStep ⟨phase, course.place⟩ with
  | some (view, _) => (course.note processor).after view
  | none => course

/-- The store is written to. -/
def write (course : Course κ η) (call : MemoryStore.Write) : Course κ η :=
  { course with
    place.store := call.after course.place.store,
    written := course.written ++ call.appended course.place.store }

/-- What the pass under way returns, if it does so in its next step. -/
def returned (processor : Processor MemoryStore κ η) (course : Course κ η) :
    Option (Outcome Checkpoint) :=
  match course.pass.bind fun phase => processor.passStep ⟨phase, course.place⟩ with
  | some (⟨.ended outcome, _⟩, _) => some outcome
  | _ => none

/-- The course after something happened. -/
def step (processor : Processor MemoryStore κ η) (course : Course κ η) : Action → Course κ η
  | .write call => course.write call
  | .begin => course.begin
  | .advance => course.advance processor
  | .abandon => course.stop

/-- The course after a list of happenings. -/
def run (processor : Processor MemoryStore κ η) (course : Course κ η) : List Action → Course κ η
  | [] => course
  | action :: rest => (course.step processor action).run processor rest

/-- What happens spares a stream: it is not deleted, and the store is not cleared. -/
def Action.Spares (stream : StreamId) : Action → Prop
  | .write call => call.Spares stream
  | _ => True

instance (stream : StreamId) (action : Action) : Decidable (action.Spares stream) :=
  match action with
  | .write call => inferInstanceAs (Decidable (call.Spares stream))
  | .begin => inferInstanceAs (Decidable True)
  | .advance => inferInstanceAs (Decidable True)
  | .abandon => inferInstanceAs (Decidable True)

theorem length_written_write (course : Course κ η) (call : MemoryStore.Write) :
    ((course.write call).written.length : Int)
      = course.written.length + (call.appended course.place.store).length := by
  show ((course.written ++ call.appended course.place.store).length : Int) = _
  rw [List.length_append, Int.natCast_add]

/-- As long as sequence numbers do not run out, there is room for what is written, and the store stays
sound. -/
theorem write_sound {course : Course κ η} (sound : course.place.store.Sound)
    (next : course.place.store.nextSequence.toInt ≤ course.written.length + 1)
    (call : MemoryStore.Write)
    (few : ((course.write call).written.length : Int) < Int64.maxValue.toInt) :
    course.place.store.nextSequence.toInt + (call.appended course.place.store).length
        ≤ Int64.maxValue.toInt ∧
      (course.write call).place.store.Sound ∧
      (course.write call).place.store.nextSequence.toInt ≤ (course.write call).written.length + 1 := by
  have hlength := course.length_written_write call
  have room : course.place.store.nextSequence.toInt + (call.appended course.place.store).length
      ≤ Int64.maxValue.toInt := by omega
  have hle := sound.nextSequence_after_le call room
  refine ⟨room, sound.after call room, ?_⟩
  rw [hlength]
  show (call.after course.place.store).nextSequence.toInt ≤ _
  omega

/-! ## Whole passes -/

section

variable {processor : Processor MemoryStore κ η} {course : Course κ η}

theorem run_append (earlier later : List Action) :
    course.run processor (earlier ++ later) = (course.run processor earlier).run processor later := by
  induction earlier generalizing course with
  | nil => rfl
  | cons action rest ih => exact ih

theorem place_after (course : Course κ η) (view : PassView MemoryStore κ η) :
    (course.after view).place = view.place := by
  unfold after
  split <;> rfl

theorem handings_after (course : Course κ η) (view : PassView MemoryStore κ η) :
    (course.after view).handings = course.handings := by
  unfold after
  split <;> rfl

/-- A step takes the pass to its next phase, or ends it when the step fails. -/
theorem advance_of_answer (processor : Processor MemoryStore κ η) {course : Course κ η} {α : Type}
    {phase : PassPhase} (answer : Answer (Workplace MemoryStore κ η) α) (next : α → PassPhase)
    (hphase : course.pass = some phase)
    (h : processor.passStep ⟨phase, course.place⟩ = some (Processor.passAfter answer next))
    (goesOn : ∀ value outcome, next value ≠ .ended outcome) :
    (course.advance processor).place = answer.state ∧
      (course.advance processor).pass = answer.outcome.toOption.map next := by
  have hadvance : course.advance processor
      = (course.note processor).after (Processor.passAfter answer next).1 := by
    rw [advance, hphase, Option.bind_some, h]
  constructor
  · rw [hadvance, place_after]
    rfl
  · rw [hadvance]
    unfold after Processor.passAfter
    cases answer.outcome with
    | error error => rfl
    | ok value =>
      dsimp only
      split
      · rename_i outcome houtcome
        exact absurd houtcome (goesOn value outcome)
      · rfl

/-- A step that fails is the last of its pass, and the failure is what the pass returns. -/
theorem returned_of_error (processor : Processor MemoryStore κ η) {course : Course κ η} {α : Type}
    {phase : PassPhase} {answer : Answer (Workplace MemoryStore κ η) α} {next : α → PassPhase}
    {error : StoreError} (hphase : course.pass = some phase)
    (h : processor.passStep ⟨phase, course.place⟩ = some (Processor.passAfter answer next))
    (failed : answer.outcome = .error error) :
    course.returned processor = some (.error error) := by
  rw [returned, hphase, Option.bind_some, h]
  unfold Processor.passAfter
  rw [failed]

/-- A pass that returns is over. -/
theorem pass_of_returned {outcome : Outcome Checkpoint}
    (h : course.returned processor = some outcome) : (course.advance processor).pass = none := by
  unfold returned at h
  split at h
  · rename_i hstep
    rw [advance, hstep]
    rfl
  · cases h

/-- The rest of a pass made at once is the rest of it made step by step. -/
theorem actAll_returns {checkpoint : Checkpoint} {actions : List PassAction}
    (hphase : course.pass = some (.acting checkpoint actions)) :
    ∃ count, (course.run processor (.replicate count .advance)).returned processor
        = some (processor.actAll actions checkpoint course.place).outcome ∧
      ((course.run processor (.replicate count .advance)).advance processor).place
        = (processor.actAll actions checkpoint course.place).state := by
  induction actions generalizing course checkpoint with
  | nil =>
    refine ⟨0, ?_, ?_⟩
    · show course.returned processor = _
      rw [returned, hphase]
      rfl
    · show (course.advance processor).place = course.place
      rw [advance, hphase]
      exact place_after ..
  | cons action rest ih =>
    have hstep : processor.passStep ⟨.acting checkpoint (action :: rest), course.place⟩
        = some (Processor.passAfter (processor.act checkpoint action course.place) (.acting · rest)) := rfl
    obtain ⟨hplace, hpass⟩ := advance_of_answer processor _ _ hphase hstep (fun _ _ h => by cases h)
    rw [Processor.actAll, Answer.andThen]
    cases houtcome : (processor.act checkpoint action course.place).outcome with
    | error error => exact ⟨0, returned_of_error processor hphase hstep houtcome, hplace⟩
    | ok next =>
      rw [houtcome] at hpass
      obtain ⟨count, hreturned, hreached⟩ := ih hpass
      rw [hplace] at hreturned hreached
      exact ⟨count + 1, hreturned, hreached⟩

/-- A pass made at once returns what it returns when it is made step by step with nothing in between, and
leaves the same behind. -/
theorem catchUp_returns (fresh : course.pass = none) :
    ∃ count, (course.run processor (.begin :: .replicate count .advance)).returned processor
        = some (processor.catchUp course.place).outcome ∧
      ((course.run processor (.begin :: .replicate count .advance)).advance processor).place
        = (processor.catchUp course.place).state := by
  have hbegin : course.begin = { course with pass := some .loading, given := [] } := by
    rw [begin, fresh]
  have hloading : course.begin.pass = some .loading := by rw [hbegin]
  have hstep : processor.passStep ⟨.loading, course.begin.place⟩
      = some (Processor.passAfter (processor.load course.place) .reading) := by
    rw [hbegin]
    rfl
  obtain ⟨hplace, hpass⟩ := advance_of_answer processor _ _ hloading hstep (fun _ _ h => by cases h)
  rw [Processor.catchUp, Answer.andThen]
  cases hload : (processor.load course.place).outcome with
  | error error => exact ⟨0, returned_of_error processor hloading hstep hload, hplace⟩
  | ok checkpoint =>
    rw [hload] at hpass
    generalize hloaded : course.begin.advance processor = loaded at hplace hpass
    have hstep' : processor.passStep ⟨.reading checkpoint, loaded.place⟩ = some (Processor.passAfter
        (processor.prepare checkpoint (processor.load course.place).state) (.acting checkpoint)) := by
      rw [hplace]
      rfl
    obtain ⟨hplace', hpass'⟩ := advance_of_answer processor _ _ hpass hstep' (fun _ _ h => by cases h)
    dsimp only
    rw [Answer.andThen]
    cases hprepare : (processor.prepare checkpoint (processor.load course.place).state).outcome with
    | error error =>
      have hreturned := returned_of_error processor hpass hstep' hprepare
      rw [← hloaded] at hreturned hplace'
      exact ⟨1, hreturned, hplace'⟩
    | ok actions =>
      rw [hprepare] at hpass'
      obtain ⟨count, hreturned, hreached⟩ := actAll_returns hpass'
      rw [hplace'] at hreturned hreached
      rw [← hloaded] at hreturned hreached
      exact ⟨count + 2, hreturned, hreached⟩

/-- A pass made at once is a pass made step by step. -/
theorem catchUp_steps (fresh : course.pass = none) :
    ∃ count, (course.run processor (.begin :: .replicate count .advance)).pass = none ∧
      (course.run processor (.begin :: .replicate count .advance)).place
        = (processor.catchUp course.place).state := by
  obtain ⟨count, hreturned, hreached⟩ := @catchUp_returns _ _ processor course fresh
  have hlast : course.run processor (.begin :: .replicate (count + 1) .advance)
      = (course.run processor (.begin :: .replicate count .advance)).advance processor := by
    rw [List.replicate_succ', ← List.cons_append, run_append]
    rfl
  exact ⟨count + 1, hlast ▸ pass_of_returned hreturned, hlast ▸ hreached⟩

end

/-! ## What a step can do -/

/-- The moves of a course, writes apart: those of the pass, and its end. -/
inductive Move (processor : Processor MemoryStore κ η) (saved : String → κ → Option Checkpoint)
    (course : Course κ η) : Course κ η → Prop where
  | idle : Move processor saved course course
  | begun (fresh : course.pass = none) :
      Move processor saved course { course with pass := some .loading, given := [] }
  /-- The checkpoint is loaded. -/
  | loaded {checkpoint : Checkpoint} {checkpoints : κ} (phase : course.pass = some .loading)
      (loaded : processor.checkpoint course.place.checkpoints = (.ok checkpoint, checkpoints)) :
      Move processor saved course
        { course with pass := some (.reading checkpoint), place.checkpoints := checkpoints }
  /-- The records after the checkpoint are read. -/
  | planned {checkpoint : Checkpoint} {records : List Record}
      (phase : course.pass = some (.reading checkpoint))
      (read : (processor.readAfter checkpoint.position course.place.store).outcome = .ok records) :
      Move processor saved course
        { course with
          pass := some (.acting checkpoint
            (PassAction.plan processor.config.strategy processor.config.stream records)) }
  /-- A record is handled, and counted. -/
  | handled {checkpoint : Checkpoint} {record : Record} {position : Position}
      {rest : List PassAction} {handler : η}
      (phase : course.pass = some (.acting checkpoint (.handle record position :: rest)))
      (answer : processor.handler record course.place.handler = (.ok (), handler)) :
      Move processor saved course
        { course.hand record true with
          pass := some (.acting checkpoint rest),
          place.handler := handler,
          place.stats.processed := course.place.stats.processed + 1 }
  /-- The handler fails, and the pass with it. -/
  | failed {checkpoint : Checkpoint} {record : Record} {position : Position}
      {rest : List PassAction} {handler : η} {reasons : List String}
      (phase : course.pass = some (.acting checkpoint (.handle record position :: rest)))
      (answer : processor.handler record course.place.handler = (.error reasons, handler)) :
      Move processor saved course
        { (course.hand record false).stop with
          place.handler := handler,
          place.stats.failed := course.place.stats.failed + 1 }
  /-- A position is committed. -/
  | committed {checkpoint : Checkpoint} {position : Position} {rest : List PassAction}
      {checkpoints : κ} (phase : course.pass = some (.acting checkpoint (.commit position :: rest)))
      (save : processor.checkpoints.save { checkpoint with position } course.place.checkpoints
        = (.ok (), checkpoints)) :
      Move processor saved course
        { course with
          pass := some (.acting { checkpoint with position } rest),
          place.checkpoints := checkpoints }
  /-- The pass ends, well or not, or is abandoned; what is kept stays. -/
  | stopped {checkpoints : κ} (kept : saved processor.config.name checkpoints
        = saved processor.config.name course.place.checkpoints) :
      Move processor saved course { course.stop with place.checkpoints := checkpoints }

section

variable {processor : Processor MemoryStore κ η} {saved : String → κ → Option Checkpoint}
  {course : Course κ η}

theorem note_of_upcoming_none (h : course.upcoming = none) : course.note processor = course := by
  rw [note, h]

/-- A pass that ends in a step which hands nothing over just stops. -/
theorem Move.of_ended {view : PassView MemoryStore κ η} {outcome : Outcome Checkpoint}
    (quiet : course.upcoming = none) (phase : view.phase = .ended outcome)
    (place : view.place = { course.place with checkpoints := view.place.checkpoints })
    (kept : saved processor.config.name view.place.checkpoints
      = saved processor.config.name course.place.checkpoints) :
    Move processor saved course ((course.note processor).after view) := by
  have hafter : (course.note processor).after view
      = { course.stop with place.checkpoints := view.place.checkpoints } := by
    rw [note_of_upcoming_none quiet, after, phase, place]
    rfl
  rw [hafter]
  exact .stopped kept

theorem pass_cases (readsOnly : processor.ReadsOnly) (atomic : processor.checkpoints.Atomic saved)
    {phase : PassPhase} (hphase : course.pass = some phase) {view : PassView MemoryStore κ η}
    {samples : MetricLog} (h : processor.passStep ⟨phase, course.place⟩ = some (view, samples)) :
    Move processor saved course ((course.note processor).after view) := by
  have hupcoming : course.upcoming = phase.upcoming := by rw [upcoming, hphase, Option.bind_some]
  cases phase with
  | loading =>
    have hquiet : course.upcoming = none := hupcoming
    simp only [Processor.passStep, Processor.passAfter, Processor.load] at h
    cases hload : processor.checkpoint course.place.checkpoints with
    | mk outcome checkpoints =>
      rw [hload] at h
      cases h
      cases outcome with
      | error error =>
        exact .of_ended hquiet rfl rfl (atomic.checkpoint_failed hload)
      | ok checkpoint =>
        rw [note_of_upcoming_none hquiet]
        exact .loaded hphase hload
  | reading checkpoint =>
    have hquiet : course.upcoming = none := hupcoming
    have hstate := readsOnly checkpoint.position course.place.store
    simp only [Processor.passStep, Processor.passAfter, Processor.prepare, hstate] at h
    cases hread : (processor.readAfter checkpoint.position course.place.store).outcome with
    | error error =>
      rw [hread] at h
      cases h
      exact .of_ended hquiet rfl rfl rfl
    | ok records =>
      rw [hread] at h
      cases h
      rw [note_of_upcoming_none hquiet]
      exact .planned hphase hread
  | acting checkpoint actions =>
    cases actions with
    | nil =>
      cases h
      exact .of_ended hupcoming rfl rfl rfl
    | cons action rest =>
      cases action with
      | handle record position =>
        simp only [Processor.passStep, Processor.passAfter, Processor.act, Processor.handle] at h
        cases hhandler : processor.handler record course.place.handler with
        | mk result handler =>
          rw [hhandler] at h
          -- what the handler answers is noted, and decides where the pass goes
          have hnote : course.note processor = course.hand record result.isOk := by
            rw [note, hupcoming]
            show course.hand record (processor.handler record course.place.handler).1.isOk = _
            rw [hhandler]
          cases result with
          | error reasons =>
            cases h
            rw [hnote]
            exact .failed hphase hhandler
          | ok done =>
            cases h
            rw [hnote]
            exact .handled hphase hhandler
      | commit position =>
        have hquiet : course.upcoming = none := hupcoming
        simp only [Processor.passStep, Processor.passAfter, Processor.act, Processor.commit] at h
        cases hsave : processor.checkpoints.save { checkpoint with position }
            course.place.checkpoints with
        | mk result checkpoints =>
          rw [hsave] at h
          cases result with
          | error error =>
            cases h
            exact .of_ended hquiet rfl rfl (atomic.save_failed hsave)
          | ok done =>
            cases h
            rw [note_of_upcoming_none hquiet]
            exact .committed hphase hsave
  | ended outcome => cases h

/-- A step of the pass under way is a move. -/
theorem advance_cases (readsOnly : processor.ReadsOnly)
    (atomic : processor.checkpoints.Atomic saved) :
    Move processor saved course (course.advance processor) := by
  unfold advance
  split
  · rename_i view samples hstep
    obtain ⟨phase, hphase, hstep⟩ := Option.bind_eq_some_iff.mp hstep
    exact pass_cases readsOnly atomic hphase hstep
  · exact .idle

theorem begin_cases : Move processor saved course course.begin := by
  unfold begin
  split
  · rename_i hpass
    exact .begun hpass
  · exact .idle

theorem Move.written_eq {course' : Course κ η} (move : Move processor saved course course') :
    course'.written = course.written := by
  cases move <;> rfl

/-- What happens is a write or a move. -/
theorem step_cases (readsOnly : processor.ReadsOnly) (atomic : processor.checkpoints.Atomic saved)
    (action : Action) :
    (∃ call, action = .write call) ∨ Move processor saved course (course.step processor action) := by
  cases action with
  | write call => exact .inl ⟨call, rfl⟩
  | begin => exact .inr begin_cases
  | advance => exact .inr (advance_cases readsOnly atomic)
  | abandon => exact .inr (.stopped rfl)

/-- Nothing that was written is forgotten. -/
theorem length_written_le (readsOnly : processor.ReadsOnly)
    (atomic : processor.checkpoints.Atomic saved) (actions : List Action) :
    course.written.length ≤ (course.run processor actions).written.length := by
  induction actions generalizing course with
  | nil => exact Nat.le_refl _
  | cons action rest ih =>
    have hstep : course.written.length ≤ (course.step processor action).written.length := by
      rcases step_cases readsOnly atomic action with ⟨call, rfl⟩ | move
      · exact (List.sublist_append_left _ _).length_le
      · rw [move.written_eq]
    exact Nat.le_trans hstep ih

/-- So what bounds all that was written in the end bounds it before. -/
theorem few_before (readsOnly : processor.ReadsOnly) (atomic : processor.checkpoints.Atomic saved)
    {actions : List Action} {bound : Int}
    (few : ((course.run processor actions).written.length : Int) < bound) :
    (course.written.length : Int) < bound :=
  Int.lt_of_le_of_lt (Int.ofNat_le.mpr (length_written_le readsOnly atomic actions)) few

theorem Move.store_eq {course' : Course κ η} (move : Move processor saved course course') :
    course'.place.store = course.place.store := by
  cases move <;> rfl

/-- The write that an action makes. -/
def Action.call? : Action → Option MemoryStore.Write
  | .write call => some call
  | _ => none

/-- The passes of a processor leave no mark on the store. -/
theorem run_writes (readsOnly : processor.ReadsOnly) (atomic : processor.checkpoints.Atomic saved)
    (course : Course κ η) (actions : List Action) :
    (course.run processor actions).place.store
        = course.place.store.run (actions.filterMap Action.call?) ∧
      (course.run processor actions).written
        = course.written ++ MemoryStore.appendedBy (actions.filterMap Action.call?)
            course.place.store := by
  induction actions generalizing course with
  | nil => exact ⟨rfl, (List.append_nil _).symm⟩
  | cons action rest ih =>
    obtain ⟨hstore, hwritten⟩ := ih (course.step processor action)
    -- a move writes nothing
    have of_move : Move processor saved course (course.step processor action) →
        ((course.step processor action).run processor rest).place.store
            = course.place.store.run (rest.filterMap Action.call?) ∧
          ((course.step processor action).run processor rest).written
            = course.written ++ MemoryStore.appendedBy (rest.filterMap Action.call?)
                course.place.store := by
      intro move
      rw [move.store_eq] at hstore hwritten
      rw [move.written_eq] at hwritten
      exact ⟨hstore, hwritten⟩
    cases action with
    | write call => exact ⟨hstore, hwritten.trans (List.append_assoc _ _ _)⟩
    | begin => exact of_move begin_cases
    | advance => exact of_move (advance_cases readsOnly atomic)
    | abandon => exact of_move (.stopped rfl)

/-- What was handed over stays so. -/
theorem Move.handings_prefix {course' : Course κ η} (move : Move processor saved course course') :
    course.handings <+: course'.handings := by
  cases move with
  | handled phase answer => exact List.prefix_append _ _
  | failed phase answer => exact List.prefix_append _ _
  | _ => exact List.prefix_rfl

theorem handings_prefix_run (readsOnly : processor.ReadsOnly)
    (atomic : processor.checkpoints.Atomic saved) (actions : List Action) :
    course.handings <+: (course.run processor actions).handings := by
  induction actions generalizing course with
  | nil => exact List.prefix_rfl
  | cons action rest ih =>
    have hstep : course.handings <+: (course.step processor action).handings := by
      rcases step_cases readsOnly atomic action with ⟨call, rfl⟩ | move
      · exact List.prefix_rfl
      · exact move.handings_prefix
    exact hstep.trans ih

/-- What every move keeps, and every permitted write as long as the sequence numbers do not run out, holds
at every moment. -/
theorem holds_run_of (Holds : Course κ η → Prop) (Permits : Action → Prop)
    (readsOnly : processor.ReadsOnly) (atomic : processor.checkpoints.Atomic saved)
    (holds_move : ∀ {course course' : Course κ η}, Holds course →
      Move processor saved course course' → Holds course')
    (holds_write : ∀ {course : Course κ η} {call : MemoryStore.Write}, Holds course →
      Permits (.write call) → ((course.write call).written.length : Int) < Int64.maxValue.toInt →
        Holds (course.write call))
    (holds : Holds course) (actions : List Action) (permitted : ∀ action ∈ actions, Permits action)
    (few : ((course.run processor actions).written.length : Int) < Int64.maxValue.toInt) :
    Holds (course.run processor actions) := by
  induction actions generalizing course with
  | nil => exact holds
  | cons action rest ih =>
    have hrest : ∀ other ∈ rest, Permits other :=
      fun other hother => permitted other (List.mem_cons_of_mem _ hother)
    refine ih ?_ hrest few
    rcases step_cases readsOnly atomic action with ⟨call, rfl⟩ | move
    · have fewWritten : ((course.write call).written.length : Int) < Int64.maxValue.toInt :=
        few_before readsOnly atomic few
      exact holds_write holds (permitted _ List.mem_cons_self) fewWritten
    · exact holds_move holds move

/-- So it is when the writes that spare a stream are permitted. -/
theorem holds_run {Holds : Course κ η → Prop} (readsOnly : processor.ReadsOnly)
    (atomic : processor.checkpoints.Atomic saved) {stream : StreamId}
    (holds_move : ∀ {course course' : Course κ η}, Holds course →
      Move processor saved course course' → Holds course')
    (holds_write : ∀ {course : Course κ η} {call : MemoryStore.Write}, Holds course →
      call.Spares stream → ((course.write call).written.length : Int) < Int64.maxValue.toInt →
        Holds (course.write call))
    (holds : Holds course) (actions : List Action) (spares : ∀ action ∈ actions, action.Spares stream)
    (few : ((course.run processor actions).written.length : Int) < Int64.maxValue.toInt) :
    Holds (course.run processor actions) :=
  holds_run_of Holds (Action.Spares stream) readsOnly atomic holds_move holds_write holds actions spares
    few

end

end Course

end EventJournal
