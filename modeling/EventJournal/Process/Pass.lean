import EventJournal.Process.Processor

/-!
# Passes

A pass loads the checkpoint, reads the records after it and works through them. Records at one
position, such as the parts of a split, are committed together: before the first of them is handled or
after the last.

A pass is a machine of small steps. `Processor.passStep` makes one, and others may act between two;
`Processor.catchUp` makes a whole pass at once. The first failure ends a pass.

Main statements: `plan_handled`, a pass hands over the records it read, each once and in order;
`passStep_eq_none_iff`, a pass goes on until it ended.
-/

namespace EventJournal

/-- One thing a pass does with the records it read. -/
inductive PassAction where
  | handle (record : Record) (position : Position)
  | commit (position : Position)
  deriving Repr, DecidableEq, Inhabited

namespace PassAction

/-- What to do with records, given the position of the record before them. -/
def planFrom (strategy : CommitStrategy) (stream : StreamId) (previous : Option Position) :
    List Record → List PassAction
  | [] => []
  | record :: rest =>
    let position := record.positionIn stream
    let opens : Bool := previous ≠ some position
    let closes : Bool := rest.head?.map (·.positionIn stream) ≠ some position
    let actions := match strategy with
      | .beforeHandling => (if opens then [commit position] else []) ++ [handle record position]
      | .afterHandling => handle record position :: (if closes then [commit position] else [])
    actions ++ planFrom strategy stream (some position) rest

/-- What to do with the records of a pass. -/
def plan (strategy : CommitStrategy) (stream : StreamId) (records : List Record) : List PassAction :=
  planFrom strategy stream none records

/-- The record an action hands over. -/
def record? : PassAction → Option Record
  | handle record _ => some record
  | commit _ => none

theorem planFrom_handled (strategy : CommitStrategy) (stream : StreamId)
    (previous : Option Position) (records : List Record) :
    (planFrom strategy stream previous records).filterMap record? = records := by
  induction records generalizing previous with
  | nil => rfl
  | cons record rest ih =>
    simp only [planFrom, List.filterMap_append, ih]
    cases strategy
    · by_cases h : previous = some (record.positionIn stream) <;>
        simp [h, record?, List.filterMap_cons]
    · by_cases h : rest.head?.map (·.positionIn stream) = some (record.positionIn stream) <;>
        simp [h, record?, List.filterMap_cons]

theorem plan_handled (strategy : CommitStrategy) (stream : StreamId) (records : List Record) :
    (plan strategy stream records).filterMap record? = records :=
  planFrom_handled strategy stream none records

end PassAction

/-- What a pass is about to do. -/
inductive PassPhase where
  /-- Load the checkpoint. -/
  | loading
  /-- Read the records after the checkpoint. -/
  | reading (checkpoint : Checkpoint)
  /-- Work through what is left to do. -/
  | acting (checkpoint : Checkpoint) (actions : List PassAction)
  | ended (outcome : Outcome Checkpoint)
  deriving Inhabited

/-- A pass and what it works on. -/
structure PassView (σ κ η : Type) where
  phase : PassPhase
  place : Workplace σ κ η

namespace Processor

variable {σ κ η : Type}

/-- Does one thing; gives the checkpoint after it. -/
def act (processor : Processor σ κ η) (checkpoint : Checkpoint) (action : PassAction)
    (place : Workplace σ κ η) : Answer (Workplace σ κ η) Checkpoint :=
  match action with
  | .handle record position => (processor.handle record position place).map fun _ => checkpoint
  | .commit position => processor.commit checkpoint position place

/-- Loads the checkpoint. -/
def load (processor : Processor σ κ η) (place : Workplace σ κ η) :
    Answer (Workplace σ κ η) Checkpoint :=
  let (outcome, checkpoints) := processor.checkpoint place.checkpoints
  ⟨outcome, { place with checkpoints }, []⟩

/-- Reads the records after a checkpoint and plans what to do with them. -/
def prepare (processor : Processor σ κ η) (checkpoint : Checkpoint) (place : Workplace σ κ η) :
    Answer (Workplace σ κ η) (List PassAction) :=
  let answer := processor.readAfter checkpoint.position place.store
  ⟨answer.outcome.map (PassAction.plan processor.config.strategy processor.config.stream),
    { place with store := answer.state }, answer.samples⟩

/-- The pass after an answer: on to the next phase, or ended by a failure. -/
def passAfter (answer : Answer (Workplace σ κ η) α) (next : α → PassPhase) :
    PassView σ κ η × MetricLog :=
  (⟨match answer.outcome with
    | .ok value => next value
    | .error error => .ended (.error error), answer.state⟩, answer.samples)

/-- One step of a pass; nothing when it ended. -/
def passStep (processor : Processor σ κ η) (view : PassView σ κ η) :
    Option (PassView σ κ η × MetricLog) :=
  match view.phase with
  | .loading => some (passAfter (processor.load view.place) .reading)
  | .reading checkpoint =>
    some (passAfter (processor.prepare checkpoint view.place) (.acting checkpoint))
  | .acting checkpoint [] => some (⟨.ended (.ok checkpoint), view.place⟩, [])
  | .acting checkpoint (action :: rest) =>
    some (passAfter (processor.act checkpoint action view.place) (.acting · rest))
  | .ended _ => none

theorem passStep_eq_none_iff (processor : Processor σ κ η) (view : PassView σ κ η) :
    processor.passStep view = none ↔ ∃ outcome, view.phase = .ended outcome := by
  obtain ⟨phase, place⟩ := view
  match phase with
  | .loading | .reading _ | .acting _ [] | .acting _ (_ :: _) => simp [passStep]
  | .ended outcome => simp [passStep]

/-- Works through a list of actions. -/
def actAll (processor : Processor σ κ η) :
    List PassAction → Checkpoint → Workplace σ κ η → Answer (Workplace σ κ η) Checkpoint
  | [], checkpoint, place => .unchanged place checkpoint
  | action :: rest, checkpoint, place =>
    (processor.act checkpoint action place).andThen (processor.actAll rest)

/-- A whole pass; gives the checkpoint reached. -/
def catchUp (processor : Processor σ κ η) (place : Workplace σ κ η) :
    Answer (Workplace σ κ η) Checkpoint :=
  (processor.load place).andThen fun checkpoint place =>
    (processor.prepare checkpoint place).andThen fun actions place =>
      processor.actAll actions checkpoint place

end Processor

end EventJournal
