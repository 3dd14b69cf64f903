import EventJournal.Process.Checkpoint
import EventJournal.Process.Handler
import EventJournal.Store.Basic

/-!
# Processors

A processor runs a handler over the records of a stream and keeps a checkpoint under its own name. It
commits a position before or after the handler saw the records there.

A processor itself is fixed: its configuration and the operations it uses. What changes is its
`Workplace`: the states of the store, of the checkpoints and of the handler, which it may share with
others, and its own counts.
-/

namespace EventJournal

/-- When a position is committed. -/
inductive CommitStrategy where
  /-- Before the handler; records of a failed handler are not handled again. -/
  | beforeHandling
  /-- After the handler; records of a failed handler are handled again. -/
  | afterHandling
  deriving Repr, DecidableEq, Inhabited

namespace CommitStrategy

/-- The name of a strategy. -/
def name : CommitStrategy → String
  | beforeHandling => "before_handling"
  | afterHandling => "after_handling"

/-- The strategies by name. -/
def known : List (String × CommitStrategy) :=
  [("before_handling", beforeHandling), ("after_handling", afterHandling)]

/-- Reads a strategy by its name. -/
def ofJson : Json.Decoder CommitStrategy := Json.Decoder.variant known

end CommitStrategy

/-- What a processor is to do. -/
structure ProcessorConfig where
  /-- The name of the processor and of its checkpoint. -/
  name : String
  stream : StreamId
  filter : Option TypeFilter
  strategy : CommitStrategy
  deriving Repr, DecidableEq, Inhabited

/-- What a processor did so far. -/
structure ProcessorStats where
  /-- Records handled. -/
  processed : Nat
  /-- Failures of the handler. -/
  failed : Nat
  deriving Repr, DecidableEq, Inhabited

/-- A processor over a store of state `σ`, checkpoints of state `κ` and a handler of state `η`. -/
structure Processor (σ κ η : Type) where
  config : ProcessorConfig
  store : Store σ
  checkpoints : CheckpointStore κ
  handler : Handler η

/-- What a processor works on. -/
structure Workplace (σ κ η : Type) where
  store : σ
  checkpoints : κ
  handler : η
  stats : ProcessorStats

namespace Processor

variable {σ κ η : Type}

/-- Wraps a failure of the checkpoints. -/
def checkpointError (processor : Processor σ κ η) (error : StoreError) : StoreError :=
  .checkpoint processor.config.name error

/-- The failure of a checkpoint that belongs to another stream. -/
def mismatch (processor : Processor σ κ η) (checkpoint : Checkpoint) : StoreError :=
  .configuration ("checkpoint " ++ checkpoint.id ++ " belongs to stream " ++
    checkpoint.stream.name ++ ", processor is configured for " ++ processor.config.stream.name)

/-- The checkpoint that a loaded one stands for: it must be of the processor's stream, and without
one the processor is at the start. -/
def accept (processor : Processor σ κ η) : Option Checkpoint → Outcome Checkpoint
  | none => .ok (.initial processor.config.name processor.config.stream)
  | some checkpoint =>
    if checkpoint.stream = processor.config.stream then .ok checkpoint
    else .error (processor.mismatch checkpoint)

/-- The checkpoint of the processor. -/
def checkpoint (processor : Processor σ κ η) (checkpoints : κ) : Outcome Checkpoint × κ :=
  match processor.checkpoints.load processor.config.name checkpoints with
  | (.error error, checkpoints) => (.error (processor.checkpointError error), checkpoints)
  | (.ok loaded, checkpoints) => (processor.accept loaded, checkpoints)

/-- Removes the checkpoint, so that the next pass begins at the start. -/
def reset (processor : Processor σ κ η) (checkpoints : κ) : Answer κ Unit :=
  match processor.checkpoints.delete processor.config.name checkpoints with
  | (.error error, checkpoints) => .refused checkpoints (processor.checkpointError error)
  | (.ok (), checkpoints) =>
    ⟨.ok (), checkpoints, [Sample.checkpointPosition processor.config.name .start]⟩

/-- The records after a position; a stream that does not exist yet has none. -/
def readAfter (processor : Processor σ κ η) (position : Position) (store : σ) :
    Answer σ (List Record) :=
  let options : ReadOptions :=
    { ReadOptions.forward with position, filter := processor.config.filter }
  let answer := processor.store.read processor.config.stream options store
  let records : Outcome (List Record) := match answer.outcome with
    | .ok slice => .ok slice.records
    | .error error => if error.isStreamNotFound then .ok [] else .error error
  { answer with outcome := records }

/-- Hands a record to the handler and counts what became of it. -/
def handle (processor : Processor σ κ η) (record : Record) (position : Position)
    (place : Workplace σ κ η) : Answer (Workplace σ κ η) Unit :=
  match processor.handler record place.handler with
  | (.ok (), handler) =>
    let stats := { place.stats with processed := place.stats.processed + 1 }
    ⟨.ok (), { place with handler, stats }, [Sample.processed processor.config.name]⟩
  | (.error reasons, handler) =>
    let stats := { place.stats with failed := place.stats.failed + 1 }
    let error := StoreError.handler processor.config.name position reasons
    ⟨.error error, { place with handler, stats },
      [Sample.processorFailure processor.config.name, .failure error.code]⟩

/-- Saves a position as the processor's checkpoint. -/
def commit (processor : Processor σ κ η) (checkpoint : Checkpoint) (position : Position)
    (place : Workplace σ κ η) : Answer (Workplace σ κ η) Checkpoint :=
  let next := { checkpoint with position }
  match processor.checkpoints.save next place.checkpoints with
  | (.ok (), checkpoints) =>
    ⟨.ok next, { place with checkpoints },
      [Sample.checkpointPosition processor.config.name position]⟩
  | (.error error, checkpoints) =>
    ⟨.error (processor.checkpointError error), { place with checkpoints }, []⟩

end Processor

end EventJournal
