import EventJournal.Event.Codec
import EventJournal.Fault

/-!
# Checkpoints

A checkpoint says how far a named processor got in its stream. A `CheckpointStore κ` is the record of
the operations of whatever keeps checkpoints, over its state `κ`; the table in memory is one such
store, with one checkpoint a name.

Main statements: `CheckpointTable.load_save_self` and `CheckpointTable.load_save_of_ne`, saving sets one
name's checkpoint and leaves the others.
-/

namespace EventJournal

/-- How far a processor got. -/
structure Checkpoint where
  /-- The name of the processor. -/
  id : String
  stream : StreamId
  position : Position
  deriving Repr, DecidableEq, Inhabited

namespace Checkpoint

/-- A checkpoint before the first event. -/
def initial (id : String) (stream : StreamId) : Checkpoint := ⟨id, stream, .start⟩

/-- A checkpoint as JSON. -/
def toJson (checkpoint : Checkpoint) : Json :=
  .obj [("id", .str checkpoint.id), ("position", Json.ofInt64 checkpoint.position.value),
    ("stream_id", .str checkpoint.stream.name)]

/-- The fields of a checkpoint. -/
def shape : Json.Shape :=
  ⟨"Checkpoint", [.required "id" Json.Decoder.string, .required "stream_id" StreamId.ofJson,
    .required "position" Position.ofJson]⟩

/-- Reads a checkpoint. -/
def ofJson : Json.Decoder Checkpoint := fun value => do
  let members ← shape.members value
  let id ← Json.field members "id" Json.Decoder.string
  let stream ← Json.field members "stream_id" StreamId.ofJson
  let position ← Json.field members "position" Position.ofJson
  pure { id, stream, position }

end Checkpoint

/-- The operations of a store of checkpoints of state `κ`. -/
structure CheckpointStore (κ : Type) where
  /-- The checkpoint of a name; `none` if none was saved. -/
  load : String → κ → Outcome (Option Checkpoint) × κ
  /-- Sets the checkpoint of its name. -/
  save : Checkpoint → κ → Outcome Unit × κ
  /-- Removes the checkpoint of a name; there need not be one. -/
  delete : String → κ → Outcome Unit × κ

/-- A store that cannot be reached: each operation fails the same way. -/
def CheckpointStore.failing (error : StoreError) : CheckpointStore κ where
  load _ state := (.error error, state)
  save _ state := (.error error, state)
  delete _ state := (.error error, state)

/-- The operations of a store of checkpoints. -/
inductive CheckpointOperation where
  | load
  | save
  | delete
  deriving Repr, DecidableEq, Inhabited

/-- A store of checkpoints whose operations fail as planned. -/
def CheckpointStore.unreliable (store : CheckpointStore κ) :
    CheckpointStore (Faulty CheckpointOperation κ) where
  load id := Faulty.run .load (store.load id)
  save checkpoint := Faulty.run .save (store.save checkpoint)
  delete id := Faulty.run .delete (store.delete id)

/-! ## The table in memory -/

/-- Checkpoints, one a name. -/
structure CheckpointTable where
  checkpoints : List Checkpoint
  deriving Repr, DecidableEq, Inhabited

namespace CheckpointTable

/-- No checkpoint. -/
def empty : CheckpointTable := ⟨[]⟩

/-- The checkpoint of a name. -/
def load (table : CheckpointTable) (id : String) : Option Checkpoint :=
  table.checkpoints.find? (·.id = id)

/-- Removes the checkpoint of a name. -/
def delete (table : CheckpointTable) (id : String) : CheckpointTable :=
  ⟨table.checkpoints.filter (·.id ≠ id)⟩

/-- Sets the checkpoint of its name. -/
def save (table : CheckpointTable) (checkpoint : Checkpoint) : CheckpointTable :=
  ⟨checkpoint :: (table.delete checkpoint.id).checkpoints⟩

/-- The table as a store, which never fails. -/
def store : CheckpointStore CheckpointTable where
  load id table := (.ok (table.load id), table)
  save checkpoint table := (.ok (), table.save checkpoint)
  delete id table := (.ok (), table.delete id)

theorem load_delete_self (table : CheckpointTable) (id : String) :
    (table.delete id).load id = none := by
  simp [load, delete]

theorem load_delete_of_ne (table : CheckpointTable) {id other : String} (h : other ≠ id) :
    (table.delete id).load other = table.load other := by
  simp only [load, delete, List.find?_filter]
  congr 1
  funext checkpoint
  by_cases hc : checkpoint.id = other <;> simp [hc, h]

theorem load_save_self (table : CheckpointTable) (checkpoint : Checkpoint) :
    (table.save checkpoint).load checkpoint.id = some checkpoint := by
  simp [load, save]

theorem load_save_of_ne (table : CheckpointTable) (checkpoint : Checkpoint) {other : String}
    (h : other ≠ checkpoint.id) : (table.save checkpoint).load other = table.load other := by
  have := load_delete_of_ne table h
  simp only [load, save, List.find?_cons] at *
  simpa [Ne.symm h] using this

end CheckpointTable

end EventJournal
