import EventJournal.Process.Checkpoint
import EventJournal.Store.Basic

/-!
# A relational store without connections

A store in a relational database whose pool of connections is closed: what is checked before the first
statement is checked, and then every operation fails to get a connection.
-/

namespace EventJournal.ClosedPool

/-- The name of this kind of store. -/
def backend : String := "postgres"

/-- The failure of every statement. -/
def failure : StoreError := .database .poolClosed

/-- The failure of an operation on a stream. -/
def refuse (operation : String) (stream : StreamId) (state : σ) : Answer σ α :=
  .refused state (failure.withContext operation stream)

/-- An operation that is checked first. -/
def checked (check : Outcome Unit) (operation : String) (stream : StreamId) (state : σ) :
    Answer σ α :=
  match check with
  | .error error => .refused state error
  | .ok () => refuse operation stream state

/-- The store. -/
def store : Store σ where
  name := backend
  append stream _ _ := checked (ensureWritable stream "append to") "append_to_stream" stream
  read stream _ := refuse "read_from_stream" stream
  truncate stream _ := checked (ensureRemovable stream "truncate") "truncate_stream" stream
  delete stream := checked (ensureRemovable stream "delete") "delete_stream" stream
  exists? stream := refuse "stream_exists" stream
  bounds stream := refuse "get_stream" stream
  clear := refuse "clear" .global

/-- Checkpoints in the same database. -/
def checkpoints : CheckpointStore κ := .failing failure

end EventJournal.ClosedPool
