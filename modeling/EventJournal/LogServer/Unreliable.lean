import EventJournal.Fault
import EventJournal.LogServer.Protocol

/-!
# Unreliable log servers

A log server on which faults are planned, and one that cannot truncate or delete.
-/

namespace EventJournal

/-- The operations of a log server. -/
inductive LogOperation where
  | append
  | readStream
  | readAll
  | truncate
  | delete
  deriving Repr, DecidableEq, Inhabited

namespace LogClient

/-- A log server whose operations fail as planned. -/
def unreliable (client : LogClient σ) : LogClient (Faulty LogOperation σ) where
  append stream expected events := Faulty.run .append (client.append stream expected events)
  readStream stream request := Faulty.run .readStream (client.readStream stream request)
  readAll request := Faulty.run .readAll (client.readAll request)
  truncate stream before := Faulty.run .truncate (client.truncate stream before)
  delete stream := Faulty.run .delete (client.delete stream)

/-- A log server that cannot truncate. -/
def withoutTruncate (client : LogClient σ) : LogClient σ :=
  { client with
    truncate := fun _ _ state => (.error (.notImplemented "log_server" "truncate_stream"), state) }

/-- A log server that cannot delete. -/
def withoutDelete (client : LogClient σ) : LogClient σ :=
  { client with
    delete := fun _ state => (.error (.notImplemented "log_server" "delete_stream"), state) }

end LogClient

end EventJournal
