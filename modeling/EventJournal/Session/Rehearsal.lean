import EventJournal.Process.Handler

/-!
# Rehearsed handlers

A handler that fails for chosen events as often as it is told, and notes every record it handled.
-/

namespace EventJournal

/-- A note of a handled record. -/
structure Handled where
  id : EventId
  typeName : String
  /-- The event that was published: its type and its value. -/
  event : Option (String × Json)
  deriving Repr, DecidableEq, Inhabited

/-- What a rehearsed handler keeps. -/
structure Rehearsal where
  /-- How often each event is still to fail; a negative number means always. -/
  failures : List (EventId × Int)
  /-- The records handled since the notes were taken away. -/
  handled : List Handled
  deriving Repr, DecidableEq, Inhabited

namespace Rehearsal

/-- Uses up one failure of an event. `none` if it has none left. -/
def useFailure (id : EventId) : List (EventId × Int) → Option (List (EventId × Int))
  | [] => none
  | (other, times) :: rest =>
    if other = id then
      if times = 0 then none
      else some ((other, if 0 < times then times - 1 else times) :: rest)
    else (useFailure id rest).map ((other, times) :: ·)

/-- Fails as told, or notes the record. -/
def note (event : Option (String × Json)) : Handler Rehearsal := fun record rehearsal =>
  match useFailure record.id rehearsal.failures with
  | some failures =>
    (.error ["cannot handle " ++ record.id.name], { rehearsal with failures })
  | none =>
    (.ok (), { rehearsal with
      handled := rehearsal.handled ++ [⟨record.id, record.typeName, event⟩] })

/-- The handler: with a registry it publishes typed events, without one it takes every record. -/
def handler (registry : Option Registry) : Handler Rehearsal :=
  match registry with
  | some registry => Handler.publishing registry fun event => note (some event)
  | none => note none

end Rehearsal

end EventJournal
