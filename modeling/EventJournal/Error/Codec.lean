import EventJournal.Error.Basic
import EventJournal.Event.Shorthand
import EventJournal.Json.Reader

/-!
# JSON form of failures

A failure is reported as its code, its wording and the wordings of what lies beneath; of a transport
failure only the code is reported, since its wording depends on the network. A script describes a
failure by its kind and what is known of it.
-/

namespace EventJournal

/-- A failure as it is reported. -/
def StoreError.toJson (error : StoreError) : Json :=
  match error.code with
  | .transportError => .obj [("error", .str ErrorCode.transportError.name)]
  | code =>
    .obj [("causes", Json.ofStrings error.causes), ("error", .str code.name),
      ("message", .str error.message)]

/-- An outcome as it is reported. -/
def Outcome.toJson (write : α → Json) : Outcome α → Json
  | .ok value => .obj [("ok", write value)]
  | .error error => error.toJson

/-- A described failure of the database. -/
def DatabaseFailure.read? (value : Json) : Option DatabaseFailure :=
  match value.member "which" with
  | .str "row_not_found" => some .rowNotFound
  | .str "pool_closed" => some .poolClosed
  | .str "pool_timed_out" => some .poolTimedOut
  | .str "worker_crashed" => some .workerCrashed
  | .str "protocol" => ((value.member "message").orElse Json.asStr? "").map .protocol
  | _ => none

namespace StoreError

/-- A described failure, descriptions nested no deeper than so many levels. -/
def readWithin : Nat → Json → Option StoreError
  | 0, _ => none
  | depth + 1, value => do
    let text (field : String) : Option String := (value.member field).asStr?
    let stream : Option StreamId := (text "stream").map .mk
    let source := readWithin depth (value.member "source")
    match ← text "kind" with
    | "stream_not_found" => pure (.streamNotFound (← stream))
    | "concurrency" =>
      pure (.concurrency (← stream) (← StreamVersion.read? (value.member "expected"))
        (← StreamVersion.read? (value.member "actual")))
    | "duplicate_event_id" => pure (.duplicateEventId ⟨← text "event_id"⟩)
    | "global_not_writable" => pure (.globalNotWritable (← text "operation"))
    | "internal_protected" => pure (.internalProtected (← text "operation") (← stream))
    | "not_implemented" => pure (.notImplemented (← text "backend") (← text "operation"))
    | "subscription_closed" => pure (.subscriptionClosed (← stream))
    | "unknown_event_type" => pure (.unknownEventType (← text "name"))
    | "handler" =>
      pure (.handler (← text "processor") (← Position.read? (value.member "position"))
        (← (value.member "messages").list? Json.asStr?))
    | "checkpoint" => pure (.checkpoint (← text "processor") (← source))
    | "configuration" => pure (.configuration (← text "message"))
    | "database" => pure (.database (← DatabaseFailure.read? value))
    | "log_server" => pure (.logServer (← (value.member "status").nat?) (← text "message"))
    | "notification" => pure (.notification (← text "message"))
    | "serialization" =>
      match Json.parseObject (← text "text") with
      | .ok _ => none
      | .error error => pure (.serialization error.message)
    | "context" => pure (.context (← text "operation") (← stream) (← source))
    | _ => none

/-- A described failure. -/
def read? (value : Json) : Option StoreError := readWithin 128 value

end StoreError

end EventJournal
