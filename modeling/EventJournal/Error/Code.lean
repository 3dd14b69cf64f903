import EventJournal.Json.Decode

/-!
# Error codes

Every failure has a stable code with a number, a category, a severity and a verdict on whether trying
again may help. Categories are ranges of numbers.
-/

namespace EventJournal

/-- What went wrong, for machines. -/
inductive ErrorCode where
  | streamNotFound
  | concurrencyConflict
  | duplicateEventId
  | globalStreamNotWritable
  | subscriptionClosed
  | unknownEventType
  | internalStreamProtected
  | handlerFailed
  | checkpointFailed
  | databaseError
  | transportError
  | logServerError
  | notImplemented
  | notificationFailed
  | serializationError
  | configurationError
  deriving Repr, DecidableEq, Inhabited

/-- How serious a failure is. -/
inductive Severity where
  /-- An outcome the caller expects: a conflict, a missing stream. -/
  | low
  /-- A request that cannot be served. -/
  | medium
  /-- A failure of the backing technology or of a processor. -/
  | high
  deriving Repr, DecidableEq, Inhabited

namespace ErrorCode

/-- The stable name of a code. -/
def name : ErrorCode → String
  | streamNotFound => "STREAM_NOT_FOUND"
  | concurrencyConflict => "CONCURRENCY_CONFLICT"
  | duplicateEventId => "DUPLICATE_EVENT_ID"
  | globalStreamNotWritable => "GLOBAL_STREAM_NOT_WRITABLE"
  | subscriptionClosed => "SUBSCRIPTION_CLOSED"
  | unknownEventType => "UNKNOWN_EVENT_TYPE"
  | internalStreamProtected => "INTERNAL_STREAM_PROTECTED"
  | handlerFailed => "HANDLER_FAILED"
  | checkpointFailed => "CHECKPOINT_FAILED"
  | databaseError => "DATABASE_ERROR"
  | transportError => "TRANSPORT_ERROR"
  | logServerError => "LOG_SERVER_ERROR"
  | notImplemented => "NOT_IMPLEMENTED"
  | notificationFailed => "NOTIFICATION_FAILED"
  | serializationError => "SERIALIZATION_ERROR"
  | configurationError => "CONFIGURATION_ERROR"

/-- The code as log lines and labels show it. -/
def display : ErrorCode → String
  | streamNotFound => "StreamNotFound"
  | concurrencyConflict => "ConcurrencyConflict"
  | duplicateEventId => "DuplicateEventId"
  | globalStreamNotWritable => "GlobalStreamNotWritable"
  | subscriptionClosed => "SubscriptionClosed"
  | unknownEventType => "UnknownEventType"
  | internalStreamProtected => "InternalStreamProtected"
  | handlerFailed => "HandlerFailed"
  | checkpointFailed => "CheckpointFailed"
  | databaseError => "DatabaseError"
  | transportError => "TransportError"
  | logServerError => "LogServerError"
  | notImplemented => "NotImplemented"
  | notificationFailed => "NotificationFailed"
  | serializationError => "SerializationError"
  | configurationError => "ConfigurationError"

/-- All codes in the order of their numbers within a category. -/
def all : List ErrorCode :=
  [streamNotFound, concurrencyConflict, duplicateEventId, globalStreamNotWritable,
    subscriptionClosed, unknownEventType, internalStreamProtected, handlerFailed, checkpointFailed,
    databaseError, transportError, logServerError, notImplemented, notificationFailed,
    serializationError, configurationError]

/-- The number of a code. -/
def number : ErrorCode → Nat
  | streamNotFound => 1000
  | concurrencyConflict => 1001
  | duplicateEventId => 1002
  | globalStreamNotWritable => 1003
  | subscriptionClosed => 1004
  | unknownEventType => 1005
  | internalStreamProtected => 1006
  | handlerFailed => 1100
  | checkpointFailed => 1101
  | databaseError => 2000
  | transportError => 2001
  | logServerError => 2002
  | notImplemented => 2003
  | notificationFailed => 2004
  | serializationError => 2200
  | configurationError => 5000

/-- The group of a code. -/
def category (code : ErrorCode) : String :=
  let n := code.number
  if 1000 ≤ n ∧ n ≤ 1099 then "stream"
  else if 1100 ≤ n ∧ n ≤ 1199 then "processing"
  else if 2000 ≤ n ∧ n ≤ 2099 then "backend"
  else if 2200 ≤ n ∧ n ≤ 2299 then "serialization"
  else if 5000 ≤ n ∧ n ≤ 5099 then "configuration"
  else "unknown"

/-- Whether trying again may succeed with nothing changed by the caller. -/
def isRetryable : ErrorCode → Bool
  | databaseError | transportError | logServerError | notificationFailed | subscriptionClosed => true
  | _ => false

/-- How serious failures of this code are. -/
def severity : ErrorCode → Severity
  | streamNotFound | concurrencyConflict => .low
  | subscriptionClosed | notImplemented | globalStreamNotWritable | internalStreamProtected
  | duplicateEventId | unknownEventType => .medium
  | _ => .high

/-- Reads a code by its name. -/
def ofJson : Json.Decoder ErrorCode := Json.Decoder.variant (all.map fun code => (code.name, code))

theorem name_injective {a b : ErrorCode} (h : a.name = b.name) : a = b := by
  cases a <;> cases b <;> simp_all [name]

end ErrorCode

namespace Severity

/-- The name of a severity. -/
def name : Severity → String
  | low => "low"
  | medium => "medium"
  | high => "high"

/-- Reads a severity by its name. -/
def ofJson : Json.Decoder Severity :=
  Json.Decoder.variant [("low", low), ("medium", medium), ("high", high)]

end Severity

end EventJournal
