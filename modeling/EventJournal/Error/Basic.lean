import EventJournal.Error.Code
import EventJournal.Event.Id

/-!
# Failures

`StoreError` has one constructor for each kind of failure, with what is known of it. A failure of a
lower layer is wrapped once, at the outermost layer that knows the operation and the stream;
failures that callers match on pass unwrapped.

* `message` is the wording, `causes` the wordings of what lies beneath, the outermost first.
* `withContext` wraps, `root` and `code` look through the wrapping and through nothing else.

Main statements: `root_withContext` and `code_withContext`, wrapping changes neither;
`withContext_withContext`, a second wrapping adds nothing.
-/

namespace EventJournal

/-! ## Failures of the backing technologies -/

/-- A failure of the relational database. -/
inductive DatabaseFailure where
  | rowNotFound
  | poolClosed
  | poolTimedOut
  | workerCrashed
  | protocol (detail : String)
  /-- The connection text is no address; the reason is a failure of its own. -/
  | configuration (reason : String)
  deriving Repr, DecidableEq, Inhabited

namespace DatabaseFailure

/-- The wording of a failure. -/
def message : DatabaseFailure → String
  | rowNotFound => "no rows returned by a query that expected to return at least one row"
  | poolClosed => "attempted to acquire a connection on a closed pool"
  | poolTimedOut => "pool timed out while waiting for an open connection"
  | workerCrashed => "attempted to communicate with a crashed background worker"
  | protocol detail => "encountered unexpected or invalid data: " ++ detail
  | configuration reason => "error with configuration: " ++ reason

/-- The wordings of what lies beneath. -/
def causes : DatabaseFailure → List String
  | configuration reason => [reason]
  | _ => []

end DatabaseFailure

/-- A failure to exchange a message with the log server. -/
inductive TransportFailure where
  /-- The request could not be sent or its answer did not arrive. -/
  | request
  /-- The body of the answer is not what it should be. -/
  | body (reason : String)
  deriving Repr, DecidableEq, Inhabited

namespace TransportFailure

/-- The wording of a failure. -/
def message : TransportFailure → String
  | request => "error sending request"
  | body _ => "error decoding response body"

/-- The wordings of what lies beneath. -/
def causes : TransportFailure → List String
  | request => []
  | body reason => [reason]

end TransportFailure

/-! ## Failures of the journal -/

/-- A failure of a store, an upcaster, a subscription or a processor. -/
inductive StoreError where
  | streamNotFound (stream : StreamId)
  | concurrency (stream : StreamId) (expected actual : StreamVersion)
  | duplicateEventId (id : EventId)
  | globalNotWritable (operation : String)
  | internalProtected (operation : String) (stream : StreamId)
  | notImplemented (backend operation : String)
  | subscriptionClosed (stream : StreamId)
  | unknownEventType (name : String)
  /-- A handler failed; its own wordings, the outermost first. -/
  | handler (processor : String) (position : Position) (reasons : List String)
  | checkpoint (processor : String) (source : StoreError)
  | configuration (detail : String)
  | database (failure : DatabaseFailure)
  | transport (failure : TransportFailure)
  | logServer (status : Nat) (detail : String)
  | notification (detail : String)
  | serialization (detail : String)
  /-- A failure of a lower layer, with the operation and the stream it happened in. -/
  | context (operation : String) (stream : StreamId) (source : StoreError)
  deriving Repr, DecidableEq, Inhabited

/-- The outcome of an operation that may fail. -/
abbrev Outcome (α : Type) := Except StoreError α

namespace StoreError

/-- The wording of a failure. -/
def message : StoreError → String
  | streamNotFound stream => "stream not found: " ++ stream.name
  | concurrency stream expected actual =>
    "concurrency conflict on stream " ++ stream.name ++ ": expected version " ++ expected.text ++
      ", actual version " ++ actual.text
  | duplicateEventId id => "duplicate event id: " ++ id.name
  | globalNotWritable operation => "cannot " ++ operation ++ " the global stream"
  | internalProtected operation stream =>
    "cannot " ++ operation ++ " the internal stream " ++ stream.name
  | notImplemented backend operation =>
    operation ++ " is not implemented by the " ++ backend ++ " backend"
  | subscriptionClosed stream => "subscription to " ++ stream.name ++ " closed"
  | unknownEventType name => "unknown event type: " ++ name
  | handler processor position _ =>
    "processor " ++ processor ++ " failed to handle event at position " ++ position.text
  | checkpoint processor _ => "processor " ++ processor ++ " failed to persist its checkpoint"
  | configuration detail => "invalid configuration: " ++ detail
  | database failure => "database error: " ++ failure.message
  | transport failure => "transport error: " ++ failure.message
  | logServer status detail => "log server returned " ++ toString status ++ ": " ++ detail
  | notification detail => "change notification failed: " ++ detail
  | serialization detail => "serialization error: " ++ detail
  | context operation stream source =>
    operation ++ " on stream " ++ stream.name ++ " failed: " ++ source.message

/-- The wordings of what lies beneath a failure, the outermost first. -/
def causes : StoreError → List String
  | handler _ _ reasons => reasons
  | checkpoint _ source => source.message :: source.causes
  | database failure => failure.message :: failure.causes
  | transport failure => failure.message :: failure.causes
  | serialization detail => [detail]
  | context _ _ source => source.message :: source.causes
  | _ => []

/-- The innermost failure, looking through wrapping. -/
def root : StoreError → StoreError
  | context _ _ source => source.root
  | error => error

/-- The code of a failure; a wrapped one has the code of what it wraps. -/
def code : StoreError → ErrorCode
  | streamNotFound _ => .streamNotFound
  | concurrency _ _ _ => .concurrencyConflict
  | duplicateEventId _ => .duplicateEventId
  | globalNotWritable _ => .globalStreamNotWritable
  | internalProtected _ _ => .internalStreamProtected
  | notImplemented _ _ => .notImplemented
  | subscriptionClosed _ => .subscriptionClosed
  | unknownEventType _ => .unknownEventType
  | handler _ _ _ => .handlerFailed
  | checkpoint _ _ => .checkpointFailed
  | configuration _ => .configurationError
  | database _ => .databaseError
  | transport _ => .transportError
  | logServer _ _ => .logServerError
  | notification _ => .notificationFailed
  | serialization _ => .serializationError
  | context _ _ source => source.code

/-- Whether a failure names its stream or is one that callers match on; it is never wrapped. -/
def passesUnwrapped : StoreError → Bool
  | streamNotFound _ | concurrency _ _ _ | duplicateEventId _ | globalNotWritable _
  | internalProtected _ _ | notImplemented _ _ | subscriptionClosed _ | context _ _ _ => true
  | _ => false

/-- Wraps a failure with the operation and the stream it happened in. -/
def withContext (error : StoreError) (operation : String) (stream : StreamId) : StoreError :=
  if error.passesUnwrapped then error else .context operation stream error

/-- Whether this is a conflict of versions. -/
def isConcurrency (error : StoreError) : Bool :=
  match error.root with
  | concurrency _ _ _ => true
  | _ => false

/-- Whether this reports a missing stream. -/
def isStreamNotFound (error : StoreError) : Bool :=
  match error.root with
  | streamNotFound _ => true
  | _ => false

/-- Whether trying again may help. -/
def isRetryable (error : StoreError) : Bool := error.code.isRetryable

/-- How serious the failure is. -/
def severity (error : StoreError) : Severity := error.code.severity

theorem root_withContext (error : StoreError) (operation : String) (stream : StreamId) :
    (error.withContext operation stream).root = error.root := by
  unfold withContext
  split <;> simp [root]

theorem code_withContext (error : StoreError) (operation : String) (stream : StreamId) :
    (error.withContext operation stream).code = error.code := by
  unfold withContext
  split <;> simp [code]

theorem passesUnwrapped_withContext (error : StoreError) (operation : String) (stream : StreamId) :
    (error.withContext operation stream).passesUnwrapped = true := by
  unfold withContext
  split
  · assumption
  · rfl

theorem withContext_withContext (error : StoreError) (o o' : String) (s s' : StreamId) :
    (error.withContext o s).withContext o' s' = error.withContext o s := by
  rw [withContext, if_pos (passesUnwrapped_withContext error o s)]

end StoreError

/-- Wraps the failure of an outcome with the operation and the stream it happened in. -/
def Outcome.context (outcome : Outcome α) (operation : String) (stream : StreamId) : Outcome α :=
  match outcome with
  | .ok value => .ok value
  | .error error => .error (error.withContext operation stream)

end EventJournal
