import EventJournal.LogServer.Protocol

/-!
# Scripted log servers

A log server that answers from a list of replies, one a request, and notes what it was asked. Without
a reply left it is out of service.
-/

namespace EventJournal

/-- What a log server was asked. -/
inductive LogCall where
  | append (stream : StreamId) (expected : ExpectedRevision) (events : List ProposedEvent)
  | readStream (stream : StreamId) (request : ReadRequest)
  | readAll (request : ReadRequest)
  | truncate (stream : StreamId) (before : UInt64)
  | delete (stream : StreamId)
  deriving Repr, DecidableEq, Inhabited

/-- A reply to one request; a request that finds a reply of another kind succeeds with nothing. -/
inductive LogReply where
  | error (error : StoreError)
  | records (records : List ServerRecord)
  | wrongVersion (actual : Option UInt64)
  | duplicate (eventId : String)
  /-- There is no such stream. -/
  | missing
  | existed (yes : Bool)
  | done
  deriving Repr, DecidableEq, Inhabited

/-- A log server with the replies left and the requests so far. -/
structure ScriptedLog where
  replies : List LogReply
  calls : List LogCall
  deriving Repr, DecidableEq, Inhabited

namespace ScriptedLog

/-- The answer without a reply left. -/
def exhausted : StoreError := .logServer 503 "script exhausted"

/-- Answers a request with the next reply. -/
def answer (call : LogCall) (read : LogReply → α) (script : ScriptedLog) :
    Outcome α × ScriptedLog :=
  let script := { script with calls := script.calls ++ [call] }
  match script.replies with
  | [] => (.error exhausted, script)
  | .error error :: rest => (.error error, { script with replies := rest })
  | reply :: rest => (.ok (read reply), { script with replies := rest })

/-- The result of an append that a reply stands for. -/
def appendResult : LogReply → AppendResult
  | .records records => .success records
  | .wrongVersion actual => .wrongVersion actual
  | .duplicate eventId => .duplicate eventId
  | _ => .success []

/-- The records that a reply stands for. -/
def streamRecords : LogReply → Option (List ServerRecord)
  | .records records => some records
  | .missing => none
  | _ => some []

/-- Whether a reply says that the stream existed. -/
def existed : LogReply → Bool
  | .existed yes => yes
  | _ => true

/-- The script as a log server. -/
def client : LogClient ScriptedLog where
  append stream expected events := answer (.append stream expected events) appendResult
  readStream stream request := answer (.readStream stream request) streamRecords
  readAll request := answer (.readAll request) fun reply => (streamRecords reply).getD []
  truncate stream before := answer (.truncate stream before) fun _ => ()
  delete stream := answer (.delete stream) existed

end ScriptedLog

end EventJournal
