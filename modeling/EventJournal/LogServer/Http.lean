import EventJournal.Json.Reader
import EventJournal.Json.Text
import EventJournal.LogServer.Protocol
import EventJournal.Text.Base64
import EventJournal.Url.Basic

/-!
# A log server over HTTP

Each request to the log server is one HTTP request, and its result is read off the status and the body
of the answer. Both directions are plain functions; what carries requests to a server and answers back
is a `Transport`, and one that has no answer failed to connect.

| request | method | path | success | no such stream |
| --- | --- | --- | --- | --- |
| append | POST | `streams/name` | 200 and records | |
| read of a stream | GET | `streams/name` | 200 and records | 404 |
| read of the log | GET | `all` | 200 and records | |
| truncate | POST | `streams/name/truncate` | 2xx | 404 is an error |
| delete | DELETE | `streams/name` | 2xx | 404 |

An append may also be answered by 409 and the reason of the conflict. Status 501 always means that the
server does not offer the request. A read of the log has no other answer in the table; the client takes 404
for an empty log. Every other answer is a failure.
-/

namespace EventJournal

/-! ## Messages -/

/-- A request. -/
structure HttpRequest where
  method : String
  url : Url
  authorization : Option String
  body : Option Json
  deriving Repr, DecidableEq, Inhabited

/-- A request as it is reported. -/
def HttpRequest.toJson (request : HttpRequest) : Json :=
  .ofPairs [("method", .str request.method), ("target", .str request.url.target),
    ("authorization", request.authorization.elim .null .str),
    ("content_type", if request.body.isSome then .str "application/json" else .null),
    ("body", request.body.getD .null)]

/-- An answer. -/
structure HttpResponse where
  status : Nat
  body : String
  deriving Repr, DecidableEq, Inhabited

/-- What carries requests to a server; `none` when the connection fails. -/
abbrev Transport (σ : Type) := HttpRequest → σ → Option HttpResponse × σ

namespace Transport

/-- No server listens. -/
def unreachable : Transport σ := fun _ state => (none, state)

/-- Answers from a list, one a request, then nothing; notes the requests that were answered. -/
def scripted : Transport (List HttpResponse × List HttpRequest) := fun request state =>
  match state with
  | ([], requests) => (none, [], requests)
  | (response :: rest, requests) => (some response, rest, requests ++ [request])

end Transport

/-! ## The client -/

/-- Where a log server is and who asks. -/
structure HttpLog where
  base : Url
  username : Option String
  password : Option String
  deriving Repr, DecidableEq, Inhabited

namespace HttpLog

/-- The name of this kind of store in failures. -/
def backend : String := "log_server"

/-- A client for an address; segments have to be addable to it. -/
def create (address : String) (username password : Option String) : Outcome HttpLog :=
  match Url.parse address with
  | .error error =>
    .error (.configuration ("invalid log server url " ++ address ++ ": " ++ error.message))
  | .ok base =>
    if base.isOpaque then
      .error (.configuration ("log server url " ++ address ++ " cannot be a base"))
    else .ok { base, username, password }

/-! ### Requests -/

/-- The credentials as a request carries them. -/
def authorization (log : HttpLog) : Option String :=
  log.username.map fun username =>
    let pair := username ++ ":" ++ log.password.getD ""
    "Basic " ++ String.ofList (Base64.encode (pair.toList.flatMap String.utf8EncodeChar))

/-- A request below the base address. -/
def request (log : HttpLog) (method : String) (segments : List String) (body : Option Json) :
    HttpRequest :=
  ⟨method, log.base.extend segments, log.authorization, body⟩

/-- The request of an append. -/
def appendRequest (log : HttpLog) (stream : StreamId) (expected : ExpectedRevision)
    (events : List ProposedEvent) : HttpRequest :=
  log.request "POST" ["streams", stream.name] (some (.obj [
    ("events", .arr (events.map ProposedEvent.toJson)), ("expectedRevision", expected.toJson)]))

/-- The query of a read. -/
def readQuery (read : ReadRequest) : List (String × String) :=
  [("direction", read.direction.text), ("from", toString read.cursor.toInt)] ++
    (read.limit.map fun count => ("limit", toString count)).toList

/-- The request of a read below the base address. -/
def readRequest (log : HttpLog) (segments : List String) (read : ReadRequest) : HttpRequest :=
  let request := log.request "GET" segments none
  { request with url := request.url.withQuery (readQuery read) }

/-- The request of a truncation. -/
def truncateRequest (log : HttpLog) (stream : StreamId) (before : UInt64) : HttpRequest :=
  log.request "POST" ["streams", stream.name, "truncate"]
    (some (.obj [("before", Json.ofUInt64 before)]))

/-- The request of a deletion. -/
def deleteRequest (log : HttpLog) (stream : StreamId) : HttpRequest :=
  log.request "DELETE" ["streams", stream.name] none

/-! ### Answers -/

/-- Reads a body. -/
def readBody (decode : Json.Decoder α) (body : String) : Outcome α :=
  match Json.parse body with
  | .error error => .error (.transport (.body error.message))
  | .ok value =>
    match decode value with
    | .error error => .error (.transport (.body error.message))
    | .ok result => .ok result

/-- The records of a body. -/
def recordsOfJson : Json.Decoder (List ServerRecord) := fun value => do
  let decode := Json.Decoder.list ServerRecord.ofJson
  let shape : Json.Shape := ⟨"RecordsBody", [.required "records" decode]⟩
  let members ← shape.members value
  Json.field members "records" decode

/-- The reason of a conflict. -/
structure Conflict where
  error : String
  actualRevision : Option UInt64
  eventId : Option String
  deriving Repr, DecidableEq, Inhabited

/-- Reads the reason of a conflict. -/
def Conflict.ofJson : Json.Decoder Conflict := fun value => do
  let revision := Json.Decoder.option Json.Decoder.uint64
  let id := Json.Decoder.option Json.Decoder.string
  let shape : Json.Shape := ⟨"ConflictBody", [.required "error" Json.Decoder.string,
    .optional "actualRevision" revision, .optional "eventId" id]⟩
  let members ← shape.members value
  let error ← Json.field members "error" Json.Decoder.string
  let actualRevision ← Json.fieldD members "actualRevision" revision none
  let eventId ← Json.fieldD members "eventId" id none
  pure { error, actualRevision, eventId }

/-- What a conflict means for an append. -/
def Conflict.result (conflict : Conflict) : Outcome AppendResult :=
  match conflict.error, conflict.eventId with
  | "duplicate_event", some id => .ok (.duplicate id)
  | "wrong_expected_version", _ => .ok (.wrongVersion conflict.actualRevision)
  | other, _ => .error (.logServer 409 other)

/-- The failure of an answer that was not expected. -/
def unexpected (response : HttpResponse) : StoreError :=
  if response.status = 501 then .notImplemented backend "requested operation"
  else .logServer response.status response.body

/-- Whether a status is one of success. -/
def isSuccess (status : Nat) : Bool := 200 ≤ status && status < 300

/-- Reads the answer to an append. -/
def readAppend (response : HttpResponse) : Outcome AppendResult :=
  if response.status = 200 then (readBody recordsOfJson response.body).map .success
  else if response.status = 409 then
    (readBody Conflict.ofJson response.body).bind Conflict.result
  else .error (unexpected response)

/-- Reads the answer to a read; `none` when there is no such stream. -/
def readRecords (response : HttpResponse) : Outcome (Option (List ServerRecord)) :=
  if response.status = 200 then (readBody recordsOfJson response.body).map some
  else if response.status = 404 then .ok none
  else .error (unexpected response)

/-- Reads the answer to a truncation. -/
def readTruncate (stream : StreamId) (response : HttpResponse) : Outcome Unit :=
  if isSuccess response.status then .ok ()
  else if response.status = 404 then .error (.streamNotFound stream)
  else if response.status = 501 then .error (.notImplemented backend "truncate_stream")
  else .error (unexpected response)

/-- Reads the answer to a deletion; says whether there was such a stream. -/
def readDelete (response : HttpResponse) : Outcome Bool :=
  if isSuccess response.status then .ok true
  else if response.status = 404 then .ok false
  else if response.status = 501 then .error (.notImplemented backend "delete_stream")
  else .error (unexpected response)

/-! ### Exchanges -/

/-- Sends a request and reads its answer. -/
def exchange (transport : Transport σ) (request : HttpRequest) (read : HttpResponse → Outcome α)
    (state : σ) : Outcome α × σ :=
  match transport request state with
  | (none, state) => (.error (.transport .request), state)
  | (some response, state) => (read response, state)

/-- The log server at the other end of a transport. -/
def client (log : HttpLog) (transport : Transport σ) : LogClient σ where
  append stream expected events :=
    exchange transport (log.appendRequest stream expected events) readAppend
  readStream stream read :=
    exchange transport (log.readRequest ["streams", stream.name] read) readRecords
  readAll read :=
    exchange transport (log.readRequest ["all"] read) fun response =>
      (readRecords response).map (·.getD [])
  truncate stream before :=
    exchange transport (log.truncateRequest stream before) (readTruncate stream)
  delete stream := exchange transport (log.deleteRequest stream) readDelete

end HttpLog

end EventJournal
