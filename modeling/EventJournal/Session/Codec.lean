import EventJournal.Feed.Codec
import EventJournal.LogServer.Scripted
import EventJournal.LogServer.Unreliable
import EventJournal.Session.Command
import EventJournal.Upcast.Codec

/-!
# JSON form of session commands

A command is an object with its verb under `do` and its arguments under their names. A reply is a
value whose form depends on the command; records are shown with their times or without.
-/

namespace EventJournal

/-! ## Commands -/

/-- An operation of the store. -/
def StoreCommand.read? (value : Json) (verb : String) : Option StoreCommand := do
  let stream := StreamId.read? (value.member "stream")
  match verb with
  | "append" =>
    pure (.append (← stream) (← (value.member "events").list? Event.read?)
      (← (value.member "expected").optional StreamVersion.read?))
  | "read" => pure (.read (← stream) (← ReadOptions.read? value))
  | "truncate" => pure (.truncate (← stream) (← Position.read? (value.member "before")))
  | "delete" => pure (.delete (← stream))
  | "clear" => pure .clear
  | "exists" => pure (.exists (← stream))
  | "info" => pure (.bounds (← stream))
  | "name" => pure .name
  | _ => none

/-- How often events are to fail, by id. -/
def Rehearsal.readFailures? (value : Json) : Option (List (EventId × Int)) := do
  (← value.members?).mapM fun (id, times) => do pure (⟨id⟩, ← times.int?)

/-- A planned failure of an operation, once if not told otherwise. -/
def Fault.read? (operation : ω) (value : Json) : Option (Fault ω) := do
  pure ⟨operation, ← StoreError.read? (value.member "error"), ← (value.member "times").orElse Json.int? 1⟩

/-- An operation of a log server. -/
def LogOperation.read? : Json → Option LogOperation
  | .str "append" => some .append
  | .str "read_stream" => some .readStream
  | .str "read_all" => some .readAll
  | .str "truncate" => some .truncate
  | .str "delete" => some .delete
  | _ => none

/-- An operation of a store of checkpoints. -/
def CheckpointOperation.read? : Json → Option CheckpointOperation
  | .str "load" => some .load
  | .str "save" => some .save
  | .str "delete" => some .delete
  | _ => none

/-- The configuration of a processor. -/
def ProcessorConfig.read? (value : Json) : Option ProcessorConfig := do
  let strategy ← (value.member "commit").orElse (fun name => (CommitStrategy.ofJson name).toOption)
    .afterHandling
  pure ⟨← (value.member "id").asStr?, ← StreamId.read? (value.member "stream"), ← TypeFilter.readIn? value,
    strategy⟩

/-- The types of a list of names, out of those known. -/
def Registry.read? (known : List EventType) (value : Json) : Option Registry := do
  let types ← value.list? fun name => do
    let name ← name.asStr?
    known.find? (·.name = name)
  pure (types.foldl Registry.register .empty)

/-- A command, with the event types known. -/
def Command.read? (known : List EventType) (value : Json) : Option Command := do
  let verb ← (value.member "do").asStr?
  let name := (value.member "name").asStr?
  let id := (value.member "id").asStr?
  match StoreCommand.read? value verb with
  | some operation => pure (.store operation (value.member "via" = .str "inner"))
  | none =>
    match verb with
    | "len" => pure .size
    | "subscribe" =>
      pure (.subscribe (← name) (← StreamId.read? (value.member "stream"))
        (← SubscribeOptions.read? value))
    | "recv" => pure (.receive (← name))
    | "try_recv" => pure (.tryReceive (← name))
    | "drain" => pure (.drain (← name) (← (value.member "limit").optional Json.nat?))
    | "close" => pure (.close (← name))
    | "sub_state" => pure (.inspect (← name))
    | "drop" => pure (.drop (← name))
    | "token" => pure (.watch (← name))
    | "token_cancel" => pure (.closeWatched (← name))
    | "token_state" => pure (.inspectWatched (← name))
    | "tick" => pure (.tick (← (value.member "times").orElse Json.nat? 1))
    | "cp_save" =>
      pure (.saveCheckpoint ⟨← id, ← StreamId.read? (value.member "stream"),
        ← Position.read? (value.member "position")⟩)
    | "cp_load" => pure (.loadCheckpoint (← id))
    | "cp_delete" => pure (.deleteCheckpoint (← id))
    | "cp_fault" =>
      pure (.planCheckpointFault
        (← Fault.read? (← CheckpointOperation.read? (value.member "on")) value))
    | "processor" =>
      let registry ← match value.member "handler" with
        | .str "bus" => (Registry.read? known (value.member "register")).map some
        | _ => some none
      pure (.addProcessor (← name) (← ProcessorConfig.read? value) registry
        (← Rehearsal.readFailures? (value.member "fail")))
    | "set_fail" => pure (.setFailures (← name) (← Rehearsal.readFailures? (value.member "fail")))
    | "catch_up" => pure (.catchUp (← name))
    | "checkpoint" => pure (.checkpoint (← name))
    | "reset" => pure (.reset (← name))
    | "stats" => pure (.stats (← name))
    | "handled" => pure (.handled (← name))
    | "start" => pure (.start (← name) (← (value.member "cancelled").orElse Json.bool? false))
    | "cancel" => pure (.cancel (← name))
    | "join" => pure (.join (← name))
    | "metrics" => pure .metrics
    | _ => none

/-! ## Replies -/

/-- The notes of a handler. -/
def Handled.listToJson (handled : List Handled) : Json :=
  .arr (handled.map fun entry =>
    .arr ([.str (shownName entry.id.name), .str entry.typeName] ++
      (entry.event.map fun (name, value) => Json.arr [.str name, value]).toList))

/-- A reply; nothing if the command named what is not there. -/
def Reply.toJson? (timed : Bool) : Reply → Option Json
  | .nothing => some .null
  | .unknownName => none
  | .records outcome =>
    some (outcome.toJson fun records => .arr (records.map (·.shown timed)))
  | .slice outcome =>
    some (outcome.toJson fun slice =>
      .obj [("records", .arr (slice.records.map (·.shown timed))),
        ("stream", .str slice.stream.name)])
  | .done outcome => some (outcome.toJson fun _ => .null)
  | .existence outcome => some (outcome.toJson .bool)
  | .bounds outcome => some (outcome.toJson StreamBounds.toJson)
  | .name text => some (.str text)
  | .size none => some (.str "n/a")
  | .size (some count) => some (.ofCount count)
  | .subscribed outcome => some (outcome.toJson .str)
  | .received got => some (got.toJson timed)
  | .drained outcomes => some (Received.listToJson timed outcomes)
  | .closed yes => some (.obj [("closed", .bool yes)])
  | .subscription channel =>
    some (.obj [("closed", .bool channel.closed), ("debug", .str channel.debugText),
      ("stream", .str channel.stream.name)])
  | .flag yes => some (.bool yes)
  | .checkpoint outcome => some (outcome.toJson (Json.ofOption Checkpoint.toJson))
  | .processor config =>
    some (.obj [("commit", .str config.strategy.name), ("name", .str config.name),
      ("stream", .str config.stream.name)])
  | .caughtUp outcome notes =>
    some (.obj [("handled", Handled.listToJson notes),
      ("result", outcome.toJson Checkpoint.toJson)])
  | .stats counts =>
    some (.obj [("failed", .int counts.failed), ("processed", .int counts.processed)])
  | .handled notes => some (Handled.listToJson notes)
  | .running => some (.str "running")
  | .metrics lines => some (Json.ofStrings lines)

/-! ## Scripted log servers -/

/-- A reply of a scripted log server. -/
def LogReply.read? (value : Json) : Option LogReply :=
  match value with
  | .obj [("error", description)] => (StoreError.read? description).map .error
  | .obj [("records", items)] =>
    (items.list? fun record => (ServerRecord.ofJson record).toOption).map .records
  | .obj [("wrong_version", actual)] => (actual.optional Json.uint64?).map .wrongVersion
  | .obj [("duplicate", .str id)] => some (.duplicate id)
  | .obj [("missing", .bool true)] => some .missing
  | .obj [("existed", .bool yes)] => some (.existed yes)
  | _ => some .done

/-- A request: its kind under `fn`, what it is about under its names. -/
def LogCall.read? (value : Json) : Option LogCall := do
  let stream ← (value.member "stream").orElse StreamId.read? ⟨""⟩
  let read : Option ReadRequest := do
    pure {
      direction := ← (value.member "direction").orElse Direction.read? .forward
      cursor := ← (value.member "from").orElse Position.read? .start
      limit := ← (value.member "limit").optional Json.nat? }
  match ← (value.member "fn").asStr? with
  | "append" =>
    pure (.append stream (.ofVersion (← (value.member "expected").optional StreamVersion.read?))
      ((← (value.member "events").list? Event.read?).map ProposedEvent.ofEvent))
  | "read_stream" => pure (.readStream stream (← read))
  | "read_all" => pure (.readAll (← read))
  | "truncate" => pure (.truncate stream (← (value.member "before").uint64?))
  | "delete" => pure (.delete stream)
  | _ => none

/-- The result of an append. -/
def AppendResult.toJson : AppendResult → Json
  | .success list => .obj [("records", .arr (list.map ServerRecord.toJson))]
  | .wrongVersion actual => .obj [("wrong_version", Json.ofOption Json.ofUInt64 actual)]
  | .duplicate id => .obj [("duplicate", .str id)]

/-- Sends a request to a log server and reports its outcome. -/
def LogClient.report (client : LogClient σ) (call : LogCall) (state : σ) : Json × σ :=
  let records (list : List ServerRecord) : Json := .arr (list.map ServerRecord.toJson)
  match call with
  | .append stream expected events =>
    let (outcome, state) := client.append stream expected events state
    (outcome.toJson AppendResult.toJson, state)
  | .readStream stream read =>
    let (outcome, state) := client.readStream stream read state
    (outcome.toJson (Json.ofOption records), state)
  | .readAll read =>
    let (outcome, state) := client.readAll read state
    (outcome.toJson records, state)
  | .truncate stream before =>
    let (outcome, state) := client.truncate stream before state
    (outcome.toJson fun _ => .null, state)
  | .delete stream =>
    let (outcome, state) := client.delete stream state
    (outcome.toJson .bool, state)

/-- A request as it is reported. -/
def LogCall.toJson : LogCall → Json
  | .append stream expected events =>
    .arr [.str "append", .str stream.name, expected.toJson,
      .arr (events.map fun event => { event with eventId := shownName event.eventId }.toJson)]
  | .readStream stream request => .arr [.str "read_stream", .str stream.name, request.toJson]
  | .readAll request => .arr [.str "read_all", request.toJson]
  | .truncate stream before => .arr [.str "truncate", .str stream.name, Json.ofUInt64 before]
  | .delete stream => .arr [.str "delete", .str stream.name]

end EventJournal
