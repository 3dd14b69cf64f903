import EventJournal.Error.Codec
import EventJournal.Feed.Bench

/-!
# JSON form of feed commands

A command is an object with its verb under `do` and its arguments under their names. A reply is a
value whose form depends on the command.
-/

namespace EventJournal

/-- What was received: an outcome, or a word. -/
def Received.toJson (timed : Bool) : Received → Json
  | .item outcome => Outcome.toJson (·.shown timed) outcome
  | .closed => .str "none"
  | .pending => .str "pending"

/-- Outcomes received one after another. -/
def Received.listToJson (timed : Bool) (outcomes : List (Outcome Record)) : Json :=
  .arr (outcomes.map (Outcome.toJson (·.shown timed)))

/-- A number of things, and whether there are none. -/
def Json.ofCount (count : Nat) : Json :=
  .obj [("empty", .bool (count = 0)), ("len", .int count)]

/-- A feed command. -/
def FeedCommand.read? (value : Json) : Option FeedCommand := do
  let name := (value.member "name").asStr?
  let stream := StreamId.read? (value.member "stream")
  match ← (value.member "do").asStr? with
  | "register" => pure (.register (← name) (← stream))
  | "unregister" => pure (.unregister (← (value.member "id").nat?))
  | "dispatch" => pure (.dispatch (← (value.member "records").list? Record.read?))
  | "fail_all" => pure (.failAll (← (value.member "message").asStr?))
  | "reset_all" => pure .resetAll
  | "len" => pure .size
  | "live_recv" => pure (.take (← name))
  | "live_drop" => pure (.deafen (← name))
  | "channel" => pure (.channel (← name) (← stream) (← SubscribeOptions.read? value))
  | "emit" => pure (.offer (← name) (← Record.read? (value.member "record")))
  | "fail" => pure (.fail (← name) (← StoreError.read? (value.member "error")))
  | "sink_state" => pure (.inspectSink (← name))
  | "sink_drop" => pure (.dropSink (← name))
  | "pump" =>
    pure (.pump (← name) (← (value.member "live").asStr?)
      (← (value.member "backlog").list? Record.read?))
  | "pump_done" => pure (.pumpEnded (← name))
  | "recv" => pure (.receive (← name))
  | "try_recv" => pure (.tryReceive (← name))
  | "drain" => pure (.drain (← name))
  | "close" => pure (.close (← name))
  | "sub_state" => pure (.inspect (← name))
  | "sub_drop" => pure (.drop (← name))
  | "metrics" => pure .metrics
  | _ => none

/-- A message taken from a queue. -/
def Subscribers.Taken.toJson : Subscribers.Taken → Json
  | .message (.record record) => .obj [("record", record.shown true)]
  | .message (.failed detail) => .obj [("failed", .str detail)]
  | .message .reset => .str "reset"
  | .empty => .str "empty"
  | .disconnected => .str "disconnected"

/-- What became of an attempt to deliver. -/
def Sent.toJson : Sent → Json
  | .accepted => .bool true
  | .refused => .bool false
  | .blocked => .str "blocked"

/-- A reply to a feed command; nothing if the command named what is not there. -/
def FeedReply.toJson? : FeedReply → Option Json
  | .nothing => some .null
  | .unknownName => none
  | .number n => some (.int n)
  | .size count => some (.ofCount count)
  | .taken found => some found.toJson
  | .opened channel =>
    some (.obj [("backlog_start", Json.ofOption (fun p => .int p.toInt) channel.options.backlogStart),
      ("stream", .str channel.stream.name), ("sub", .str channel.debugText)])
  | .sent verdict => some verdict.toJson
  | .sink closed => some (.obj [("closed", .bool closed), ("resolved", .bool closed)])
  | .flag yes => some (.bool yes)
  | .received got => some (got.toJson true)
  | .drained outcomes => some (Received.listToJson true outcomes)
  | .subscription channel =>
    some (.obj [("closed", .bool channel.closed), ("debug", .str channel.debugText)])
  | .metrics lines => some (Json.ofStrings lines)

end EventJournal
