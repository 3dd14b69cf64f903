import EventJournal.Cli.Grammar
import EventJournal.Event.Options
import EventJournal.Text.Radix

/-!
# What the program can be asked to do

`Invocation` is a command line in the words of the journal: an action, and where and how to do it.
`program` is the grammar of the command lines, and `Invocation.ofRequest?` reads what one of them gives.
An option of the root that is given to several commands counts as the innermost of them has it.
-/

namespace EventJournal.Cli

/-! ## Invocations -/

/-- How results are written. -/
inductive OutputFormat where
  | table
  | json
  | yaml
  deriving Repr, DecidableEq, Inhabited

/-- The formats by name. -/
def OutputFormat.known : List (String × OutputFormat) :=
  [("table", .table), ("json", .json), ("yaml", .yaml)]

/-- What the names of the formats mean. -/
def OutputFormat.meanings : List (String × String) :=
  [("table", "Render as a formatted table"), ("json", "Render as JSON"), ("yaml", "Render as YAML")]

/-- An event to append, as it was given: its payload and its metadata are texts. -/
structure GivenEvent where
  typeName : String
  payload : String
  metadata : Option String
  id : Option EventId
  deriving Repr, DecidableEq

/-- What to do with the streams of a store. -/
inductive StreamAction where
  | read (stream : StreamId) (options : ReadOptions)
  | append (stream : StreamId) (event : GivenEvent) (expected : Option StreamVersion)
  | info (stream : StreamId)
  | truncate (stream : StreamId) (before : Position)
  | delete (stream : StreamId)
  | tail (stream : StreamId) (options : SubscribeOptions)
  deriving Repr, DecidableEq

/-- What to do with the relational database. -/
inductive DatabaseAction where
  | showCheckpoint (processor : String)
  | resetCheckpoint (processor : String)
  | migrate
  deriving Repr, DecidableEq

/-- What to do. -/
inductive Action where
  | onStore (action : StreamAction)
  | onDatabase (action : DatabaseAction)
  deriving Repr, DecidableEq

/-- An action, and where and how to do it. -/
structure Invocation where
  format : OutputFormat
  /-- The name of a file of settings. -/
  settings : Option String
  databaseUrl : Option String
  logServerUrl : Option String
  isVerbose : Bool
  action : Action
  deriving Repr, DecidableEq

/-! ## The grammar -/

/-- A word of 64 bits. -/
def int64? (text : String) : Option Int64 := (Text.intIn? 10 text.toList).map Int64.ofInt

/-- A count of at most 64 bits; a plus sign may stand before it. -/
def count? (text : String) : Option Nat :=
  let digits := match text.toList with
    | '+' :: digits => digits
    | digits => digits
  (Text.natIn? 10 digits).filter (· < UInt64.size)

/-- The name of the variable that names a file of settings. -/
def settingsVariable : String := "EVENTLOG_CONFIG"

/-- The options of the root. -/
def sharedOptions : List OptionSpec := [
  { name := "output", letter := some 'o', kind := .value, placeholder := "OUTPUT",
    help := "Output format", usual := some "table", choices := OutputFormat.meanings,
    accepts := fun text => (OutputFormat.known.lookup text).isSome },
  { name := "config", letter := some 'c', kind := .value, placeholder := "CONFIG",
    help := "Configuration file (TOML, YAML or JSON)", setBy := some settingsVariable,
    accepts := fun text => text ≠ "" },
  { name := "database-url", letter := none, kind := .value, placeholder := "DATABASE_URL",
    help := "Use the postgres backend at this URL", conflicts := ["log-server-url"] },
  { name := "log-server-url", letter := none, kind := .value, placeholder := "LOG_SERVER_URL",
    help := "Use the log server at this URL" },
  { name := "verbose", letter := some 'v', kind := .flag,
    help := "Log store activity to stderr at the configured level" },
  { name := "no-color", letter := none, kind := .flag, help := "Disable colored output" }]

/-- The operand that names a stream. -/
def streamOperand (help : String) : OperandSpec := { name := "STREAM_ID", help }

/-- The operand that names a processor. -/
def nameOperand : OperandSpec := { name := "NAME", help := "Processor name" }

/-- The option that names event types. -/
def typesOption : OptionSpec :=
  { name := "type", letter := some 't', kind := .values, placeholder := "TYPES",
    help := "Event types to select" }

/-- The option that names a position. -/
def fromOption (help : String) : OptionSpec :=
  { name := "from", letter := some 'f', kind := .value, placeholder := "FROM", help,
    takesNegative := true, accepts := fun text => (int64? text).isSome }

/-- The command that reads a stream. -/
def readCommand : CommandSpec where
  name := "read"
  about := "Read events from a stream ($all for the global stream)"
  operands := [streamOperand "Stream ID"]
  options := [
    { name := "backward", letter := some 'b', kind := .flag,
      help := "Read from the end towards the start" },
    fromOption "Exclusive start position (version, or sequence number on $all)",
    { name := "limit", letter := some 'l', kind := .value, placeholder := "LIMIT",
      help := "Maximum number of events", accepts := fun text => (count? text).isSome },
    typesOption,
    { name := "exclude", letter := none, kind := .flag, requires := ["type"],
      help := "Exclude the given types instead of selecting them" }]

/-- The command that appends to a stream. -/
def appendCommand : CommandSpec where
  name := "append"
  about := "Append one event to a stream"
  operands := [streamOperand "Stream ID"]
  options := [
    { name := "type", letter := some 't', kind := .value, placeholder := "TYPE_NAME",
      help := "Event type", isRequired := true },
    { name := "data", letter := some 'd', kind := .value, placeholder := "DATA",
      help := "Event payload as JSON", isRequired := true },
    { name := "metadata", letter := some 'm', kind := .value, placeholder := "METADATA",
      help := "Event metadata as a JSON object" },
    { name := "id", letter := none, kind := .value, placeholder := "ID",
      help := "Event ID (generated when omitted)" },
    { name := "expected-version", letter := some 'e', kind := .value,
      placeholder := "EXPECTED_VERSION", takesNegative := true,
      help := "Required current version of the stream (-1 for a new stream)",
      accepts := fun text => (int64? text).isSome }]

/-- The command that truncates a stream. -/
def truncateCommand : CommandSpec where
  name := "truncate"
  about := "Remove the events of a stream below a position"
  operands := [streamOperand "Stream ID"]
  options := [
    { name := "before", letter := none, kind := .value, placeholder := "BEFORE", isRequired := true,
      help := "Events with a version below this are removed",
      accepts := fun text => (int64? text).isSome }]

/-- The command that follows a stream. -/
def tailCommand : CommandSpec where
  name := "tail"
  about := "Follow a stream until interrupted"
  operands := [streamOperand "Stream ID ($all for the global stream)"]
  options := [fromOption "Exclusive start position; only new events when omitted", typesOption]

/-- The grammar of the command lines. -/
def program : CommandSpec where
  name := "eventlog"
  about := "Inspect and operate eventlog stores"
  description := some ("CLI tool for reading and writing event streams, following subscriptions and " ++
    "managing processor checkpoints.")
  options := sharedOptions
  commands := [
    { name := "stream", about := "Stream operations",
      commands := [readCommand, appendCommand,
        { name := "info", about := "Show the version bounds of a stream",
          operands := [streamOperand "Stream ID"] },
        truncateCommand,
        { name := "delete", about := "Delete a stream", operands := [streamOperand "Stream ID"] }] },
    tailCommand,
    { name := "checkpoint", about := "Processor checkpoint operations",
      commands := [
        { name := "show", about := "Show the persisted checkpoint of a processor",
          operands := [nameOperand] },
        { name := "reset", about := "Delete a processor's checkpoint so it starts over",
          operands := [nameOperand] }] },
    { name := "migrate", about := "Apply the relational schema" }]

/-! ## Reading a request -/

/-- The value of an option. -/
def Level.value? (level : Level) (name : String) : Option String := level.options.lookup name

/-- The value of an option of the root: the innermost. -/
def sharedValue? (levels : List Level) (name : String) : Option String :=
  levels.reverse.findSome? (·.value? name)

/-- A filter on the types of an option, if any are given. -/
def typeFilter (level : Level) (excluding : Bool) : Option TypeFilter :=
  match level.values "type" with
  | [] => none
  | types => some (if excluding then .exclude types else .select types)

/-- The options of a read. -/
def readOptions (level : Level) : ReadOptions :=
  let base := if level.has "backward" then ReadOptions.backward else ReadOptions.forward
  { base with
    position := (((level.value? "from").bind int64?).map Position.mk).getD base.position
    maxCount := (level.value? "limit").bind count?
    filter := typeFilter level (level.has "exclude") }

/-- The event to append. -/
def givenEvent (level : Level) : GivenEvent where
  typeName := (level.value? "type").getD ""
  payload := (level.value? "data").getD ""
  metadata := level.value? "metadata"
  id := (level.value? "id").map EventId.mk

/-- The action of commands, the outermost first. -/
def action? (levels : List Level) : Option Action := do
  let level ← levels.getLast?
  let operand := level.operands.headD ""
  let stream : StreamId := ⟨operand⟩
  match levels.map (·.command) with
  | [_, "stream", "read"] => some (.onStore (.read stream (readOptions level)))
  | [_, "stream", "append"] =>
    let expected := ((level.value? "expected-version").bind int64?).map StreamVersion.mk
    some (.onStore (.append stream (givenEvent level) expected))
  | [_, "stream", "info"] => some (.onStore (.info stream))
  | [_, "stream", "truncate"] =>
    some (.onStore (.truncate stream ⟨((level.value? "before").bind int64?).getD 0⟩))
  | [_, "stream", "delete"] => some (.onStore (.delete stream))
  | [_, "tail"] =>
    let position := (((level.value? "from").bind int64?).map Position.mk).getD .last
    some (.onStore (.tail stream ⟨position, typeFilter level false⟩))
  | [_, "checkpoint", "show"] => some (.onDatabase (.showCheckpoint operand))
  | [_, "checkpoint", "reset"] => some (.onDatabase (.resetCheckpoint operand))
  | [_, "migrate"] => some (.onDatabase .migrate)
  | _ => none

/-- What commands ask for, the outermost first; `settings` is the file of settings that is used when none
is named. -/
def Invocation.ofLevels? (levels : List Level) (settings : Option String) : Option Invocation := do
  let action ← action? levels
  let format := (sharedValue? levels "output").bind fun name => OutputFormat.known.lookup name
  pure { format := format.getD .table, action
         settings := (sharedValue? levels "config").orElse fun _ => settings
         databaseUrl := sharedValue? levels "database-url"
         logServerUrl := sharedValue? levels "log-server-url"
         isVerbose := levels.any (·.has "verbose") }

end EventJournal.Cli
