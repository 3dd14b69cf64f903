import EventJournal.Cli.Help
import EventJournal.Cli.Output
import EventJournal.Config.Connect
import EventJournal.Config.EnvironmentFile
import EventJournal.Session.Backend
import EventJournal.Telemetry.Filter

/-!
# Running a command line

A command line is run in surroundings: variables, files, a moment, an id that nobody has, and a way to
reach log servers. What comes of it is a `Report`: what is written, what went wrong, and the exit code,
which is 2 for a command line that is not understood, 1 for a failure and 0 otherwise.

Settings come from the file that is named and the environment; the options of the command line go before
them. A store in memory is empty at the start of each run.

Main statement: `run_code_of_usage`, a command line that is not understood gives code 2 and writes
nothing.
-/

namespace EventJournal.Cli

/-! ## Surroundings and reports -/

/-- Where a command line is run; a log server is reached through a network of state `σ`. -/
structure Surroundings (σ : Type) where
  environment : Config.Environment
  /-- The text of the file of a name. -/
  files : String → Option String
  now : Timestamp
  /-- An id for an event that was given none. -/
  eventId : EventId
  /-- An id for a marker. -/
  markerId : EventId
  transport : Transport σ

/-- What can go wrong. -/
inductive Failure where
  | usage (error : UsageError)
  | settings (source : String) (error : SettingsError)
  /-- A level of the log is none. -/
  | logFilter
  | noDatabase
  | payload (error : Json.SyntaxError)
  | metadata (error : Json.SyntaxError)
  | store (error : StoreError)

namespace Failure

/-- The wordings of a failure of the journal, the outermost first. -/
def wordings (error : StoreError) : List String := error.message :: error.causes

/-- What is written about a failure. -/
def text : Failure → String
  | usage error => "error: " ++ error.message ++ "\n\nFor more information, try '--help'.\n"
  | settings source error =>
    line (("failed to load configuration from " ++ source) :: wordings error.toStoreError)
  | logFilter => "Error: invalid filter directive\n"
  | noDatabase => line ["this command needs a [database] section or --database-url"]
  | payload error => line ["--data is not valid JSON", error.message]
  | metadata error => line ["--metadata is not a JSON object", error.message]
  | store error => line (wordings error)
where
  /-- The line of an error, from the outermost wording to the innermost. -/
  line (wordings : List String) : String := "[ERROR] " ++ ": ".intercalate wordings ++ "\n"

end Failure

/-- What comes of a run; the state of the network is after it. -/
structure Report (σ : Type) where
  stdout : String
  /-- What is written about while the run goes on. -/
  warnings : List Failure
  /-- What ended the run. -/
  failure : Option Failure
  network : σ

namespace Report

/-- A run that only writes. -/
def wrote (network : σ) (text : String) : Report σ := ⟨text, [], none, network⟩

/-- A run that fails. -/
def failed (network : σ) (failure : Failure) : Report σ := ⟨"", [], some failure, network⟩

/-- The exit code. -/
def code (report : Report σ) : Nat :=
  match report.failure with
  | none => 0
  | some (.usage _) => 2
  | some _ => 1

/-- What is written to the stream of errors. -/
def stderr (report : Report σ) : String :=
  String.join ((report.warnings ++ report.failure.toList).map Failure.text)

/-- The same with another network. -/
def withNetwork (report : Report σ) (network : τ) : Report τ := { report with network }

/-- What comes of an operation on a store. -/
def ofAnswer (answer : Answer σ α) (write : α → String) : Report σ :=
  match answer.outcome with
  | .ok value => .wrote answer.state (write value)
  | .error error => .failed answer.state (.store error)

end Report

/-! ## Settings -/

/-- The variables of the surroundings and of the file of variables. -/
def Surroundings.fullEnvironment (around : Surroundings σ) : Config.Environment :=
  match around.files ".env" with
  | some text => Config.addFile around.environment text
  | none => around.environment

namespace Invocation

/-- Puts what the command line says in the place of settings. Only warnings are logged unless more is
asked for. -/
def override (invocation : Invocation) (settings : Settings) : Settings :=
  let settings := match invocation.databaseUrl with
    | none => settings
    | some url =>
      let database : DatabaseSettings := match settings.database with
        | some database => { database with url }
        | none => { url }
      { settings with backend := .postgres, database := some database }
  let settings := match invocation.logServerUrl with
    | none => settings
    | some url =>
      let server : LogServerSettings := match settings.logServer with
        | some server => { server with url }
        | none => { url }
      { settings with backend := .logServer, logServer := some server }
  let level := if invocation.isVerbose then settings.logging.level else "warn"
  { settings with
    logging := { settings.logging with format := .compact, output := .stderr, level } }

/-- Loads the settings of an invocation and checks what is to be logged. -/
def loadSettings (invocation : Invocation) (around : Surroundings σ)
    (environment : Config.Environment) : Except Failure Settings := do
  let settings ← match invocation.settings with
    | none => (Settings.load environment none).mapError (.settings "the environment")
    | some name =>
      ((SettingsFile.find around.files name).bind fun file =>
        Settings.load environment (some file)).mapError (.settings name)
  let settings := invocation.override settings
  match LogFilter.build? settings.logging (environment.get? "RUST_LOG") with
  | some _ => .ok settings
  | none => .error .logFilter

end Invocation

/-! ## Following a stream -/

/-- What a subscription gives until it waits or closes, for so many steps at most. -/
def follow (backend : Backend τ) : Nat → FeedView τ → List (Outcome Record) × τ
  | 0, view => ([], view.state)
  | fuel + 1, view =>
    match view.channel.receive with
    | (.closed, _) => ([], view.state)
    | (.item outcome, channel) =>
      let (rest, state) := follow backend fuel { view with channel }
      (outcome :: rest, state)
    | (.pending, channel) =>
      match backend.feed 0 { view with channel } with
      | some (view, _) => follow backend fuel view
      | none => ([], view.state)

/-- Follows a stream until nothing more comes at once. -/
def followStream (backend : Backend τ) (format : OutputFormat) (stream : StreamId)
    (options : SubscribeOptions) (state : τ) : Report τ :=
  let answer := backend.subscribe stream options state
  match answer.outcome with
  | .error error => .failed answer.state (.store error)
  | .ok (channel, feeder) =>
    let (outcomes, state) := follow backend 1000000 ⟨feeder, channel, answer.state⟩
    let opening := notice ("Following " ++ stream.name ++ " (Ctrl-C to stop)")
    let lines := outcomes.filterMap fun outcome => outcome.toOption.map (feedLine format)
    let errors := outcomes.filterMap fun
      | .error error => some (Failure.store error)
      | .ok _ => none
    ⟨opening ++ String.join lines, errors, none, state⟩

/-! ## Actions -/

/-- The event that was given. -/
def GivenEvent.event (given : GivenEvent) (fresh : EventId) : Except Failure Event := do
  let payload ← (Json.parse given.payload).mapError .payload
  let metadata ← match given.metadata with
    | some text => (Json.parseObject text).mapError .metadata
    | none => .ok []
  pure { id := given.id.getD fresh, typeName := given.typeName, payload, metadata := ⟨metadata⟩ }

/-- Does what is asked with the streams of a store. -/
def StreamAction.perform (action : StreamAction) (backend : Backend τ) (around : Surroundings σ)
    (format : OutputFormat) (state : τ) : Report τ :=
  let store := backend.store around.now around.markerId
  match action with
  | .read stream options =>
    .ofAnswer (store.read stream options state) fun slice => recordList format slice.records
  | .append stream given expected =>
    match given.event around.eventId with
    | .error failure => .failed state failure
    | .ok event => .ofAnswer (store.append stream [event] expected state) (appended format)
  | .info stream => .ofAnswer (store.bounds stream state) (boundsItem format)
  | .truncate stream before =>
    .ofAnswer (store.truncate stream before state) fun _ =>
      success ("Truncated " ++ stream.name ++ " before " ++ toString before.toInt)
  | .delete stream =>
    .ofAnswer (store.delete stream state) fun _ => success ("Deleted " ++ stream.name)
  | .tail stream options => followStream backend format stream options state

/-- Does what is asked with the streams of the store that settings lead to. -/
def StreamAction.performWith (action : StreamAction) (settings : Settings) (around : Surroundings σ)
    (format : OutputFormat) (network : σ) : Report σ :=
  match settings.connect with
  | .error error => .failed network (.store error)
  | .ok .memory => (action.perform .memory around format .empty).withNetwork network
  | .ok (.logServer log) =>
    action.perform (.logServer (log.client around.transport)) around format network

/-- Does what is asked with the database that settings lead to; every action starts by connecting, and
no connection comes about. -/
def DatabaseAction.performWith (_ : DatabaseAction) (settings : Settings) (network : σ) : Report σ :=
  match settings.database with
  | none => .failed network .noDatabase
  | some database => .failed network (.store database.refusal)

/-- Does what an invocation asks for. -/
def Invocation.perform (invocation : Invocation) (around : Surroundings σ)
    (environment : Config.Environment) (network : σ) : Report σ :=
  match invocation.loadSettings around environment with
  | .error failure => .failed network failure
  | .ok settings =>
    match invocation.action with
    | .onStore action => action.performWith settings around invocation.format network
    | .onDatabase action => action.performWith settings network

/-! ## Command lines -/

/-- The version of the program. -/
def version : String := "0.1.0"

/-- The names of the files that may hold the settings of a command line. -/
def settingsNames (environment : Config.Environment) (words : List String) : List String :=
  match program.parse words with
  | .ok (.run levels) =>
    match (sharedValue? levels "config").orElse fun _ => environment.get? settingsVariable with
    | some name => name :: SettingsFormat.endings.map fun (ending, _) => name ++ "." ++ ending
    | none => []
  | _ => []

/-- Runs a command line. -/
def run (around : Surroundings σ) (words : List String) (network : σ) : Report σ :=
  let environment := around.fullEnvironment
  match program.parse words with
  | .error error => .failed network (.usage error)
  | .ok (.version path) => .wrote network ("-".intercalate path ++ " " ++ version ++ "\n")
  | .ok (.help path detail) =>
    match program.help? environment.get? detail path with
    | some text => .wrote network text
    | none => .failed network (.usage (.missingCommand path))
  | .ok (.run levels) =>
    match environment.get? settingsVariable with
    | some "" => .failed network (.usage (.missingValue "config"))
    | named =>
      match Invocation.ofLevels? levels named with
      | some invocation => invocation.perform around environment network
      | none => .failed network (.usage (.missingCommand (levels.map (·.command))))

theorem run_code_of_usage {around : Surroundings σ} {words : List String} {error : UsageError}
    (h : program.parse words = .error error) (network : σ) :
    (run around words network).code = 2 ∧ (run around words network).stdout = "" := by
  simp [run, h, Report.failed, Report.code]

end EventJournal.Cli
