import EventJournal.Config.Connect
import EventJournal.Error.Codec

/-!
# JSON form of settings

Settings as they are reported, with every default filled in. A length of time is a pair of seconds and
nanoseconds.
-/

namespace EventJournal

/-- A length of time as it is reported. -/
def Duration.toJson (duration : Duration) : Json :=
  .arr [.int duration.seconds, .int duration.nanos]

/-- The section of the database as it is reported. -/
def DatabaseSettings.toJson (settings : DatabaseSettings) : Json :=
  .ofPairs [("url", .str settings.url), ("max_connections", .int settings.maxConnections.toNat),
    ("min_connections", .int settings.minConnections.toNat),
    ("acquire_timeout", settings.acquireTimeout.toJson)]

/-- The section of the log server as it is reported. -/
def LogServerSettings.toJson (settings : LogServerSettings) : Json :=
  .ofPairs [("url", .str settings.url), ("username", Json.ofOption .str settings.username),
    ("password", Json.ofOption .str settings.password),
    ("poll_interval", settings.pollInterval.toJson),
    ("request_timeout", settings.requestTimeout.toJson)]

/-- The section of the metrics as it is reported. -/
def MetricsSettings.toJson (settings : MetricsSettings) : Json :=
  .ofPairs [("enabled", .bool settings.enabled),
    ("listen", Json.ofOption (fun address => .str address.text) settings.listen),
    ("global_labels", .ofPairs (settings.globalLabels.map fun (name, value) => (name, .str value)))]

/-- All settings as they are reported. -/
def Settings.toJson (settings : Settings) : Json :=
  .ofPairs [("backend", .str settings.backend.name),
    ("commit_strategy", .str settings.commitStrategy.name),
    ("database", Json.ofOption DatabaseSettings.toJson settings.database),
    ("log_server", Json.ofOption LogServerSettings.toJson settings.logServer),
    ("logging", settings.logging.toJson), ("metrics", settings.metrics.toJson),
    ("otlp_endpoint", Json.ofOption .str settings.otlpEndpoint),
    ("service_name", .str settings.serviceName)]

/-- A failure to get settings as it is reported. Only what the journal itself asks of them is worded. -/
def SettingsError.toJson (error : SettingsError) : Json :=
  let wording := match error with
    | .missingSection _ => [("message", Json.str error.toStoreError.message)]
    | _ => []
  .ofPairs (("error", .str error.toStoreError.code.name) :: wording)

/-- An attempt to connect as it is reported. -/
def Connection.report : Outcome Connection → Json
  | .ok connection => .obj [("ok", .str connection.name)]
  | .error error => .ofPairs [("error", .str error.code.name), ("message", .str error.message)]

end EventJournal
