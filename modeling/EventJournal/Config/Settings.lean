import EventJournal.Process.Processor
import EventJournal.Telemetry.Logging
import EventJournal.Time.Duration
import EventJournal.Url.SocketAddress

/-!
# Settings

What can be configured: the backend of the store, how to reach it, when processors commit, and what is
logged and measured. Every setting has a default but the address of a database or a log server; a section
with one need not be there at all, unless the backend is the one it describes.

Main statement: `validate_ok_iff`, settings are valid when the section of their backend is there.
-/

namespace EventJournal

open Json (Decoder DecodeError Shape)
open Config (Reading)

/-! ## Sections -/

/-- The backends of a store. -/
inductive BackendKind where
  | memory
  | postgres
  | logServer
  deriving Repr, DecidableEq, Inhabited

namespace BackendKind

/-- The name of a backend. -/
def name : BackendKind → String
  | memory => "memory"
  | postgres => "postgres"
  | logServer => "log_server"

/-- The backends by name. -/
def known : List (String × BackendKind) :=
  [memory, postgres, logServer].map fun backend => (backend.name, backend)

end BackendKind

/-- How to reach a relational database. -/
structure DatabaseSettings where
  url : String
  maxConnections : UInt32 := 20
  minConnections : UInt32 := 2
  /-- How long to wait for a connection. -/
  acquireTimeout : Duration := .ofSeconds 5
  deriving Repr, DecidableEq

/-- How to reach a log server. -/
structure LogServerSettings where
  url : String
  username : Option String := none
  password : Option String := none
  /-- How long subscriptions wait between two polls. -/
  pollInterval : Duration := .ofMillis 500
  requestTimeout : Duration := .ofSeconds 10
  deriving Repr, DecidableEq

/-- What is measured. -/
structure MetricsSettings where
  enabled : Bool := false
  /-- Where measurements are served. -/
  listen : Option SocketAddress := none
  /-- Labels of every metric, in the order of their names. -/
  globalLabels : List (String × String) := []
  deriving Repr, DecidableEq

/-- All settings. -/
structure Settings where
  backend : BackendKind := .memory
  database : Option DatabaseSettings := none
  logServer : Option LogServerSettings := none
  commitStrategy : CommitStrategy := .afterHandling
  serviceName : String := "eventlog"
  /-- Where traces are exported to. -/
  otlpEndpoint : Option String := none
  logging : LoggingSettings := {}
  metrics : MetricsSettings := {}
  deriving Repr, DecidableEq

namespace Settings

/-- The settings when nothing is said. -/
def standard : Settings := {}

instance : Inhabited Settings := ⟨standard⟩

/-- Whether the section of the backend is there. -/
def hasSection (settings : Settings) : Bool :=
  match settings.backend with
  | .memory => true
  | .postgres => settings.database.isSome
  | .logServer => settings.logServer.isSome

/-- Refuses settings without the section of their backend; the refusal is that backend. -/
def validate (settings : Settings) : Except BackendKind Unit :=
  if settings.hasSection then .ok () else .error settings.backend

theorem validate_ok_iff (settings : Settings) :
    settings.validate = .ok () ↔
      (settings.backend = .postgres → settings.database.isSome) ∧
        (settings.backend = .logServer → settings.logServer.isSome) := by
  unfold validate hasSection
  cases settings.backend <;> simp [Option.isSome_iff_ne_none]

end Settings

/-! ## Decoding -/

/-- Reads a text in a format of its own; `refusal` is why a text is refused. -/
def textDecoder (refusal : String → DecodeError) (parse : String → Option α) : Decoder α := fun value => do
  let text ← Reading.coerceText value
  match parse text with
  | some x => .ok x
  | none => .error (refusal text)

/-- A length of time. -/
def durationDecoder : Decoder Duration :=
  textDecoder (fun text => .invalidValue ("string " ++ Text.quoted text) "a duration") Duration.parse?

/-- A socket address. -/
def addressDecoder : Decoder SocketAddress :=
  textDecoder (fun _ => .invalidText "invalid socket address syntax") SocketAddress.parse?

/-- Reads the section of the database. -/
def DatabaseSettings.decode (reading : Reading) : Decoder DatabaseSettings := fun value => do
  let count := Reading.coerceUInt32
  let members ← reading.members ⟨"DatabaseConfig", [.required "url" reading.text,
    .defaulted "max_connections" count, .defaulted "min_connections" count,
    .defaulted "acquire_timeout" durationDecoder]⟩ value
  let usual : DatabaseSettings := ⟨← Json.field members "url" reading.text, 20, 2, .ofSeconds 5⟩
  pure { usual with
    maxConnections := ← Json.fieldD members "max_connections" count usual.maxConnections
    minConnections := ← Json.fieldD members "min_connections" count usual.minConnections
    acquireTimeout := ← Json.fieldD members "acquire_timeout" durationDecoder usual.acquireTimeout }

/-- Reads the section of the log server. -/
def LogServerSettings.decode (reading : Reading) : Decoder LogServerSettings := fun value => do
  let text := Decoder.option reading.text
  let members ← reading.members ⟨"LogServerConfig", [.required "url" reading.text,
    .optional "username" text, .optional "password" text,
    .defaulted "poll_interval" durationDecoder, .defaulted "request_timeout" durationDecoder]⟩ value
  let usual : LogServerSettings := { url := ← Json.field members "url" reading.text }
  pure { usual with
    username := ← Json.fieldD members "username" text usual.username
    password := ← Json.fieldD members "password" text usual.password
    pollInterval := ← Json.fieldD members "poll_interval" durationDecoder usual.pollInterval
    requestTimeout := ← Json.fieldD members "request_timeout" durationDecoder usual.requestTimeout }

/-- Reads the section of the metrics. -/
def MetricsSettings.decode (reading : Reading) : Decoder MetricsSettings := fun value => do
  let listen := Decoder.option addressDecoder
  let labels := Decoder.map reading.text
  let members ← reading.members ⟨"MetricsConfig", [.defaulted "enabled" reading.flag,
    .optional "listen" listen, .defaulted "global_labels" labels]⟩ value
  pure {
    enabled := ← Json.fieldD members "enabled" reading.flag false
    listen := ← Json.fieldD members "listen" listen none
    globalLabels := ← Json.fieldD members "global_labels" labels [] }

/-- What is observed: the service's name, where traces go, the log and the metrics. -/
structure ObservabilitySettings where
  serviceName : String := "eventlog"
  otlpEndpoint : Option String := none
  logging : LoggingSettings := {}
  metrics : MetricsSettings := {}

/-- Reads the section of what is observed. -/
def ObservabilitySettings.decode (reading : Reading) : Decoder ObservabilitySettings := fun value => do
  let endpoint := Decoder.option reading.text
  let logging := LoggingSettings.decode reading
  let metrics := MetricsSettings.decode reading
  let members ← reading.members ⟨"ObservabilityConfig", [.defaulted "service_name" reading.text,
    .optional "otlp_endpoint" endpoint, .defaulted "logging" logging,
    .defaulted "metrics" metrics]⟩ value
  let usual : ObservabilitySettings := {}
  pure {
    serviceName := ← Json.fieldD members "service_name" reading.text usual.serviceName
    otlpEndpoint := ← Json.fieldD members "otlp_endpoint" endpoint usual.otlpEndpoint
    logging := ← Json.fieldD members "logging" logging usual.logging
    metrics := ← Json.fieldD members "metrics" metrics usual.metrics }

/-- Reads a section of one setting. -/
def sectionDecoder (reading : Reading) (type field : String) (decode : Decoder α) (default : α) :
    Decoder α := fun value => do
  let members ← reading.members ⟨type, [.defaulted field decode]⟩ value
  Json.fieldD members field decode default

/-- Reads all settings. -/
def Settings.decode (reading : Reading) : Decoder Settings := fun value => do
  let backend := reading.variant "BackendKind" BackendKind.known
  let store := sectionDecoder reading "StoreConfig" "backend" backend .memory
  let database := Decoder.option (DatabaseSettings.decode reading)
  let logServer := Decoder.option (LogServerSettings.decode reading)
  let strategy := reading.variant "CommitStrategy" CommitStrategy.known
  let processor :=
    sectionDecoder reading "ProcessingConfig" "commit_strategy" strategy .afterHandling
  let observability := ObservabilitySettings.decode reading
  let members ← reading.members ⟨"Config", [.defaulted "store" store,
    .optional "database" database, .optional "log_server" logServer,
    .defaulted "processor" processor, .defaulted "observability" observability]⟩ value
  let observed ← Json.fieldD members "observability" observability {}
  pure {
    backend := ← Json.fieldD members "store" store .memory
    database := ← Json.fieldD members "database" database none
    logServer := ← Json.fieldD members "log_server" logServer none
    commitStrategy := ← Json.fieldD members "processor" processor .afterHandling
    serviceName := observed.serviceName
    otlpEndpoint := observed.otlpEndpoint
    logging := observed.logging
    metrics := observed.metrics }

end EventJournal
