import EventJournal.Config.Reading

/-!
# Settings of the log

How much is logged, where it goes and how a line looks. Every setting has a default.
-/

namespace EventJournal

open Json (Decoder Shape)

/-- How log lines look. -/
inductive LogFormat where
  | json
  | pretty
  | compact
  deriving Repr, DecidableEq, Inhabited

namespace LogFormat

/-- The name of a format. -/
def name : LogFormat → String
  | json => "json"
  | pretty => "pretty"
  | compact => "compact"

/-- The formats by name. -/
def known : List (String × LogFormat) := [json, pretty, compact].map fun format => (format.name, format)

end LogFormat

/-- Where log lines go. -/
inductive LogOutput where
  | stdout
  | stderr
  deriving Repr, DecidableEq, Inhabited

namespace LogOutput

/-- The name of an output. -/
def name : LogOutput → String
  | stdout => "stdout"
  | stderr => "stderr"

/-- The outputs by name. -/
def known : List (String × LogOutput) := [stdout, stderr].map fun output => (output.name, output)

end LogOutput

/-- The settings of the log. -/
structure LoggingSettings where
  level : String := "info"
  format : LogFormat := .json
  output : LogOutput := .stdout
  /-- Levels of single modules, in the order of their names. -/
  moduleLevels : List (String × String) := []
  includeLocation : Bool := false
  includeTarget : Bool := true
  spanCloseEvents : Bool := false
  deriving Repr, DecidableEq

namespace LoggingSettings

/-- The settings when nothing is said. -/
def standard : LoggingSettings := {}

instance : Inhabited LoggingSettings := ⟨standard⟩

/-- Reads the settings of the log. -/
def decode (reading : Config.Reading) : Decoder LoggingSettings := fun value => do
  let format := reading.variant "LogFormat" LogFormat.known
  let output := reading.variant "LogOutput" LogOutput.known
  let levels := Decoder.map reading.text
  let members ← reading.members ⟨"LoggingConfig", [
    .defaulted "level" reading.text, .defaulted "format" format, .defaulted "output" output,
    .defaulted "module_levels" levels, .defaulted "include_location" reading.flag,
    .defaulted "include_target" reading.flag, .defaulted "span_close_events" reading.flag]⟩ value
  let usual := standard
  pure {
    level := ← Json.fieldD members "level" reading.text usual.level
    format := ← Json.fieldD members "format" format usual.format
    output := ← Json.fieldD members "output" output usual.output
    moduleLevels := ← Json.fieldD members "module_levels" levels usual.moduleLevels
    includeLocation := ← Json.fieldD members "include_location" reading.flag usual.includeLocation
    includeTarget := ← Json.fieldD members "include_target" reading.flag usual.includeTarget
    spanCloseEvents := ← Json.fieldD members "span_close_events" reading.flag usual.spanCloseEvents }

/-- The settings of the log as they are reported. -/
def toJson (settings : LoggingSettings) : Json :=
  .ofPairs [("level", .str settings.level), ("format", .str settings.format.name),
    ("output", .str settings.output.name),
    ("module_levels", .ofPairs (settings.moduleLevels.map fun (name, level) => (name, .str level))),
    ("include_location", .bool settings.includeLocation),
    ("include_target", .bool settings.includeTarget),
    ("span_close_events", .bool settings.spanCloseEvents)]

end LoggingSettings

end EventJournal
