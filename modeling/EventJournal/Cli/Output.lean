import EventJournal.Cli.Invocation
import EventJournal.Cli.Table
import EventJournal.Event.Basic
import EventJournal.Json.Text
import EventJournal.Yaml.Writer

/-!
# Results as they are written

Records are written as rows of a table, as JSON or as YAML; so are the bounds of a stream, which take the
place of a table as lines of names and values. The fields keep their order in every form.

Main statement: `rowValue_fields`, a row has a field for each column.
-/

namespace EventJournal.Cli

/-- Lines as one text. -/
def unlines (lines : List String) : String := String.join (lines.map (· ++ "\n"))

/-- The message of a success. -/
def success (message : String) : String := "[OK] " ++ message ++ "\n"

/-- The message of what goes on. -/
def notice (message : String) : String := "[INFO] " ++ message ++ "\n"

/-! ## Records -/

/-- The columns of a table of records. -/
def columns : List String := ["Seq", "Stream", "Version", "ID", "Type", "Recorded", "Payload"]

/-- A record as a row of a table. -/
def rowCells (record : Record) : List String :=
  [record.sequence.text, record.stream.name, record.version.text, record.id.name, record.typeName,
    record.recordedAt.offsetText, record.event.payload.compact]

/-- A record as a value, its fields in the order of the columns. -/
def rowValue (record : Record) : Json :=
  .obj [("sequence", .int record.sequence.toInt), ("stream", .str record.stream.name),
    ("version", .int record.version.toInt), ("id", .str record.id.name),
    ("type_name", .str record.typeName), ("recorded_at", .str record.recordedAt.offsetText),
    ("payload", record.event.payload)]

theorem rowValue_fields (record : Record) :
    (rowValue record).asFields?.map List.length = some columns.length := rfl

/-- Records as a list. -/
def recordList (format : OutputFormat) (records : List Record) : String :=
  match format with
  | .table =>
    if records.isEmpty then "No events found.\n"
    else unlines (tableLines columns (records.map rowCells))
  | .json => (Json.arr (records.map rowValue)).pretty ++ "\n"
  | .yaml => Yaml.render (.arr (records.map rowValue))

/-- A record of a feed. -/
def feedLine (format : OutputFormat) (record : Record) : String :=
  match format with
  | .table =>
    "#" ++ record.sequence.text ++ " " ++ record.stream.name ++ "@" ++ record.version.text ++ " " ++
      record.typeName ++ " " ++ record.event.payload.compact ++ "\n"
  | .json => (rowValue record).compact ++ "\n"
  | .yaml => "---\n" ++ Yaml.render (rowValue record)

/-- Records that were appended. -/
def appended (format : OutputFormat) (records : List Record) : String :=
  match format with
  | .table =>
    String.join (records.map fun record =>
      success ("Appended " ++ record.id.name ++ " to " ++ record.stream.name ++ " at version " ++
        record.version.text ++ " (sequence " ++ record.sequence.text ++ ")"))
  | format => recordList format records

/-! ## Single results -/

/-- A result with details: their names, their texts and the value they are of. -/
def item (format : OutputFormat) (details : List (String × String)) (value : Json) : String :=
  match format with
  | .table => unlines (details.map fun (name, text) => "  " ++ name ++ ": " ++ text)
  | .json => value.pretty ++ "\n"
  | .yaml => Yaml.render value

/-- The bounds of a stream. -/
def boundsItem (format : OutputFormat) (bounds : StreamBounds) : String :=
  item format
    [("Stream", bounds.id.name), ("Version", bounds.version.text),
      ("Initial version", bounds.initialVersion.text)]
    (.obj [("id", .str bounds.id.name), ("version", .int bounds.version.toInt),
      ("initial_version", .int bounds.initialVersion.toInt)])

end EventJournal.Cli
