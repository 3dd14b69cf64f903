import EventJournal.Config.Layers
import EventJournal.Config.Settings
import EventJournal.Json.Reader
import EventJournal.Toml.Reader
import EventJournal.Yaml.Reader

/-!
# Loading settings

Settings come from a file, if one is named, and from the environment on top of it. The ending of a file's
name says whether it holds JSON, TOML or YAML; its root has to be a table.

* `Settings.load` reads both layers and checks the result.
* `SettingsError.message` says what is wrong and where.

Main statement: `validate_of_load`, settings that load have the section of their backend.
-/

namespace EventJournal

/-! ## Failures -/

/-- Why there are no settings. -/
inductive SettingsError where
  | missingFile (name : String)
  | unknownFormat (name : String)
  | malformed (name reason : String)
  /-- A value does not fit; the keys that lead to it, why, and which layer it is from. -/
  | unfit (path : List String) (reason : String) (source : Option String)
  | missingSection (backend : BackendKind)
  deriving Repr, DecidableEq

namespace SettingsError

/-- What is wrong with settings. -/
def detail : SettingsError → String
  | missingFile name => "configuration file " ++ Text.quoted name ++ " not found"
  | unknownFormat name =>
    "configuration file " ++ Text.quoted name ++ " is not of a registered file format"
  | malformed name reason => reason ++ " in " ++ name
  | unfit path reason source =>
    reason ++ (if path.isEmpty then "" else " for key `" ++ ".".intercalate path ++ "`") ++
      source.elim "" (" in " ++ ·)
  | missingSection backend =>
    "the " ++ backend.name ++ " backend requires a [" ++
      (match backend with
        | .postgres => "database"
        | other => other.name) ++ "] section with a url"

/-- The failure of the journal that this is. -/
def toStoreError (error : SettingsError) : StoreError := .configuration error.detail

end SettingsError

/-! ## Files -/

/-- The formats of a file of settings. -/
inductive SettingsFormat where
  | json
  | toml
  | yaml
  deriving Repr, DecidableEq

namespace SettingsFormat

/-- The endings of file names and their formats. -/
def endings : List (String × SettingsFormat) :=
  [("json", json), ("toml", toml), ("yaml", yaml), ("yml", yaml)]

/-- The format of a file by the ending of its name. -/
def ofName? (name : String) : Option SettingsFormat :=
  match (name.splitOn ".").getLast? with
  | some ending => endings.lookup ending
  | none => none

/-- Reads the value of a text; a text without one holds an empty table. -/
def parse (format : SettingsFormat) (text : String) : Except String Json :=
  match format with
  | json => (Json.parse text).mapError (·.message)
  | toml =>
    match Toml.parse? text with
    | some fields => .ok (.obj fields)
    | none => .error "TOML parse error"
  | yaml =>
    match Yaml.parse? text with
    | some value => .ok (value.getD (.obj []))
    | none => .error "YAML parse error"

end SettingsFormat

/-- A file of settings. -/
structure SettingsFile where
  name : String
  format : SettingsFormat
  text : String
  deriving Repr, DecidableEq

namespace SettingsFile

/-- The file of a name; without one of that name, the first whose name goes on with a known ending. -/
def find (files : String → Option String) (name : String) : Except SettingsError SettingsFile :=
  match files name with
  | some text =>
    match SettingsFormat.ofName? name with
    | some format => .ok ⟨name, format, text⟩
    | none => .error (.unknownFormat name)
  | none =>
    let known := SettingsFormat.endings.findSome? fun (ending, format) =>
      let longer := name ++ "." ++ ending
      (files longer).map fun text => ⟨longer, format, text⟩
    match known with
    | some file => .ok file
    | none => .error (.missingFile name)

/-- The members of the root table. -/
def table (file : SettingsFile) : Except SettingsError Fields :=
  match file.format.parse file.text with
  | .error reason => .error (.malformed file.name reason)
  | .ok (.obj fields) => .ok fields
  | .ok value =>
    .error (.malformed file.name
      ("invalid type: " ++ Config.Reading.kindOf value ++ ", expected a map in " ++ file.name))

end SettingsFile

/-! ## Loading -/

namespace Settings

/-- Says which layer a value that does not fit is from. -/
def located (environment : Config.Environment) (file : Option SettingsFile) (error : Json.DecodeError) :
    SettingsError :=
  let path := error.path
  let mistyped : Bool := match Json.DecodeError.core error with
    | .invalidType _ _ => true
    | _ => false
  let source :=
    if !mistyped then none
    else if Config.isFromEnvironment environment path then some "the environment"
    else file.map (·.name)
  .unfit path error.message source

/-- What a file says, if there is one. -/
def fileTable : Option SettingsFile → Except SettingsError Json
  | some file => file.table.map fun members => Config.addTable members (.obj [])
  | none => .ok (.obj [])

/-- Refuses settings without the section of their backend. -/
def checked (settings : Settings) : Except SettingsError Settings :=
  match settings.validate with
  | .ok () => .ok settings
  | .error backend => .error (.missingSection backend)

theorem checked_eq_ok_iff {settings other : Settings} :
    settings.checked = .ok other ↔ settings = other ∧ other.validate = .ok () := by
  unfold checked
  split
  · rename_i hvalid
    constructor
    · rintro ⟨⟩
      exact ⟨rfl, hvalid⟩
    · rintro ⟨rfl, -⟩
      rfl
  · rename_i hinvalid
    constructor
    · nofun
    · rintro ⟨rfl, hvalid⟩
      cases hvalid.symm.trans hinvalid

/-- Reads the settings of a file and the environment, and checks that the section of the backend is
there. -/
def load (environment : Config.Environment) (file : Option SettingsFile) : Except SettingsError Settings := do
  let base ← fileTable file
  let settings ←
    (Settings.decode .coercing (Config.addEnvironment environment base)).mapError
      (located environment file)
  settings.checked

/-- Settings that load have the section of their backend. -/
theorem validate_of_load {environment : Config.Environment} {file : Option SettingsFile} {settings : Settings}
    (h : load environment file = .ok settings) : settings.validate = .ok () := by
  simp only [load, bind, Except.bind] at h
  split at h
  · cases h
  · split at h
    · cases h
    · exact (checked_eq_ok_iff.mp h).2

end Settings

end EventJournal
