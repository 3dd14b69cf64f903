import EventJournal.Json.Basic

/-!
# Layers of settings

Settings are a tree of tables, put together from layers. A layer is a list of values, each with the path
to where it goes, and a later layer wins: a table is merged into the one that is there, and any other
value replaces what is there. What a path leads through becomes a table.

A variable of the environment whose name starts with `EVENTLOG__` is one such value; its name without
that start is the path, two underscores between the keys.

Main statement: `assign_key`, a plain value assigned to a key is what the table holds under it.
-/

namespace EventJournal.Config

/-- The variables of a process. -/
abbrev Environment := List (String × String)

/-! ## Merging -/

/-- The members of a table; any other value has none. -/
def tableOf (value : Json) : Fields := value.asFields?.getD []

mutual

/-- A value that comes upon another. -/
def mergeValue (base : Json) : Json → Json
  | .obj incoming => mergeMembers (if base = .null then .obj [] else base) incoming
  | value => value

/-- Members that come into a table one after another. -/
def mergeMembers (base : Json) : List (String × Json) → Json
  | [] => base
  | (key, value) :: rest =>
    let fields := tableOf base
    let merged := mergeValue ((fields.get? key).getD .null) value
    mergeMembers (.obj (fields.insert key merged)) rest

end

/-- Puts a value at the end of a path. -/
def assign : List String → Json → Json → Json
  | [], value, base => mergeValue base value
  | key :: path, value, base =>
    let fields := tableOf base
    .obj (fields.insert key (assign path value ((fields.get? key).getD .null)))

theorem assign_key (key text : String) (base : Json) :
    (assign [key] (.str text) base).get? key = some (.str text) := by
  simp [assign, mergeValue, Json.get?, Json.asFields?, Fields.get?_insert_self]

/-! ## Paths -/

/-- Whether a character may stand in a key of a path. -/
def isPathChar (c : Char) : Bool := c.isAlphanum || c = '_' || c = '-'

/-- The keys of a path with points between them; a text that is no path is one key. -/
def pathOf (text : String) : List String :=
  let keys := text.splitOn "."
  if keys.all fun key => key ≠ "" && key.toList.all isPathChar then keys else [text]

/-- Puts the members of a table at the paths that their names are. -/
def addTable (members : Fields) (base : Json) : Json :=
  members.foldl (fun base (name, value) => assign (pathOf name) value base) base

/-! ## The environment -/

/-- What the names of the variables that count start with, in small letters. -/
def variableStart : List Char := "eventlog__".toList

/-- Reads a name as a path: a point for each two underscores. -/
def dotted : List Char → List Char
  | '_' :: '_' :: rest => '.' :: dotted rest
  | c :: rest => c :: dotted rest
  | [] => []

/-- The path that a variable sets, if it counts. Capital letters are the same as small ones. -/
def variablePath? (name : String) : Option (List String) :=
  let lower := name.toList.map Char.toLower
  if variableStart.isPrefixOf lower then
    some (pathOf (String.ofList (dotted (lower.drop variableStart.length))))
  else none

/-- Puts the values of the variables that count at their paths. -/
def addEnvironment (environment : Environment) (base : Json) : Json :=
  environment.foldl (fun base (name, value) =>
    match variablePath? name with
    | some path => assign path (.str value) base
    | none => base) base

/-- Whether a variable sets the value at a path. -/
def isFromEnvironment (environment : Environment) (path : List String) : Bool :=
  environment.any fun (name, _) => variablePath? name = some path

end EventJournal.Config
