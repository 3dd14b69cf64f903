import EventJournal.Cli.Grammar

/-!
# Help texts

What a command is for, how it is called, and an entry for each command below it, each operand and each
option. A summary has a line for each entry, and its meanings stand in one column; they stand on lines of
their own if the column would start far to the right and one of them would not fit. A full text has a
paragraph for each entry and says what the values of an option mean.

The options of the root stand among those of a command: first comes whatever was declared first in either
list, and of two the one whose letter comes first in the alphabet.

Main statements: `find?_append`, a path leads through the commands on it; `length_arranged`, every option has
its place.
-/

namespace EventJournal.Cli

/-- The command at a path below another. -/
def CommandSpec.find? (spec : CommandSpec) : List String → Option CommandSpec
  | [] => some spec
  | name :: path =>
    match spec.commands.find? (·.name = name) with
    | some inner => inner.find? path
    | none => none

/-- A path that goes on leads on from where it led. -/
theorem CommandSpec.find?_append (spec : CommandSpec) (path more : List String) :
    spec.find? (path ++ more) = (spec.find? path).bind (·.find? more) := by
  induction path generalizing spec with
  | nil => rfl
  | cons name path ih =>
    simp only [List.cons_append, find?]
    cases spec.commands.find? (·.name = name) with
    | none => rfl
    | some inner => exact ih inner

/-! ## Options -/

namespace OptionSpec

/-- What an option is sorted by: its letter, small before capital, or else its name. -/
def sortKey (option : OptionSpec) : String :=
  match option.letter with
  | some c => String.ofList [c.toLower, if c.isLower then '0' else '1']
  | none => option.name

/-- The options of a command and of the root in the order of their places in either list. -/
def arranged (own shared : List OptionSpec) : List OptionSpec :=
  let before (a b : OptionSpec × Nat) : Bool :=
    a.2 < b.2 || (a.2 = b.2 && a.1.sortKey ≤ b.1.sortKey)
  ((own.zipIdx ++ shared.zipIdx).mergeSort before).map Prod.fst

theorem length_arranged (own shared : List OptionSpec) :
    (arranged own shared).length = own.length + shared.length := by
  simp [arranged]

/-- The options that every command has. -/
def builtin (detail : HelpDetail) : List OptionSpec :=
  let hint := match detail with
    | .summary => "see more with '--help'"
    | .full => "see a summary with '-h'"
  [{ name := "help", letter := some 'h', kind := .flag, help := "Print help (" ++ hint ++ ")" },
    { name := "version", letter := some 'V', kind := .flag, help := "Print version" }]

/-- How an option is written. -/
def usage (option : OptionSpec) : String :=
  "--" ++ option.name ++ (if option.kind = .flag then "" else " <" ++ option.placeholder ++ ">")

end OptionSpec

/-- How an operand is written. -/
def OperandSpec.usage (operand : OperandSpec) : String :=
  if operand.isMany then "[" ++ operand.name ++ "]..." else "<" ++ operand.name ++ ">"

/-! ## Entries -/

/-- An entry of a help text. -/
structure HelpEntry where
  /-- What stands before the words that are explained. -/
  lead : String := ""
  usage : String
  help : String
  /-- Remarks in brackets. -/
  remarks : List String := []
  /-- Values and what they mean. -/
  choices : List (String × String) := []

namespace HelpEntry

/-- The entry of a command. -/
def ofCommand (spec : CommandSpec) : HelpEntry := { usage := spec.name, help := spec.about }

/-- The entry of an operand. -/
def ofOperand (operand : OperandSpec) : HelpEntry := { usage := operand.usage, help := operand.help }

/-- The entry of an option, given the values of variables. -/
def ofOption (valueOf : String → Option String) (option : OptionSpec) : HelpEntry where
  lead := option.letter.elim "    " fun c => "-" ++ String.ofList [c] ++ ", "
  usage := option.usage
  help := option.help
  remarks :=
    (option.setBy.map fun name => "[env: " ++ name ++ "=" ++ (valueOf name).getD "" ++ "]").toList ++
      (option.usual.map fun value => "[default: " ++ value ++ "]").toList
  choices := option.choices

/-- Blanks. -/
def gap (count : Nat) : String := String.ofList (List.replicate count ' ')

/-- What an entry says, on one line. -/
def line (entry : HelpEntry) : String :=
  let names := ", ".intercalate (entry.choices.map Prod.fst)
  let choices := if entry.choices.isEmpty then [] else ["[possible values: " ++ names ++ "]"]
  " ".intercalate (entry.help :: entry.remarks ++ choices)

/-- The width of what is explained, over several entries. -/
def columnWidth (entries : List HelpEntry) : Nat :=
  (entries.map fun entry => entry.usage.length).foldl max 2

/-- The width of a line. -/
def lineWidth : Nat := 100

/-- Whether meanings go on lines of their own: the column of what is explained takes more than two
fifths of a line, and a meaning does not fit beside it. -/
def isCrowded (entries : List HelpEntry) : Bool :=
  let taken := columnWidth entries + 12
  let fits (entry : HelpEntry) : Bool := taken + entry.line.length ≤ lineWidth
  40 < taken && taken ≤ lineWidth && !entries.all fits

/-- The lines of entries in a summary. -/
def summaryLines (entries : List HelpEntry) : List String :=
  let width := columnWidth entries
  entries.flatMap fun entry =>
    let start := "  " ++ entry.lead ++ entry.usage
    if isCrowded entries then [start, gap 10 ++ entry.line]
    else [start ++ gap (width + 2 - entry.usage.length) ++ entry.line]

/-- The lines of an entry in a full text. -/
def fullLines (entry : HelpEntry) : List String :=
  let width := (entry.choices.map fun choice => choice.1.length).foldl max 0
  let choice (value meaning : String) : String :=
    gap 10 ++ "- " ++ value ++ ": " ++ gap (width - value.length) ++ meaning
  ["  " ++ entry.lead ++ entry.usage, gap 10 ++ entry.help] ++
    (if entry.remarks.isEmpty then [] else gap 10 :: entry.remarks.map (gap 10 ++ ·)) ++
    (if entry.choices.isEmpty then []
      else "" :: (gap 10 ++ "Possible values:") :: entry.choices.map fun (value, meaning) =>
        choice value meaning)

/-- The lines of entries below a heading. -/
def sectionLines (detail : HelpDetail) (heading : String) (entries : List HelpEntry) : List String :=
  if entries.isEmpty then []
  else
    let body := match detail with
      | .summary => summaryLines entries
      | .full => List.intercalate [""] (entries.map fullLines)
    ["", heading ++ ":"] ++ body

end HelpEntry

/-! ## Texts -/

/-- How a command is called. -/
def usageLine (path : List String) (spec : CommandSpec) (options : List OptionSpec) : String :=
  let required := (spec.options.filter (·.isRequired)).map (·.usage)
  " ".intercalate (["Usage:"] ++ path ++ (if options.isEmpty then [] else ["[OPTIONS]"]) ++ required ++
    spec.operands.map (·.usage) ++ (if spec.commands.isEmpty then [] else ["<COMMAND>"]))

/-- The command that explains the others. -/
def helpCommand : CommandSpec where
  name := "help"
  about := "Print this message or the help of the given subcommand(s)"
  operands := [{ name := "COMMAND", help := "Print help for the subcommand(s)", isMany := true }]

/-- The help text of the command at a path, given all its options and the values of variables. -/
def helpText (valueOf : String → Option String) (detail : HelpDetail) (path : List String)
    (spec : CommandSpec) (options : List OptionSpec) : String :=
  let about := match detail with
    | .summary => spec.about
    | .full => spec.description.getD spec.about
  let commands := if spec.commands.isEmpty then [] else spec.commands ++ [helpCommand]
  let lines := [about, "", usageLine path spec options] ++
    HelpEntry.sectionLines .summary "Commands" (commands.map .ofCommand) ++
    HelpEntry.sectionLines detail "Arguments" (spec.operands.map .ofOperand) ++
    HelpEntry.sectionLines detail "Options" (options.map (.ofOption valueOf))
  String.join (lines.map (· ++ "\n"))

/-- The help text of the command at a path below a root whose options every command takes. -/
def CommandSpec.help? (root : CommandSpec) (valueOf : String → Option String) (detail : HelpDetail)
    (path : List String) : Option String :=
  let options (own : List OptionSpec) : List OptionSpec :=
    OptionSpec.arranged own root.options ++ OptionSpec.builtin detail
  match path, root.find? (path.drop 1) with
  | [_], _ => helpText valueOf detail path root (options [])
  | _, some spec => helpText valueOf detail path spec (options spec.options)
  | _, none =>
    if path.getLast? = some helpCommand.name then helpText valueOf .summary path helpCommand []
    else none

end EventJournal.Cli
