/-!
# The grammar of a command line

A program is a tree of commands. A command has options, and either operands or commands below it. An
option is a flag or takes a value; it has a long name, and may have a letter. Options of the root may be
given to any command.

* `CommandSpec` describes a command; `CommandSpec.parse` reads the words of a command line.
* `Level` is what was given to one command: its options and its operands.
* `Level.check` says whether what has to be there is there, and nothing twice that may be there once.
-/

namespace EventJournal.Cli

/-! ## Descriptions -/

/-- What an option takes. -/
inductive OptionKind where
  /-- Nothing: it is there or not. -/
  | flag
  /-- A value. -/
  | value
  /-- A value each time it is given. -/
  | values
  deriving Repr, DecidableEq

/-- An option. -/
structure OptionSpec where
  name : String
  letter : Option Char
  kind : OptionKind
  help : String
  /-- How its value is called. -/
  placeholder : String := ""
  /-- The value that counts if none is given. -/
  usual : Option String := none
  /-- The values it may have and what they mean, if they are few. -/
  choices : List (String × String) := []
  /-- The variable of the environment whose value counts if none is given. -/
  setBy : Option String := none
  isRequired : Bool := false
  /-- A negative number may be its value. -/
  takesNegative : Bool := false
  /-- Whether a text may be its value. -/
  accepts : String → Bool := fun _ => true
  /-- Options that may not be given along with it. -/
  conflicts : List String := []
  /-- Options that have to be given along with it. -/
  requires : List String := []

/-- An operand: how it is called and what it means. -/
structure OperandSpec where
  name : String
  help : String
  /-- Any number of it may be given, and none as well. -/
  isMany : Bool := false

/-- A command. -/
structure CommandSpec where
  name : String
  about : String
  /-- What it is for, said at greater length. -/
  description : Option String := none
  options : List OptionSpec := []
  operands : List OperandSpec := []
  commands : List CommandSpec := []

/-! ## What was given -/

/-- What was given to one command: options with their values, in order, and operands. -/
structure Level where
  command : String
  options : List (String × String)
  operands : List String
  deriving Repr, DecidableEq, Inhabited

namespace Level

/-- A command with nothing given to it. -/
def empty (command : String) : Level := ⟨command, [], []⟩

/-- Whether an option was given. -/
def has (level : Level) (name : String) : Bool := (level.options.lookup name).isSome

/-- The values of an option. -/
def values (level : Level) (name : String) : List String :=
  (level.options.filter (·.1 = name)).map Prod.snd

end Level

/-- Why a command line is not understood. -/
inductive UsageError where
  | unknownOption (word : String)
  | unknownCommand (word : String)
  | unexpectedOperand (word : String)
  | missingValue (option : String)
  | unexpectedValue (option value : String)
  | invalidValue (option value : String)
  | repeatedOption (option : String)
  | conflict (option other : String)
  | missing (names : List String)
  | missingCommand (path : List String)
  deriving Repr, DecidableEq

/-- The wording of a failure. -/
def UsageError.message : UsageError → String
  | unknownOption word => "unexpected argument '" ++ word ++ "' found"
  | unknownCommand word => "unrecognized subcommand '" ++ word ++ "'"
  | unexpectedOperand word => "unexpected argument '" ++ word ++ "' found"
  | missingValue option => "a value is required for '--" ++ option ++ "' but none was supplied"
  | unexpectedValue option value =>
    "unexpected value '" ++ value ++ "' for '--" ++ option ++ "' found; no more were expected"
  | invalidValue option value => "invalid value '" ++ value ++ "' for '--" ++ option ++ "'"
  | repeatedOption option => "the argument '--" ++ option ++ "' cannot be used multiple times"
  | conflict option other =>
    "the argument '--" ++ option ++ "' cannot be used with '--" ++ other ++ "'"
  | missing names =>
    "the following required arguments were not provided: " ++ ", ".intercalate names
  | missingCommand path => "'" ++ " ".intercalate path ++ "' requires a subcommand but one was not provided"

/-- How much a help text says. -/
inductive HelpDetail where
  /-- A line about everything. -/
  | summary
  /-- Paragraphs. -/
  | full
  deriving Repr, DecidableEq

/-- What a command line asks for. -/
inductive Request where
  /-- To run the innermost of the commands, the outermost first. -/
  | run (levels : List Level)
  /-- To say what the command at a path is for. -/
  | help (path : List String) (detail : HelpDetail)
  /-- To say the version of the command at a path. -/
  | version (path : List String)
  deriving Repr, DecidableEq

/-! ## Options -/

/-- An option by its long name. -/
def findLong (options : List OptionSpec) (name : String) : Option OptionSpec :=
  options.find? (·.name = name)

/-- An option by its letter. -/
def findLetter (options : List OptionSpec) (letter : Char) : Option OptionSpec :=
  options.find? (·.letter = some letter)

/-- Whether a word is a negative number. -/
def isNegativeNumber : List Char → Bool
  | '-' :: digits => !digits.isEmpty && digits.all Char.isDigit
  | _ => false

/-- Whether a word may be the value of the option before it. -/
def canBeValue (option : OptionSpec) (word : String) : Bool :=
  match word.toList with
  | '-' :: _ :: _ => option.takesNegative && isNegativeNumber word.toList
  | _ => true

/-- Adds an option to what was given. -/
def Level.add (level : Level) (option : OptionSpec) (value : String) : Except UsageError Level :=
  if !option.accepts value then .error (.invalidValue option.name value)
  else if option.kind ≠ .values ∧ level.has option.name then .error (.repeatedOption option.name)
  else .ok { level with options := level.options ++ [(option.name, value)] }

/-- Splits a word at its first equals sign. -/
def splitValue (word : List Char) : List Char × Option (List Char) :=
  match word.dropWhile (· ≠ '=') with
  | _ :: value => (word.takeWhile (· ≠ '='), some value)
  | [] => (word, none)

/-! ## Checks -/

/-- The first thing wrong with the options of a command that were given. -/
def Level.check (level : Level) (spec : CommandSpec) (options : List OptionSpec) :
    Except UsageError Unit :=
  let given := options.filter fun option => level.has option.name
  let clash := given.findSome? fun option =>
    (option.conflicts.find? level.has).map (UsageError.conflict option.name)
  let required := (options.filter (·.isRequired)).map (·.name) ++ given.flatMap (·.requires)
  let missing := (required.filter fun name => !level.has name).map ("--" ++ ·) ++
    ((spec.operands.drop level.operands.length).map fun operand => "<" ++ operand.name ++ ">")
  match clash with
  | some error => .error error
  | none => if missing.isEmpty then .ok () else .error (.missing missing)

/-! ## Command lines -/

/-- What a step through the words of a command line is about. -/
structure Place where
  spec : CommandSpec
  /-- The names of the commands, the outermost first. -/
  path : List String
  /-- The options of the root. -/
  shared : List OptionSpec
  level : Level

namespace Place

/-- The options that a command takes. -/
def options (place : Place) : List OptionSpec := place.shared ++ place.spec.options

/-- Adds an option. -/
def add (place : Place) (option : OptionSpec) (value : String) : Except UsageError Place :=
  (place.level.add option value).map fun level => { place with level }

/-- Adds an operand. -/
def addOperand (place : Place) (word : String) : Except UsageError Place :=
  if place.level.operands.length < place.spec.operands.length then
    .ok { place with level := { place.level with operands := place.level.operands ++ [word] } }
  else .error (.unexpectedOperand word)

/-- The place of a command below. -/
def descend (place : Place) (spec : CommandSpec) : Place :=
  ⟨spec, place.path ++ [spec.name], place.shared, .empty spec.name⟩

/-- Finds the command at a path below this one. -/
def findHelp (spec : CommandSpec) (path : List String) : List String → Except UsageError Request
  | [] => .ok (.help path .full)
  | word :: rest =>
    match spec.commands.find? (·.name = word) with
    | some inner => findHelp inner (path ++ [word]) rest
    | none =>
      if word = "help" ∧ rest = [] ∧ !spec.commands.isEmpty then .ok (.help (path ++ [word]) .summary)
      else .error (.unknownCommand word)

/-- What comes of a word: another place, an option that takes the next word, or an answer. -/
inductive Next where
  | stay (place : Place)
  | await (place : Place) (option : OptionSpec)
  | answer (request : Request)

/-- Reads the letters of a word after its dash. -/
def readLetters (place : Place) : List Char → Except UsageError Next
  | [] => .ok (.stay place)
  | letter :: rest =>
    match findLetter place.options letter, letter with
    | some option, _ =>
      match option.kind with
      | .flag =>
        match place.add option "" with
        | .error error => .error error
        | .ok place => readLetters place rest
      | _ =>
        match rest with
        | [] => .ok (.await place option)
        | '=' :: value => (place.add option (String.ofList value)).map .stay
        | value => (place.add option (String.ofList value)).map .stay
    | none, 'h' => .ok (.answer (.help place.path .summary))
    | none, 'V' => .ok (.answer (.version place.path))
    | none, _ => .error (.unknownOption (String.ofList ['-', letter]))

/-- Reads a word after its two dashes. -/
def readLong (place : Place) (word : List Char) : Except UsageError Next :=
  let (name, value) := splitValue word
  let name := String.ofList name
  match findLong place.options name, value with
  | some option, some value =>
    if option.kind = .flag then .error (.unexpectedValue option.name (String.ofList value))
    else (place.add option (String.ofList value)).map .stay
  | some option, none =>
    if option.kind = .flag then (place.add option "").map .stay else .ok (.await place option)
  | none, none =>
    if name = "help" then .ok (.answer (.help place.path .full))
    else if name = "version" then .ok (.answer (.version place.path))
    else .error (.unknownOption ("--" ++ name))
  | none, some _ => .error (.unknownOption ("--" ++ name))

/-- Accepts what was given to a command that runs. -/
def finish (place : Place) (outer : List Level) : Except UsageError Request :=
  if place.spec.commands.isEmpty then
    (place.level.check place.spec place.options).map fun _ => .run (outer ++ [place.level])
  else .error (.missingCommand place.path)

/-- Reads the words of a command line. `literal` is whether two dashes were there, after which every word
is an operand; `outer` is what was given to the commands around this one. -/
def read (outer : List Level) (place : Place) (awaited : Option OptionSpec) (literal : Bool) :
    List String → Except UsageError Request
  | [] =>
    match awaited with
    | some option => .error (.missingValue option.name)
    | none => place.finish outer
  | word :: rest =>
    match awaited with
    | some option =>
      if canBeValue option word then
        match place.add option word with
        | .error error => .error error
        | .ok place => read outer place none literal rest
      else .error (.missingValue option.name)
    | none =>
      let operand : Except UsageError Request :=
        match place.addOperand word with
        | .error error => .error error
        | .ok place => read outer place none literal rest
      let next (step : Except UsageError Next) : Except UsageError Request :=
        match step with
        | .error error => .error error
        | .ok (.answer request) => .ok request
        | .ok (.stay place) => read outer place none literal rest
        | .ok (.await place option) => read outer place (some option) literal rest
      if literal then operand
      else
        match word.toList with
        | ['-', '-'] => read outer place none true rest
        | '-' :: '-' :: long => next (place.readLong long)
        | '-' :: c :: letters => next (place.readLetters (c :: letters))
        | _ =>
          if place.spec.commands.isEmpty then operand
          else
            match place.spec.commands.find? (·.name = word) with
            | some spec =>
              match read (outer ++ [place.level]) (place.descend spec) none false rest with
              | .error error => .error error
              | .ok (.run levels) =>
                (place.level.check place.spec place.options).map fun _ => .run levels
              | .ok request => .ok request
            | none =>
              if word = "help" then findHelp place.spec place.path rest
              else .error (.unknownCommand word)

end Place

/-- Reads the words of a command line. -/
def CommandSpec.parse (root : CommandSpec) (words : List String) : Except UsageError Request :=
  (Place.mk { root with options := [] } [root.name] root.options (.empty root.name)).read [] none false
    words

end EventJournal.Cli
