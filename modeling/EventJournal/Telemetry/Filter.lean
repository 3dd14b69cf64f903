import EventJournal.Telemetry.Logging
import EventJournal.Text.Blank

/-!
# Log filters

A filter is a set of directives. A directive gives the level up to which something is logged: everything,
a target, the inside of a span, or what has a field. Its text is a target, in brackets a span and in braces
inside them a field, an equals sign and a level. Every part may be left out; a target without a level is
logged in full, and a level alone is that of everything. Two directives for the same are one, the later.

* `Directive.parse?` reads a directive, `Directive.text` writes it.
* `LogFilter.build?` is the filter of the settings: the level of the environment or else of the settings,
  statements of the database from warnings on, and the levels of single modules.

Main statement: `mem_add_iff`, an added directive takes the place of those for the same.
-/

namespace EventJournal

/-! ## Levels -/

/-- Up to what is logged. -/
inductive LogLevel where
  | off
  | error
  | warn
  | info
  | debug
  | trace
  deriving Repr, DecidableEq, Inhabited

namespace LogLevel

/-- The name of a level. -/
def name : LogLevel → String
  | off => "off"
  | error => "error"
  | warn => "warn"
  | info => "info"
  | debug => "debug"
  | trace => "trace"

/-- The levels, from nothing to everything. -/
def all : List LogLevel := [off, error, warn, info, debug, trace]

/-- The level of a name in any case, or of its place among the levels; the empty name stands for
errors. -/
def parse? (text : String) : Option LogLevel :=
  let digits := match text.toList with
    | '+' :: rest => rest
    | digits => digits
  match Text.natIn? 10 digits with
  | some n => all[n]?
  | none =>
    if text = "" then some error
    else all.find? fun level => level.name = text.toLower

theorem parse?_name (level : LogLevel) : parse? level.name = some level := by
  cases level <;> decide +kernel

end LogLevel

/-! ## Directives -/

/-- A directive. -/
structure Directive where
  target : Option String
  span : Option String
  /-- The text of a field, its value after an equals sign if it has one. -/
  field : Option String
  level : LogLevel
  deriving Repr, DecidableEq, Inhabited

namespace Directive

/-- Whether two directives are for the same. -/
def concernsSame (a b : Directive) : Bool :=
  a.target = b.target && a.span = b.span && a.field = b.field

/-- The text of a directive. -/
def text (directive : Directive) : String :=
  let inner := directive.span.getD "" ++
    (directive.field.elim "" fun field => "\x7b" ++ field ++ "\x7d")
  let scope := directive.target.getD "" ++
    (if directive.span.isSome || directive.field.isSome then "[" ++ inner ++ "]" else "")
  (if scope.isEmpty then "" else scope ++ "=") ++ directive.level.name

/-! ### Reading -/

/-- Whether a directive may start with a character: a letter, a digit, or a mark of names. Every
character beyond ASCII counts as a letter. -/
def startsWell (c : Char) : Bool :=
  c.isAlphanum || c = '-' || c = ':' || c = '_' || 128 ≤ c.toNat

/-- The level after the equals sign; without one everything is logged. -/
def levelOrAll? (text : List Char) : Option LogLevel :=
  if text.isEmpty then some .trace else LogLevel.parse? (String.ofList text)

/-- Reads what follows a scope: nothing, or an equals sign and a level. -/
def readLevel? : List Char → Option LogLevel
  | [] => some .trace
  | '=' :: rest => levelOrAll? rest
  | _ => none

/-- Reads what follows an opening bracket: the name of a span and at most one field. -/
def readScope? (target : Option String) (text : List Char) : Option Directive := do
  let stop (c : Char) : Bool := c = ']' || c = '\x7b'
  let span := String.ofList (text.takeWhile fun c => !stop c)
  match text.dropWhile fun c => !stop c with
  | ']' :: rest => pure ⟨target, some span, none, ← readLevel? rest⟩
  | '\x7b' :: rest =>
    let field := rest.takeWhile (· ≠ '\x7d')
    match rest.dropWhile (· ≠ '\x7d') with
    | '\x7d' :: ']' :: rest =>
      if field.isEmpty then none
      else
        pure ⟨target, if span.isEmpty then none else some span, some (String.ofList field),
          ← readLevel? rest⟩
    | _ => none
  | _ => none

/-- Reads a directive without blanks at its ends. -/
def read? (text : List Char) : Option Directive :=
  match text with
  | [] => none
  | '[' :: rest => readScope? none rest
  | c :: _ =>
    if !startsWell c then none
    else
      let stop (c : Char) : Bool := c = '=' || c = '[' || c = ','
      let front := String.ofList (text.takeWhile fun c => !stop c)
      match text.dropWhile fun c => !stop c with
      | [] =>
        match LogLevel.parse? front with
        | some level => some ⟨none, none, none, level⟩
        | none => some ⟨some front, none, none, .trace⟩
      | '=' :: rest => (levelOrAll? rest).map fun level => ⟨some front, none, none, level⟩
      | '[' :: rest => readScope? (some front) rest
      | _ => none

/-- Reads a directive. With a blank at one of its ends a text is a target alone or nothing. -/
def parse? (text : String) : Option Directive :=
  let trimmed := Text.trimBlanks text.toList
  if trimmed = text.toList then read? trimmed
  else if trimmed.head?.any startsWell && !trimmed.contains '=' && !trimmed.contains '[' then
    some ⟨some text, none, none, .trace⟩
  else none

end Directive

/-! ## Filters -/

/-- A set of directives, no two for the same. -/
structure LogFilter where
  directives : List Directive
  deriving Repr, DecidableEq, Inhabited

namespace LogFilter

/-- Adds a directive, in the place of one for the same. -/
def add (filter : LogFilter) (directive : Directive) : LogFilter :=
  ⟨filter.directives.filter (fun other => !directive.concernsSame other) ++ [directive]⟩

theorem mem_add_iff {filter : LogFilter} {directive other : Directive} :
    other ∈ (filter.add directive).directives ↔
      other ∈ filter.directives ∧ directive.concernsSame other = false ∨ other = directive := by
  simp [add]

/-- Reads directives with commas between them. Of none at all comes the one that logs errors. -/
def parse? (text : String) : Option LogFilter := do
  let parts := (text.splitOn ",").filter (· ≠ "")
  let directives ← parts.mapM Directive.parse?
  if directives.isEmpty then pure ⟨[⟨none, none, none, .error⟩]⟩
  else pure (directives.foldl add ⟨[]⟩)

/-- The target that statements of the database are logged with. -/
def statements : String := "sqlx::query"

/-- Adds the directive that a text is. -/
def addText? (filter : LogFilter) (text : String) : Option LogFilter :=
  (Directive.parse? text).map filter.add

/-- The filter of the settings. A level from the environment goes before that of the settings;
statements are logged from warnings on unless a level of theirs is set. -/
def build? (settings : LoggingSettings) (environment : Option String) : Option LogFilter := do
  let level := match environment with
    | some text => if text.isEmpty then settings.level else text
    | none => settings.level
  let filter ← parse? level
  let filter ←
    if settings.moduleLevels.any (·.1 = statements) then some filter
    else filter.addText? (statements ++ "=warn")
  settings.moduleLevels.foldlM (fun filter (name, level) => filter.addText? (name ++ "=" ++ level))
    filter

/-- The texts of the directives, in order. -/
def texts (filter : LogFilter) : List String :=
  (filter.directives.map Directive.text).mergeSort fun a b => a ≤ b

end LogFilter

end EventJournal
