import EventJournal.Config.Layers

/-!
# Files of variables

A file of variables has a line `NAME=value` for each; `export` may stand before the name, and a comment
after a mark `#`. Between single quotes a value is taken as it is. Elsewhere a backslash escapes the
character after it, and `$NAME` stands for the value of a variable, of the process or else of an earlier
line. Between double quotes blanks count.

Reading stops at the first line that is not well formed. A variable of the process goes before one of the
file.

Main statement: `get?_extend_of_some`, a variable of the process keeps its value.
-/

namespace EventJournal.Config

namespace Environment

/-- The value of a variable. -/
def get? (environment : Environment) (name : String) : Option String := List.lookup name environment

/-- The variables of a block: each a name, an equals sign and a value, with a null character after it. -/
def ofBlock (text : String) : Environment :=
  (text.splitOn "\x00").filterMap fun entry =>
    let chars := entry.toList
    match chars.dropWhile (· ≠ '=') with
    | _ :: value => some (String.ofList (chars.takeWhile (· ≠ '=')), String.ofList value)
    | [] => none

/-- Variables with others behind them. -/
def extend (environment others : Environment) : Environment := environment ++ others

theorem get?_extend_of_some {environment : Environment} {name value : String}
    (h : environment.get? name = some value) (others : Environment) :
    (environment.extend others).get? name = some value := by
  induction environment with
  | nil => cases h
  | cons head rest ih =>
    obtain ⟨key, held⟩ := head
    unfold get? extend at *
    cases hk : name == key with
    | true => simpa [List.lookup_cons, hk] using h
    | false =>
      simp only [List.lookup_cons, hk] at h
      simpa [List.lookup_cons, hk] using ih h

end Environment

/-! ## Values -/

/-- Where in a value a character stands. -/
inductive QuoteMode where
  | plain
  | single
  | double
  deriving Repr, DecidableEq

/-- The character that an escape stands for. -/
def escapedChar? (c : Char) : Option Char :=
  if c = 'n' then some '\n' else if "\\'\"$ ".toList.contains c then some c else none

/-- Whether nothing but blanks and a comment is left. -/
def isTrailer : List Char → Bool
  | [] => true
  | c :: rest => c = '#' || ((c = ' ' || c = '\t') && isTrailer rest)

/-- Splits the name of a variable off a text after a dollar sign. -/
def splitName : List Char → List Char × List Char
  | '\x7b' :: rest =>
    match rest.dropWhile (· ≠ '\x7d') with
    | _ :: after => (rest.takeWhile (· ≠ '\x7d'), after)
    | [] => ([], '\x7b' :: rest)
  | text => (text.takeWhile Char.isAlphanum, text.dropWhile Char.isAlphanum)

/-- Reads a value; `done` holds what was read, the last first. -/
def readValue (environment : Environment) : Nat → QuoteMode → List Char → List Char → Option String
  | 0, _, _, _ => none
  | _, .plain, [], done => some (String.ofList done.reverse)
  | _, _, [], _ => none
  | fuel + 1, .single, c :: rest, done =>
    if c = '\'' then readValue environment fuel .plain rest done
    else readValue environment fuel .single rest (c :: done)
  | fuel + 1, mode, c :: rest, done =>
    match c, rest with
    | '\\', e :: rest =>
      match escapedChar? e with
      | some c => readValue environment fuel mode rest (c :: done)
      | none => none
    | '\\', [] => some (String.ofList done.reverse)
    | '$', rest =>
      let (name, after) := splitName rest
      let value := (environment.get? (String.ofList name)).getD ""
      readValue environment fuel mode after (value.toList.reverse ++ done)
    | '"', rest => readValue environment fuel (if mode = .double then .plain else .double) rest done
    | c, rest =>
      if mode = .double then readValue environment fuel mode rest (c :: done)
      else if c = '\'' then readValue environment fuel .single rest done
      else if c = ' ' ∨ c = '\t' then
        if isTrailer rest then some (String.ofList done.reverse) else none
      else readValue environment fuel mode rest (c :: done)

/-! ## Lines -/

/-- A blank within a line. -/
def isLineBlank (c : Char) : Bool := c = ' ' || c = '\t' || c = '\r'

/-- Whether the name of a variable may start with a character. -/
def startsName (c : Char) : Bool := c.isAlpha || c = '_'

/-- Whether a character may stand in the name of a variable. -/
def isNameChar (c : Char) : Bool := c.isAlphanum || c = '_' || c = '.'

/-- Splits the name of a variable off a line. -/
def readName? (text : List Char) : Option (String × List Char) :=
  if text.head?.any startsName then
    some (String.ofList (text.takeWhile isNameChar), (text.dropWhile isNameChar).dropWhile isLineBlank)
  else none

/-- Reads the name of a line up to its equals sign. -/
def readStart? (text : List Char) : Option (String × List Char) := do
  let (name, rest) ← readName? text
  match name, rest with
  | name, '=' :: value => pure (name, value)
  | "export", rest =>
    match ← readName? rest with
    | (name, '=' :: value) => pure (name, value)
    | _ => none
  | _, _ => none

/-- What a line is: nothing, a variable, or not well formed. -/
def readVariable (environment : Environment) (line : String) : Option (Option (String × String)) :=
  let text := ((line.toList.dropWhile isLineBlank).reverse.dropWhile isLineBlank).reverse
  match text with
  | [] => some none
  | '#' :: _ => some none
  | text => do
    let (name, rest) ← readStart? text
    let rest := rest.dropWhile isLineBlank
    if isTrailer rest then pure (some (name, ""))
    else pure (some (name, ← readValue environment (rest.length + 1) .plain rest []))

/-- Adds the variables of lines to those of a process. -/
def addLines (environment : Environment) : List String → Environment
  | [] => environment
  | line :: rest =>
    match readVariable environment line with
    | none => environment
    | some none => addLines environment rest
    | some (some pair) => addLines (environment.extend [pair]) rest

/-- Adds the variables of a file to those of a process. -/
def addFile (environment : Environment) (text : String) : Environment :=
  addLines environment (text.splitOn "\n")

end EventJournal.Config
