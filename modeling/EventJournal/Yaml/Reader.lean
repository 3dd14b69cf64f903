import EventJournal.Text.Blank
import EventJournal.Yaml.Scalar

/-!
# Reading YAML

The part of YAML that settings use: block and flow collections, plain and quoted scalars of one line,
comments, and one document. Lines are grouped by their indentation; a mapping or a sequence is a run of
lines at one column, and what is indented further belongs to the line before.

`Yaml.parse?` gives the value of a text, or says that there is no document in it.
-/

namespace EventJournal.Yaml

/-! ## Quoted scalars -/

/-- The character that the letter of an escape stands for. -/
def escaped? : Char → Option Char
  | '0' => some '\x00'
  | 'a' => some '\x07'
  | 'b' => some '\x08'
  | 't' | '\t' => some '\t'
  | 'n' => some '\n'
  | 'v' => some '\x0b'
  | 'f' => some '\x0c'
  | 'r' => some '\r'
  | 'e' => some '\x1b'
  | ' ' => some ' '
  | '"' => some '"'
  | '/' => some '/'
  | '\\' => some '\\'
  | 'N' => some '\u0085'
  | '_' => some '\u00a0'
  | 'L' => some '\u2028'
  | 'P' => some '\u2029'
  | _ => none

/-- Reads the rest of a text in double quotes; `done` holds what was read, the last first. -/
def readDouble : Nat → List Char → List Char → Option (String × List Char)
  | 0, _, _ => none
  | _, [], _ => none
  | _, '"' :: rest, done => some (String.ofList done.reverse, rest)
  | fuel + 1, '\\' :: 'x' :: rest, done =>
    (Text.readHexadecimal? 2 rest).bind fun (c, rest) => readDouble fuel rest (c :: done)
  | fuel + 1, '\\' :: 'u' :: rest, done =>
    (Text.readHexadecimal? 4 rest).bind fun (c, rest) => readDouble fuel rest (c :: done)
  | fuel + 1, '\\' :: 'U' :: rest, done =>
    (Text.readHexadecimal? 8 rest).bind fun (c, rest) => readDouble fuel rest (c :: done)
  | fuel + 1, '\\' :: c :: rest, done =>
    (escaped? c).bind fun c => readDouble fuel rest (c :: done)
  | fuel + 1, c :: rest, done => if c = '\\' then none else readDouble fuel rest (c :: done)

/-- Reads the rest of a text in single quotes; a quote inside is written twice. -/
def readSingle : List Char → List Char → Option (String × List Char)
  | [], _ => none
  | '\'' :: '\'' :: rest, done => readSingle rest ('\'' :: done)
  | '\'' :: rest, done => some (String.ofList done.reverse, rest)
  | c :: rest, done => readSingle rest (c :: done)

/-- Reads a quoted scalar, if the text starts with one. -/
def readQuoted? : List Char → Option (Option (String × List Char))
  | '"' :: rest => some (readDouble (rest.length + 1) rest [])
  | '\'' :: rest => some (readSingle rest [])
  | _ => none

/-! ## Blanks and comments -/

/-- A blank within a line. -/
def isSpace (c : Char) : Bool := c = ' ' || c = '\t'

/-- Whether nothing but a comment is left of a line. -/
def isOver (rest : List Char) : Bool :=
  match rest.dropWhile isSpace with
  | [] => true
  | '#' :: _ => rest.head?.any isSpace
  | _ => false

/-- Whether a text starts with a mark that stands alone. -/
def startsWithMark (mark : Char) : List Char → Bool
  | c :: rest => c = mark && (rest.isEmpty || rest.head?.any isSpace)
  | [] => false

/-- Takes a plain scalar off the front: up to a comment or to a colon that stands alone, and inside a
flow collection up to its marks. -/
def takePlain (inFlow : Bool) : List Char → List Char × List Char
  | [] => ([], [])
  | c :: rest =>
    let ends := (c = ':' && startsWithMark ':' (c :: rest)) ||
      (isSpace c && rest.head? = some '#') ||
      (inFlow && (c = ',' || c = '[' || c = ']' || c = '\x7b' || c = '\x7d' ||
        (c = ':' && rest.head?.any fun d => d = ',' || d = ']' || d = '\x7d')))
    if ends then ([], c :: rest)
    else
      let (front, back) := takePlain inFlow rest
      (c :: front, back)

/-- Whether a plain scalar may start like this. -/
def canStartPlain (text : List Char) : Bool :=
  match text with
  | [] => false
  | c :: _ =>
    if c = '-' || c = '?' || c = ':' then !startsWithMark c text
    else !(",[]\x7b\x7d#&*!|>'\"%@`".toList.contains c)

/-- A plain scalar without the blanks at its ends. -/
def plainText (text : List Char) : String := String.ofList (Text.trimBlanks text)

/-! ## Keys -/

/-- The name of a key; only texts and integers name a member. -/
def keyName? (text : String) : Option String :=
  match resolve text with
  | .str name => some name
  | .int n => some (toString n)
  | _ => none

/-- Splits a text at the colon after a key: the name of the key and what follows the colon. -/
def splitKey? (text : List Char) : Option (Option String × List Char) :=
  match readQuoted? text with
  | some (some (name, rest)) =>
    let rest := rest.dropWhile isSpace
    if startsWithMark ':' rest then some (some name, rest.drop 1) else none
  | some none => none
  | none =>
    if !canStartPlain text then none
    else
      let (front, back) := takePlain false text
      if startsWithMark ':' back then some (keyName? (plainText front), back.drop 1) else none

/-! ## Flow collections -/

mutual

/-- Reads a value inside a flow collection. -/
def readFlow : Nat → List Char → Option (Json × List Char)
  | 0, _ => none
  | fuel + 1, text =>
    let text := text.dropWhile isSpace
    match text, readQuoted? text with
    | _, some quoted => quoted.map fun (text, rest) => (.str text, rest)
    | '[' :: rest, none => readFlowItems fuel rest []
    | '\x7b' :: rest, none => readFlowMembers fuel rest []
    | text, none =>
      if !canStartPlain text then none
      else
        let (front, back) := takePlain true text
        some (resolve (plainText front), back)

/-- Reads the items of a flow sequence; `done` holds those read, the last first. -/
def readFlowItems : Nat → List Char → List Json → Option (Json × List Char)
  | 0, _, _ => none
  | fuel + 1, text, done =>
    match text.dropWhile isSpace with
    | ']' :: rest => some (.arr done.reverse, rest)
    | text => do
      let (item, rest) ← readFlow fuel text
      match rest.dropWhile isSpace with
      | ',' :: rest => readFlowItems fuel rest (item :: done)
      | ']' :: rest => pure (.arr (item :: done).reverse, rest)
      | _ => none

/-- Reads the members of a flow mapping; `done` holds those read. -/
def readFlowMembers : Nat → List Char → Fields → Option (Json × List Char)
  | 0, _, _ => none
  | fuel + 1, text, done =>
    match text.dropWhile isSpace with
    | '\x7d' :: rest => some (.obj done, rest)
    | text => do
      let (name, rest) ← match readQuoted? text with
        | some quoted => quoted
        | none =>
          if !canStartPlain text then none
          else
            let (front, back) := takePlain true text
            (keyName? (plainText front)).map fun name => (name, back)
      if done.contains name then none
      let (value, rest) ← match rest.dropWhile isSpace with
        | ':' :: rest =>
          match rest.dropWhile isSpace with
          | ',' :: _ | '\x7d' :: _ => some (Json.null, rest)
          | rest => readFlow fuel rest
        | rest => some (Json.null, rest)
      match rest.dropWhile isSpace with
      | ',' :: rest => readFlowMembers fuel rest (done.insert name value)
      | '\x7d' :: rest => pure (.obj (done.insert name value), rest)
      | _ => none

end

/-- Reads a value that ends with its line. -/
def readInline? (text : List Char) : Option Json :=
  match text, readQuoted? text with
  | _, some quoted =>
    quoted.bind fun (text, rest) => if isOver rest then some (.str text) else none
  | c :: _, none =>
    if c = '[' ∨ c = '\x7b' then
      (readFlow (2 * text.length + 2) text).bind fun (value, rest) =>
        if isOver rest then some value else none
    else if canStartPlain text then
      let (front, back) := takePlain false text
      if isOver back then some (resolve (plainText front)) else none
    else none
  | [], none => some .null

/-! ## Block collections -/

/-- A line without its indentation. -/
structure Line where
  column : Nat
  text : List Char
  deriving Repr, DecidableEq

/-- Whether a line is an entry of a sequence. -/
def Line.isEntry (line : Line) : Bool := startsWithMark '-' line.text

/-- The lines of a text that say something. A line may not be indented by tabs. -/
def lines? (text : String) : Option (List Line) :=
  let read (line : String) : Option (Option Line) :=
    let indented := (line.toList.reverse.dropWhile fun c => isSpace c || c = '\r').reverse
    let text := indented.dropWhile (· = ' ')
    match text with
    | [] => some none
    | '#' :: _ => some none
    | '\t' :: _ => none
    | text => some (some ⟨indented.length - text.length, text⟩)
  ((text.splitOn "\n").mapM read).map fun lines => lines.filterMap id

mutual

/-- Reads the value that starts with the next line, if that is indented far enough. -/
def readBlock : Nat → Nat → List Line → Option (Json × List Line)
  | 0, _, _ => none
  | _ + 1, _, [] => some (.null, [])
  | fuel + 1, least, line :: rest =>
    if line.column < least then some (.null, line :: rest)
    else if line.isEntry then readEntries fuel line.column (line :: rest) []
    else if (splitKey? line.text).isSome then readPairs fuel line.column (line :: rest) []
    else (readInline? line.text).map fun value => (value, rest)

/-- Reads the entries of a sequence at a column; `done` holds those read, the last first. -/
def readEntries : Nat → Nat → List Line → List Json → Option (Json × List Line)
  | 0, _, _, _ => none
  | _ + 1, _, [], done => some (.arr done.reverse, [])
  | fuel + 1, column, line :: rest, done =>
    if line.column = column ∧ line.isEntry then
      let text := (line.text.drop 1).dropWhile isSpace
      let shift := line.text.length - text.length
      let inner : List Line := if isOver (line.text.drop 1) then rest else ⟨column + shift, text⟩ :: rest
      match readBlock fuel (column + 1) inner with
      | none => none
      | some (item, rest) => readEntries fuel column rest (item :: done)
    else if column < line.column then none
    else some (.arr done.reverse, line :: rest)

/-- Reads the members of a mapping at a column; `done` holds those read. A sequence may stand at the
column of its key. -/
def readPairs : Nat → Nat → List Line → Fields → Option (Json × List Line)
  | 0, _, _, _ => none
  | _ + 1, _, [], done => some (.obj done, [])
  | fuel + 1, column, line :: rest, done =>
    if column < line.column then none
    else if line.column < column then some (.obj done, line :: rest)
    else
      match splitKey? line.text with
      | some (some name, text) =>
        if done.contains name then none
        else if isOver text then
          let entries : Bool := rest.head?.any fun next => next.column = column && next.isEntry
          let value :=
            if entries then readEntries fuel column rest [] else readBlock fuel (column + 1) rest
          match value with
          | none => none
          | some (value, rest) => readPairs fuel column rest (done.insert name value)
        else
          match readInline? (text.dropWhile isSpace) with
          | none => none
          | some value => readPairs fuel column rest (done.insert name value)
      | _ => none

end

/-! ## Documents -/

/-- Whether a line is a mark between documents. -/
def Line.isMark (line : Line) (mark : String) : Bool := line.column = 0 && line.text = mark.toList

/-- Reads a text of one document at most; nothing in it is no document. -/
def parse? (text : String) : Option (Option Json) := do
  let lines ← lines? text
  let (opened, lines) := match lines with
    | line :: rest => if line.isMark "---" then (true, rest) else (false, line :: rest)
    | [] => (false, [])
  let lines := match lines.getLast? with
    | some line => if line.isMark "..." then lines.dropLast else lines
    | none => lines
  if lines.any (·.isMark "---") then none
  else if lines.isEmpty then pure (if opened then some .null else none)
  else
    let (value, rest) ← readBlock (2 * text.length + 4) 0 lines
    if rest.isEmpty then pure (some value) else none

end EventJournal.Yaml
