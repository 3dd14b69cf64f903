import EventJournal.Decimal.Scientific
import EventJournal.Json.Basic

/-!
# Reading TOML

A text is a list of lines, each a table header or a key with its value. A key may be a path; what it
leads through has to be a table, and no key is set twice. A table is opened by a header once, and a table
that was written as a value takes no further keys.

`Toml.parse?` gives the members of the root table.
-/

namespace EventJournal.Toml

/-- What is left of a text. -/
abbrev Rest := List Char

/-! ## Blanks -/

/-- A blank within a line. -/
def isSpace (c : Char) : Bool := c = ' ' || c = '\t'

/-- Skips blanks within a line. -/
def skipSpaces (text : Rest) : Rest := text.dropWhile isSpace

/-- Skips a comment up to the end of its line. -/
def skipComment : Rest → Rest
  | '#' :: rest => rest.dropWhile (· ≠ '\n')
  | text => text

/-- Skips blanks, comments and ends of lines. -/
def skipLines : Nat → Rest → Rest
  | 0, text => text
  | fuel + 1, text =>
    match skipComment (skipSpaces text) with
    | '\n' :: rest => skipLines fuel rest
    | '\r' :: '\n' :: rest => skipLines fuel rest
    | rest => rest

/-- Skips to the next line; nothing but a comment may be left of this one. -/
def endLine? (text : Rest) : Option Rest :=
  match skipComment (skipSpaces text) with
  | [] => some []
  | '\n' :: rest => some rest
  | '\r' :: '\n' :: rest => some rest
  | _ => none

/-! ## Strings -/

/-- Reads an escape after its backslash. -/
def readEscape : Rest → Option (Char × Rest)
  | 'b' :: rest => some ('\x08', rest)
  | 't' :: rest => some ('\t', rest)
  | 'n' :: rest => some ('\n', rest)
  | 'f' :: rest => some ('\x0c', rest)
  | 'r' :: rest => some ('\r', rest)
  | '"' :: rest => some ('"', rest)
  | '\\' :: rest => some ('\\', rest)
  | 'u' :: rest => Text.readHexadecimal? 4 rest
  | 'U' :: rest => Text.readHexadecimal? 8 rest
  | _ => none

/-- Reads the rest of a basic string; `done` holds what was read, the last first. -/
def readBasic : Nat → Rest → List Char → Option (String × Rest)
  | 0, _, _ => none
  | _, [], _ => none
  | _, '"' :: rest, done => some (String.ofList done.reverse, rest)
  | fuel + 1, '\\' :: rest, done =>
    (readEscape rest).bind fun (c, rest) => readBasic fuel rest (c :: done)
  | fuel + 1, c :: rest, done => if c = '\n' then none else readBasic fuel rest (c :: done)

/-- Reads the rest of a literal string. -/
def readLiteral : Rest → List Char → Option (String × Rest)
  | [], _ => none
  | '\'' :: rest, done => some (String.ofList done.reverse, rest)
  | c :: rest, done => if c = '\n' then none else readLiteral rest (c :: done)

/-- Reads the rest of a basic string of several lines; a backslash at the end of a line joins it with
what follows. -/
def readBasicLines : Nat → Rest → List Char → Option (String × Rest)
  | 0, _, _ => none
  | _, [], _ => none
  | fuel + 1, '"' :: '"' :: '"' :: rest, done =>
    if rest.head? = some '"' then readBasicLines fuel ('"' :: '"' :: rest) ('"' :: done)
    else some (String.ofList done.reverse, rest)
  | fuel + 1, '\\' :: rest, done =>
    match skipSpaces rest with
    | '\n' :: after => readBasicLines fuel (after.dropWhile fun c => isSpace c || c = '\n') done
    | _ => (readEscape rest).bind fun (c, rest) => readBasicLines fuel rest (c :: done)
  | fuel + 1, c :: rest, done => readBasicLines fuel rest (c :: done)

/-- Reads the rest of a literal string of several lines. -/
def readLiteralLines : Rest → List Char → Option (String × Rest)
  | [], _ => none
  | '\'' :: '\'' :: '\'' :: rest, done => some (String.ofList done.reverse, rest)
  | c :: rest, done => readLiteralLines rest (c :: done)

/-- Drops the line end right after an opening quote of several lines. -/
def dropFirstNewline : Rest → Rest
  | '\n' :: rest => rest
  | '\r' :: '\n' :: rest => rest
  | text => text

/-- Reads a string, if the text starts with one. -/
def readString? : Rest → Option (Option (String × Rest))
  | '"' :: '"' :: '"' :: rest =>
    let text := dropFirstNewline rest
    some (readBasicLines (text.length + 1) text [])
  | '\'' :: '\'' :: '\'' :: rest => some (readLiteralLines (dropFirstNewline rest) [])
  | '"' :: rest => some (readBasic (rest.length + 1) rest [])
  | '\'' :: rest => some (readLiteral rest [])
  | _ => none

/-! ## Keys -/

/-- Whether a character may stand in a key without quotes. -/
def isKeyChar (c : Char) : Bool := c.isAlphanum || c = '_' || c = '-'

/-- Reads one part of a key. -/
def readKeyPart (text : Rest) : Option (String × Rest) :=
  match text with
  | '"' :: rest => readBasic (rest.length + 1) rest []
  | '\'' :: rest => readLiteral rest []
  | text =>
    let name := text.takeWhile isKeyChar
    if name.isEmpty then none else some (String.ofList name, text.dropWhile isKeyChar)

/-- Reads a key: parts with points between them. -/
def readKey : Nat → Rest → Option (List String × Rest)
  | 0, _ => none
  | fuel + 1, text => do
    let (part, rest) ← readKeyPart (skipSpaces text)
    match skipSpaces rest with
    | '.' :: rest =>
      let (path, rest) ← readKey fuel rest
      pure (part :: path, rest)
    | rest => pure ([part], rest)

/-! ## Scalars -/

/-- Digits without the underscores between them; an underscore has a digit on either side. -/
def ungroup? : List Char → Option (List Char)
  | [] => some []
  | '_' :: _ => none
  | c :: '_' :: d :: rest =>
    if c.isAlphanum && d.isAlphanum then (ungroup? (d :: rest)).map (c :: ·) else none
  | [_, '_'] => none
  | c :: rest => (ungroup? rest).map (c :: ·)

/-- Whether the digits before a point or an exponent start with a zero that should not be there. -/
def hasLeadingZero (text : List Char) : Bool :=
  match (Text.takeSign text).2 with
  | '0' :: c :: _ => c.isDigit
  | _ => false

/-- Whether a text has the form of a date or a time of day. -/
def isDateLike (text : List Char) : Bool :=
  let shape := text.take 5
  match shape with
  | [a, b, c, d, '-'] => a.isDigit && b.isDigit && c.isDigit && d.isDigit
  | a :: b :: ':' :: _ => a.isDigit && b.isDigit
  | _ => false

/-- The value of a scalar without quotes. -/
def scalar? (text : List Char) : Option Json :=
  match String.ofList text with
  | "true" => some (.bool true)
  | "false" => some (.bool false)
  | "inf" | "+inf" => some (.float "inf")
  | "-inf" => some (.float "-inf")
  | "nan" | "+nan" | "-nan" => some (.float "NaN")
  | word =>
    if isDateLike text then some (.str word)
    else do
      let plain ← ungroup? text
      match plain with
      | '0' :: 'x' :: digits => (Text.intIn? 16 digits).map .int
      | '0' :: 'o' :: digits => (Text.intIn? 8 digits).map .int
      | '0' :: 'b' :: digits => (Text.intIn? 2 digits).map .int
      | plain =>
        if hasLeadingZero plain then none
        else if plain.any fun c => c = '.' || c = 'e' || c = 'E' then
          (Decimal.Scientific.read? plain).bind fun number => number.doubleText?.map .float
        else (Text.intIn? 10 plain).map .int

/-- Whether a character may stand in a scalar without quotes. -/
def isScalarChar (c : Char) : Bool :=
  c.isAlphanum || c = '_' || c = '-' || c = '+' || c = '.' || c = ':'

/-! ## Tables -/

/-- Puts a value at the end of a path through tables; the last table of a list of tables stands for the
list. The key must not be there. -/
def put? : List String → Json → Fields → Option Fields
  | [], _, _ => none
  | [key], value, fields => if fields.contains key then none else some (fields.insert key value)
  | key :: path, value, fields =>
    match fields.get? key with
    | none => (put? path value []).map fun inner => fields.insert key (.obj inner)
    | some (.obj inner) => (put? path value inner).map fun inner => fields.insert key (.obj inner)
    | some (.arr items) =>
      match items.getLast? with
      | some (.obj inner) =>
        (put? path value inner).map fun inner =>
          fields.insert key (.arr (items.dropLast ++ [.obj inner]))
      | _ => none
    | some _ => none

/-- The value at the end of a path, the last table of a list standing for the list. -/
def find? : List String → Fields → Option Json
  | [], fields => some (.obj fields)
  | [key], fields => fields.get? key
  | key :: path, fields =>
    match fields.get? key with
    | some (.obj inner) => find? path inner
    | some (.arr items) =>
      match items.getLast? with
      | some (.obj inner) => find? path inner
      | _ => none
    | _ => none

/-- Opens one more table in the list at the end of a path. -/
def push? : List String → Fields → Option Fields
  | [], _ => none
  | [key], fields =>
    match fields.get? key with
    | none => some (fields.insert key (.arr [.obj []]))
    | some (.arr items) => some (fields.insert key (.arr (items ++ [.obj []])))
    | some _ => none
  | key :: path, fields =>
    match fields.get? key with
    | none => (push? path []).map fun inner => fields.insert key (.obj inner)
    | some (.obj inner) => (push? path inner).map fun inner => fields.insert key (.obj inner)
    | some (.arr items) =>
      match items.getLast? with
      | some (.obj inner) =>
        (push? path inner).map fun inner =>
          fields.insert key (.arr (items.dropLast ++ [.obj inner]))
      | _ => none
    | some _ => none

/-! ## Values -/

mutual

/-- Reads a value. -/
def readValue : Nat → Rest → Option (Json × Rest)
  | 0, _ => none
  | fuel + 1, text =>
    match text, readString? text with
    | _, some string => string.map fun (text, rest) => (.str text, rest)
    | '[' :: rest, none => readItems fuel rest []
    | '\x7b' :: rest, none =>
      match skipSpaces rest with
      | '\x7d' :: rest => some (.obj [], rest)
      | rest => readMembers fuel rest []
    | text, none =>
      (scalar? (text.takeWhile isScalarChar)).map fun value => (value, text.dropWhile isScalarChar)

/-- Reads the items of a list, which may go over several lines; `done` holds those read, the last
first. -/
def readItems : Nat → Rest → List Json → Option (Json × Rest)
  | 0, _, _ => none
  | fuel + 1, text, done =>
    match skipLines text.length text with
    | ']' :: rest => some (.arr done.reverse, rest)
    | text => do
      let (item, rest) ← readValue fuel text
      match skipLines rest.length rest with
      | ',' :: rest => readItems fuel rest (item :: done)
      | ']' :: rest => pure (.arr (item :: done).reverse, rest)
      | _ => none

/-- Reads the members of a table written as a value; `done` holds those read. -/
def readMembers : Nat → Rest → Fields → Option (Json × Rest)
  | 0, _, _ => none
  | fuel + 1, text, done => do
    let (path, rest) ← readKey (text.length + 1) text
    match skipSpaces rest with
    | '=' :: rest =>
      let (value, rest) ← readValue fuel (skipSpaces rest)
      let done ← put? path value done
      match skipSpaces rest with
      | ',' :: rest => readMembers fuel rest done
      | '\x7d' :: rest => pure (.obj done, rest)
      | _ => none
    | _ => none

end

/-! ## Documents -/

/-- What was read of a document: the root table, the path of the open table, the paths of tables opened
by a header, and those of tables and lists written as values. -/
structure Document where
  root : Fields
  current : List String
  headers : List (List String)
  closed : List (List String)

/-- The document before its first line. -/
def Document.empty : Document := ⟨[], [], [], []⟩

/-- Whether a path leads through something closed. -/
def Document.isClosed (document : Document) (path : List String) : Bool :=
  document.closed.any fun closed => closed.isPrefixOf path

/-- Opens a table by its header. -/
def Document.openTable? (document : Document) (path : List String) : Option Document :=
  if path ∈ document.headers ∨ document.isClosed path then none
  else
    let opened := { document with current := path, headers := path :: document.headers }
    match find? path document.root with
    | some (.obj _) => some opened
    | some _ => none
    | none => (put? path (.obj []) document.root).map fun root => { opened with root }

/-- Opens one more table of a list by its header; the headers below it may come again. -/
def Document.openItem? (document : Document) (path : List String) : Option Document :=
  if path ∈ document.headers ∨ document.isClosed path then none
  else
    let headers := document.headers.filter fun header => !path.isPrefixOf header
    let closed := document.closed.filter fun closed => !path.isPrefixOf closed
    (push? path document.root).map fun root => { root, current := path, headers, closed }

/-- Sets a key of the open table. -/
def Document.set? (document : Document) (key : List String) (value : Json) : Option Document :=
  let path := document.current ++ key
  if document.isClosed path then none
  else
    let closes : Bool := match value with
      | .obj _ | .arr _ => true
      | _ => false
    (put? path value document.root).map fun root =>
      { document with root, closed := if closes then path :: document.closed else document.closed }

/-- Reads a line. -/
def readLine (document : Document) (text : Rest) : Option (Document × Rest) :=
  match text with
  | '[' :: '[' :: rest => do
    let (path, rest) ← readKey (rest.length + 1) rest
    match rest with
    | ']' :: ']' :: rest => pure (← document.openItem? path, ← endLine? rest)
    | _ => none
  | '[' :: rest => do
    let (path, rest) ← readKey (rest.length + 1) rest
    match rest with
    | ']' :: rest => pure (← document.openTable? path, ← endLine? rest)
    | _ => none
  | text => do
    let (key, rest) ← readKey (text.length + 1) text
    match rest with
    | '=' :: rest =>
      let (value, rest) ← readValue (2 * rest.length + 2) (skipSpaces rest)
      pure (← document.set? key value, ← endLine? rest)
    | _ => none

/-- Reads the lines that are left. -/
def readLines : Nat → Document → Rest → Option Document
  | 0, _, _ => none
  | fuel + 1, document, text =>
    match skipLines text.length text with
    | [] => some document
    | text => (readLine document text).bind fun (document, rest) => readLines fuel document rest

/-- Reads a text: the members of its root table. -/
def parse? (text : String) : Option Fields :=
  (readLines (text.length + 1) .empty text.toList).map (·.root)

end EventJournal.Toml
