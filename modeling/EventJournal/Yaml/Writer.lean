import EventJournal.Yaml.Reader

/-!
# Writing YAML

A value is written in block style: a member or an item on a line of its own, what is below it indented by
two blanks, except that the items of a sequence stand in the column of their key. An empty collection is
an empty pair of brackets or braces.

A text is written plain where it reads back as itself. It is quoted if it reads as something else or is a
word for a boolean in some dialect; a text of several lines is a literal block if nothing in it needs an
escape.

Main statement: `lines_ne_nil`, every value takes a line at least.
-/

namespace EventJournal.Yaml

/-! ## Texts -/

/-- Whether a character ends a line. -/
def isBreak (c : Char) : Bool :=
  c = '\n' || c = '\r' || c = '\u0085' || c = '\u2028' || c = '\u2029'

/-- Whether a character can be written as it is. -/
def isPrintable (c : Char) : Bool :=
  let n := c.toNat
  n = 10 || (0x20 ≤ n && n ≤ 0x7e) || (0xa0 ≤ n && n ≠ 0xfeff && n ≠ 0xfffe && n ≠ 0xffff)

/-- Words for null and booleans, in small letters. -/
def reservedWords : List String :=
  ["null", "~", "true", "false", "y", "yes", "n", "no", "on", "off", ".inf", "+.inf", "-.inf", ".nan"]

/-- Digits after a leading zero, which is no number. -/
def isPaddedNumber (text : List Char) : Bool :=
  match (Text.takeSign text).2 with
  | '0' :: c :: rest => (c :: rest).all Char.isDigit
  | _ => false

/-- Whether a text has the form of an integer of any size with the mark of a base. -/
def isMarkedInteger (text : List Char) : Bool :=
  match (Text.takeSign text).2 with
  | '0' :: 'x' :: digits => (Text.natIn? 16 digits).isSome
  | '0' :: 'o' :: digits => (Text.natIn? 8 digits).isSome
  | '0' :: 'b' :: digits => (Text.natIn? 2 digits).isSome
  | _ => false

/-- Whether a text would be read as something else. -/
def isAmbiguous (text : String) : Bool :=
  text.isEmpty || reservedWords.contains text.toLower || isPaddedNumber text.toList ||
    isMarkedInteger text.toList ||
    (float? text.toList).isSome

/-- The marks that a plain text may not start with. -/
def startMarks : List Char := "#,[]\x7b\x7d&*!|>'\"%@`".toList

/-- Whether a mark that counts only alone stands alone at the front. -/
def standsAlone (rest : List Char) : Bool := rest.isEmpty || rest.head?.any fun c => isSpace c || isBreak c

/-- Whether a colon or a comment mark that stands alone is in what follows the first character. -/
def hasMarkInside (afterBlank : Bool) : List Char → Bool
  | [] => false
  | c :: rest =>
    (c = ':' && standsAlone rest) || (c = '#' && afterBlank) ||
      hasMarkInside (isSpace c || isBreak c) rest

/-- Whether marks keep a text from being plain. -/
def hasMarks (text : List Char) : Bool :=
  match text with
  | [] => false
  | c :: rest =>
    startMarks.contains c || ((c = '?' || c = ':' || c = '-') && standsAlone rest) ||
      "---".toList.isPrefixOf text || "...".toList.isPrefixOf text ||
      hasMarkInside (isSpace c || isBreak c) rest

/-- Whether one character is followed by another of some kind. -/
def hasPair (first second : Char → Bool) : List Char → Bool
  | a :: b :: rest => (first a && second b) || hasPair first second (b :: rest)
  | _ => false

/-- Whether a text has to be written with escapes. -/
def needsEscapes (text : List Char) : Bool :=
  text.any (fun c => !isPrintable c) || hasPair (· = ' ') isBreak text

/-- Whether a text starts or ends with a blank or a line end. -/
def hasEdge (text : List Char) : Bool :=
  let edge (c : Char) : Bool := c = ' ' || isBreak c
  text.head?.any edge || text.getLast?.any edge

/-- A hexadecimal number of a given width, in capital letters. -/
def hexadecimal (width n : Nat) : String :=
  let digits := (Nat.toDigits 16 n).map Char.toUpper
  String.ofList (List.replicate (width - digits.length) '0' ++ digits)

/-- A character between double quotes. -/
def escapeDouble (c : Char) : String :=
  match c with
  | '\x00' => "\\0"
  | '\x07' => "\\a"
  | '\x08' => "\\b"
  | '\t' => "\\t"
  | '\n' => "\\n"
  | '\x0b' => "\\v"
  | '\x0c' => "\\f"
  | '\r' => "\\r"
  | '\x1b' => "\\e"
  | '"' => "\\\""
  | '\\' => "\\\\"
  | '\u0085' => "\\N"
  | '\u2028' => "\\L"
  | '\u2029' => "\\P"
  | c =>
    if isPrintable c then String.ofList [c]
    else if c.toNat ≤ 0xff then "\\x" ++ hexadecimal 2 c.toNat
    else if c.toNat ≤ 0xffff then "\\u" ++ hexadecimal 4 c.toNat
    else "\\U" ++ hexadecimal 8 c.toNat

/-- A text between double quotes. -/
def doubleQuoted (text : List Char) : String := "\"" ++ String.join (text.map escapeDouble) ++ "\""

/-- A text between single quotes. -/
def singleQuoted (text : List Char) : String :=
  "'" ++ String.ofList (text.flatMap fun c => if c = '\'' then [c, c] else [c]) ++ "'"

/-- A text on one line. -/
def inlineText (text : String) : String :=
  let chars := text.toList
  if needsEscapes chars || chars.contains '\n' then doubleQuoted chars
  else if isAmbiguous text || hasMarks chars || hasEdge chars || chars.any isBreak then
    if hasPair isBreak (· = ' ') chars then doubleQuoted chars else singleQuoted chars
  else text

/-- The head of a literal block: a mark, the indentation if the text starts with a blank, and how it
ends. -/
def literalHead (text : List Char) : String :=
  let indentation := if text.head?.any fun c => c = ' ' || isBreak c then "2" else ""
  let ending := match text.reverse with
    | last :: before =>
      if !isBreak last then "-" else if before.isEmpty || before.head?.any isBreak then "+" else ""
    | [] => "-"
  "|" ++ indentation ++ ending

/-- Indents a line, unless it is empty. -/
def indented (line : String) : String := if line.isEmpty then line else "  " ++ line

/-- The lines of a text: one, or a literal block. -/
def textLines (text : String) : List String :=
  let chars := text.toList
  if chars.contains '\n' && !needsEscapes chars && chars.getLast? ≠ some ' ' then
    let body := if chars.getLast? = some '\n' then String.ofList chars.dropLast else text
    literalHead chars :: (body.splitOn "\n").map indented
  else [inlineText text]

/-! ## Values -/

mutual

/-- The lines of a value. -/
def lines : Json → List String
  | .null => ["null"]
  | .bool b => [toString b]
  | .int n => [toString n]
  | .float text => [text]
  | .str text => textLines text
  | .arr [] => ["[]"]
  | .obj [] => ["\x7b\x7d"]
  | .arr items => itemLines items
  | .obj fields => memberLines fields

/-- The lines of the items of a sequence. -/
def itemLines : List Json → List String
  | [] => []
  | item :: rest =>
    let own := match item, lines item with
      | _, [] => ["-"]
      | .str _, first :: more => ("- " ++ first) :: more
      | _, first :: more => ("- " ++ first) :: more.map indented
    own ++ itemLines rest

/-- The lines of the members of a mapping. -/
def memberLines : List (String × Json) → List String
  | [] => []
  | (key, value) :: rest =>
    let start := inlineText key ++ ":"
    let below := lines value
    let own := match value with
      | .arr (_ :: _) => start :: below
      | .obj (_ :: _) => start :: below.map indented
      | _ =>
        match below with
        | [] => [start]
        | first :: more => (start ++ " " ++ first) :: more
    own ++ memberLines rest

end

theorem lines_ne_nil (value : Json) : lines value ≠ [] := by
  match value with
  | .null | .bool _ | .int _ | .float _ | .arr [] | .obj [] => simp [lines]
  | .str text =>
    simp only [lines, textLines]
    split <;> simp
  | .arr (item :: rest) =>
    simp only [lines, itemLines]
    split <;> simp
  | .obj ((key, value) :: rest) =>
    simp only [lines, memberLines]
    split
    · simp
    · simp
    · split <;> simp

/-- A value as a document. -/
def render (value : Json) : String := String.join ((lines value).map (· ++ "\n"))

end EventJournal.Yaml
