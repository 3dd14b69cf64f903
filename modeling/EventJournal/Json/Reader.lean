import EventJournal.Json.Basic
import EventJournal.Decimal.Shortest
import EventJournal.Text.Quoted

/-!
# Reading JSON text

`Json.parse` reads one value and nothing after it. A failure names what is wrong and where: the line,
counted from one, and the number of bytes of that line read so far. A failure found by looking at a
character without taking it counts that character's first byte.

Arrays and objects nest at most 127 deep. An integer outside the 64-bit words, a number with a
fraction or an exponent, and `-0` are floating point. Of two members with one name the later counts.
-/

namespace EventJournal.Json

/-! ## Failures -/

/-- What is wrong with a JSON text. -/
inductive Fault where
  | eofInValue
  | eofInList
  | eofInObject
  | eofInString
  | expectedColon
  | expectedListCommaOrEnd
  | expectedObjectCommaOrEnd
  | expectedIdent
  | expectedValue
  | invalidEscape
  | invalidNumber
  | numberOutOfRange
  | controlCharacter
  | keyMustBeString
  | loneSurrogate
  | trailingComma
  | trailingCharacters
  | unexpectedEndOfHexEscape
  | recursionLimit
  /-- A value of another type than the one asked for. -/
  | unexpectedType (found expected : String)
  deriving Repr, DecidableEq

/-- The wording of a fault. -/
def Fault.message : Fault → String
  | .eofInValue => "EOF while parsing a value"
  | .eofInList => "EOF while parsing a list"
  | .eofInObject => "EOF while parsing an object"
  | .eofInString => "EOF while parsing a string"
  | .expectedColon => "expected `:`"
  | .expectedListCommaOrEnd => "expected `,` or `]`"
  | .expectedObjectCommaOrEnd => "expected `,` or `\x7d`"
  | .expectedIdent => "expected ident"
  | .expectedValue => "expected value"
  | .invalidEscape => "invalid escape"
  | .invalidNumber => "invalid number"
  | .numberOutOfRange => "number out of range"
  | .controlCharacter => "control character (\\u0000-\\u001F) found while parsing a string"
  | .keyMustBeString => "key must be a string"
  | .loneSurrogate => "lone leading surrogate in hex escape"
  | .trailingComma => "trailing comma"
  | .trailingCharacters => "trailing characters"
  | .unexpectedEndOfHexEscape => "unexpected end of hex escape"
  | .recursionLimit => "recursion limit exceeded"
  | .unexpectedType found expected => "invalid type: " ++ found ++ ", expected " ++ expected

/-- A fault and its place. -/
structure SyntaxError where
  fault : Fault
  line : Nat
  column : Nat
  deriving Repr, DecidableEq

/-- The wording of a failure, with its place. -/
def SyntaxError.message (error : SyntaxError) : String :=
  error.fault.message ++ " at line " ++ toString error.line ++ " column " ++ toString error.column

/-! ## Position in the text -/

/-- The rest of the text and the place where it starts. -/
structure Cursor where
  rest : List Char
  line : Nat
  column : Nat

namespace Cursor

/-- The start of a text. -/
def start (text : String) : Cursor := ⟨text.toList, 1, 0⟩

/-- Takes one character. -/
def advance (cursor : Cursor) : Cursor :=
  match cursor.rest with
  | [] => cursor
  | '\n' :: rest => ⟨rest, cursor.line + 1, 0⟩
  | c :: rest => ⟨rest, cursor.line, cursor.column + c.utf8Size⟩

/-- Takes `n` characters. -/
def skip (cursor : Cursor) : Nat → Cursor
  | 0 => cursor
  | n + 1 => cursor.advance.skip n

/-- A failure at the characters taken so far. -/
def fail (cursor : Cursor) (fault : Fault) : Except SyntaxError α :=
  .error ⟨fault, cursor.line, cursor.column⟩

/-- A failure at the next character, not taken yet. -/
def failAhead (cursor : Cursor) (fault : Fault) : Except SyntaxError α :=
  match cursor.rest with
  | [] => cursor.fail fault
  | '\n' :: _ => .error ⟨fault, cursor.line + 1, 0⟩
  | _ :: _ => .error ⟨fault, cursor.line, cursor.column + 1⟩

/-- Blanks between tokens. -/
def isBlank (c : Char) : Bool := c = ' ' ∨ c = '\n' ∨ c = '\t' ∨ c = '\r'

/-- Skips blanks. -/
def skipBlanks (cursor : Cursor) : Cursor :=
  cursor.skip (cursor.rest.takeWhile isBlank).length

end Cursor

/-! ## Numbers -/

/-- The value of a digit. -/
def digitValue (c : Char) : Nat := c.toNat - '0'.toNat

/-- The number written by decimal digits. -/
def ofDigits (digits : List Char) : Nat :=
  digits.foldl (fun n c => 10 * n + digitValue c) 0

/-- Takes the digits ahead. -/
def takeDigits (cursor : Cursor) : List Char × Cursor :=
  let digits := cursor.rest.takeWhile Char.isDigit
  (digits, cursor.skip digits.length)

/-- A floating point number from its decimal parts. -/
def floatValue (cursor : Cursor) (negative : Bool) (mantissa : Nat) (exponent : Int) :
    Except SyntaxError (Json × Cursor) :=
  -- beyond these bounds the result is zero or out of range whatever the digits
  let digits : Int := (toString mantissa).length
  if mantissa = 0 ∨ exponent + digits < -400 then
    .ok (.float (if negative then "-0.0" else "0.0"), cursor)
  else if 400 < exponent + digits then cursor.fail .numberOutOfRange
  else match Decimal.textOfDecimal negative mantissa exponent with
    | some text => .ok (.float text, cursor)
    | none => cursor.fail .numberOutOfRange

/-- Reads an exponent, its letter not taken yet, after the decimal `mantissa * 10 ^ scale`. -/
def readExponent (cursor : Cursor) (negative : Bool) (mantissa : Nat) (scale : Int) :
    Except SyntaxError (Json × Cursor) :=
  let afterLetter := cursor.advance
  let (down, signed) := match afterLetter.rest with
    | '+' :: _ => (false, afterLetter.advance)
    | '-' :: _ => (true, afterLetter.advance)
    | _ => (false, afterLetter)
  match signed.rest with
  | [] => signed.fail .eofInValue
  | c :: _ =>
    if c.isDigit then
      let (digits, rest) := takeDigits signed
      let n : Int := ofDigits digits
      floatValue rest negative mantissa (scale + if down then -n else n)
    else signed.advance.fail .invalidNumber

/-- Reads a number, its sign taken already. -/
def readNumber (cursor : Cursor) (negative : Bool) : Except SyntaxError (Json × Cursor) :=
  match cursor.rest with
  | [] => cursor.fail .eofInValue
  | c :: ahead =>
    if ¬ c.isDigit then cursor.advance.fail .invalidNumber
    else if c = '0' ∧ (ahead.head?.any Char.isDigit) then cursor.advance.failAhead .invalidNumber
    else
      let (digits, rest) := takeDigits cursor
      let whole := ofDigits digits
      match rest.rest with
      | '.' :: _ =>
        let (places, rest) := takeDigits rest.advance
        if places = [] then
          match rest.rest with
          | [] => rest.fail .eofInValue
          | _ => rest.failAhead .invalidNumber
        else
          let mantissa := ofDigits (digits ++ places)
          let scale : Int := -(places.length : Int)
          match rest.rest with
          | 'e' :: _ | 'E' :: _ => readExponent rest negative mantissa scale
          | _ => floatValue rest negative mantissa scale
      | 'e' :: _ | 'E' :: _ => readExponent rest negative whole 0
      | _ =>
        if negative then
          if whole = 0 ∨ Int64.minValue.toInt.natAbs < whole then floatValue rest true whole 0
          else .ok (.int (-(whole : Int)), rest)
        else if UInt64.size ≤ whole then floatValue rest false whole 0
        else .ok (.int whole, rest)

/-! ## Strings -/

/-- The value of a hexadecimal digit. -/
def hexValue? (c : Char) : Option Nat :=
  if c.isDigit then some (c.toNat - '0'.toNat)
  else if 'a' ≤ c ∧ c ≤ 'f' then some (c.toNat - 'a'.toNat + 10)
  else if 'A' ≤ c ∧ c ≤ 'F' then some (c.toNat - 'A'.toNat + 10)
  else none

/-- Reads the four digits of a hexadecimal escape. -/
def readHex (cursor : Cursor) : Except SyntaxError (Nat × Cursor) :=
  match cursor.rest with
  | a :: b :: c :: d :: _ =>
    match hexValue? a, hexValue? b, hexValue? c, hexValue? d with
    | some a, some b, some c, some d => .ok (a * 4096 + b * 256 + c * 16 + d, cursor.skip 4)
    | _, _, _, _ => (cursor.skip 4).fail .invalidEscape
  | rest => (cursor.skip rest.length).fail .eofInString

/-- Reads the escape after a backslash, the letter `u` taken already. -/
def readUnicode (cursor : Cursor) : Except SyntaxError (Char × Cursor) := do
  let (high, cursor) ← readHex cursor
  if 0xdc00 ≤ high ∧ high ≤ 0xdfff then cursor.fail .loneSurrogate
  else if 0xd800 ≤ high ∧ high ≤ 0xdbff then
    match cursor.rest with
    | [] => cursor.fail .eofInString
    | ['\\'] => cursor.advance.fail .eofInString
    | '\\' :: 'u' :: _ =>
      let (low, cursor) ← readHex (cursor.skip 2)
      if 0xdc00 ≤ low ∧ low ≤ 0xdfff then
        .ok (Char.ofNat (0x10000 + (high - 0xd800) * 0x400 + (low - 0xdc00)), cursor)
      else cursor.fail .loneSurrogate
    | '\\' :: _ => (cursor.skip 2).fail .unexpectedEndOfHexEscape
    | _ => cursor.advance.fail .unexpectedEndOfHexEscape
  else .ok (Char.ofNat high, cursor)

/-- Reads a string up to its closing quote, the opening one taken already; `done` holds the
characters read so far, the last first. -/
def readString : Nat → Cursor → List Char → Except SyntaxError (String × Cursor)
  | 0, cursor, _ => cursor.fail .eofInString
  | fuel + 1, cursor, done =>
    match cursor.rest with
    | [] => cursor.fail .eofInString
    | '"' :: _ => .ok (String.ofList done.reverse, cursor.advance)
    | '\\' :: _ =>
      let cursor := cursor.advance
      match cursor.rest with
      | [] => cursor.fail .eofInString
      | c :: _ =>
        let after := cursor.advance
        match c with
        | '"' => readString fuel after ('"' :: done)
        | '\\' => readString fuel after ('\\' :: done)
        | '/' => readString fuel after ('/' :: done)
        | 'b' => readString fuel after ('\x08' :: done)
        | 'f' => readString fuel after ('\x0c' :: done)
        | 'n' => readString fuel after ('\n' :: done)
        | 'r' => readString fuel after ('\r' :: done)
        | 't' => readString fuel after ('\t' :: done)
        | 'u' =>
          match readUnicode after with
          | .error error => .error error
          | .ok (c, rest) => readString fuel rest (c :: done)
        | _ => after.fail .invalidEscape
    | c :: _ =>
      if c.toNat < 0x20 then cursor.advance.fail .controlCharacter
      else readString fuel cursor.advance (c :: done)

/-! ## Values -/

/-- Reads the rest of a literal word. -/
def readWord (cursor : Cursor) : List Char → Json → Except SyntaxError (Json × Cursor)
  | [], value => .ok (value, cursor)
  | c :: word, value =>
    match cursor.rest with
    | [] => cursor.fail .eofInValue
    | d :: _ =>
      if d = c then readWord cursor.advance word value else cursor.advance.fail .expectedIdent

mutual

/-- Reads a value; `depth` more levels may open. -/
def readValue : Nat → Nat → Cursor → Except SyntaxError (Json × Cursor)
  | 0, _, cursor => cursor.fail .eofInValue
  | fuel + 1, depth, cursor =>
    let cursor := cursor.skipBlanks
    match cursor.rest with
    | [] => cursor.failAhead .eofInValue
    | 'n' :: _ => readWord cursor.advance ['u', 'l', 'l'] .null
    | 't' :: _ => readWord cursor.advance ['r', 'u', 'e'] (.bool true)
    | 'f' :: _ => readWord cursor.advance ['a', 'l', 's', 'e'] (.bool false)
    | '-' :: _ => readNumber cursor.advance true
    | '"' :: rest =>
      match readString (rest.length + 1) cursor.advance [] with
      | .error error => .error error
      | .ok (text, cursor) => .ok (.str text, cursor)
    | '[' :: _ =>
      if depth ≤ 1 then cursor.failAhead .recursionLimit
      else readItems fuel (depth - 1) cursor.advance true []
    | '\x7b' :: _ =>
      if depth ≤ 1 then cursor.failAhead .recursionLimit
      else readMembers fuel (depth - 1) cursor.advance true []
    | c :: _ => if c.isDigit then readNumber cursor false else cursor.failAhead .expectedValue

/-- Reads the items of a list; `done` holds those read so far, the last first. -/
def readItems : Nat → Nat → Cursor → Bool → List Json → Except SyntaxError (Json × Cursor)
  | 0, _, cursor, _, _ => cursor.fail .eofInList
  | fuel + 1, depth, cursor, first, done =>
    let item (cursor : Cursor) : Except SyntaxError (Json × Cursor) :=
      match readValue fuel depth cursor with
      | .error error => .error error
      | .ok (value, cursor) => readItems fuel depth cursor false (value :: done)
    let cursor := cursor.skipBlanks
    match cursor.rest with
    | [] => cursor.failAhead .eofInList
    | ']' :: _ => .ok (.arr done.reverse, cursor.advance)
    | c :: _ =>
      if first then item cursor
      else if c = ',' then
        let cursor := cursor.advance.skipBlanks
        match cursor.rest with
        | [] => cursor.failAhead .eofInValue
        | ']' :: _ => cursor.failAhead .trailingComma
        | _ => item cursor
      else cursor.failAhead .expectedListCommaOrEnd

/-- Reads the members of an object; `done` holds those read so far. -/
def readMembers : Nat → Nat → Cursor → Bool → Fields → Except SyntaxError (Json × Cursor)
  | 0, _, cursor, _, _ => cursor.fail .eofInObject
  | fuel + 1, depth, cursor, first, done =>
    let member (cursor : Cursor) : Except SyntaxError (Json × Cursor) :=
      match readString (cursor.rest.length + 1) cursor.advance [] with
      | .error error => .error error
      | .ok (key, cursor) =>
        let cursor := cursor.skipBlanks
        match cursor.rest with
        | [] => cursor.failAhead .eofInObject
        | ':' :: _ =>
          match readValue fuel depth cursor.advance with
          | .error error => .error error
          | .ok (value, cursor) => readMembers fuel depth cursor false (done.insert key value)
        | _ => cursor.failAhead .expectedColon
    let cursor := cursor.skipBlanks
    match cursor.rest with
    | [] => cursor.failAhead .eofInObject
    | '\x7d' :: _ => .ok (.obj done, cursor.advance)
    | c :: _ =>
      if first then
        if c = '"' then member cursor else cursor.failAhead .keyMustBeString
      else if c = ',' then
        let cursor := cursor.advance.skipBlanks
        match cursor.rest with
        | [] => cursor.failAhead .eofInValue
        | '"' :: _ => member cursor
        | '\x7d' :: _ => cursor.failAhead .trailingComma
        | _ => cursor.failAhead .keyMustBeString
      else cursor.failAhead .expectedObjectCommaOrEnd

end

/-- The levels of arrays and objects that may be open, and one more. -/
def depthLimit : Nat := 128

/-- Accepts the end of the text, blanks aside. -/
def expectEnd (value : α) (cursor : Cursor) : Except SyntaxError α :=
  let cursor := cursor.skipBlanks
  match cursor.rest with
  | [] => .ok value
  | _ => cursor.failAhead .trailingCharacters

/-- Reads one value and nothing after it. -/
def parse (text : String) : Except SyntaxError Json := do
  let (value, cursor) ← readValue (2 * text.length + 2) depthLimit (Cursor.start text)
  expectEnd value cursor

/-- How a value is called where another type was asked for. -/
def kind : Json → String
  | .null => "null"
  | .bool b => "boolean `" ++ toString b ++ "`"
  | .int n => "integer `" ++ toString n ++ "`"
  | .float text => "floating point `" ++ text ++ "`"
  | .str text => "string " ++ Text.quoted text
  | .arr _ => "sequence"
  | .obj _ => "map"

/-- Reads one object and nothing after it. A value of another type is refused at once, after its
text if it is a scalar and before its bracket if it is a list. -/
def parseObject (text : String) : Except SyntaxError Fields := do
  let cursor := (Cursor.start text).skipBlanks
  match cursor.rest with
  | '[' :: _ => cursor.fail (.unexpectedType "sequence" "a map")
  | _ =>
    let (value, after) ← readValue (2 * text.length + 2) depthLimit cursor
    match value with
    | .obj fields => expectEnd fields after
    | other => after.fail (.unexpectedType other.kind "a map")

end EventJournal.Json
