/-!
# Quoted text

Diagnostics show a string in quotes. A quote, a backslash and the usual control characters get a
backslash; a character without a glyph of its own (a control or format character, a blank other than
the space, a combining mark, a private-use character) is written as its code point in braces;
every other character stays.
-/

namespace EventJournal.Text

/-- Ranges of characters without a glyph of their own: controls, format characters, blanks other
than the space, private use and noncharacters. -/
def hiddenRanges : List (Nat × Nat) :=
  [(0x00, 0x1f), (0x7f, 0xa0), (0xad, 0xad), (0x600, 0x605), (0x61c, 0x61c), (0x6dd, 0x6dd),
   (0x70f, 0x70f), (0x1680, 0x1680), (0x180e, 0x180e), (0x2000, 0x200f), (0x2028, 0x202f),
   (0x205f, 0x206f), (0x3000, 0x3000), (0xe000, 0xf8ff), (0xfeff, 0xfeff), (0xfff0, 0xfffb),
   (0xfffe, 0xffff), (0xe0000, 0x10ffff)]

/-- Ranges of characters that only modify the one before. -/
def combiningRanges : List (Nat × Nat) :=
  [(0x300, 0x36f), (0x483, 0x489), (0x591, 0x5bd), (0x5bf, 0x5bf), (0x5c1, 0x5c2), (0x5c4, 0x5c5),
   (0x5c7, 0x5c7), (0x610, 0x61a), (0x64b, 0x65f), (0x670, 0x670), (0x6d6, 0x6dc), (0x6df, 0x6e4),
   (0x6e7, 0x6e8), (0x6ea, 0x6ed), (0x711, 0x711), (0x730, 0x74a), (0x900, 0x902), (0x93a, 0x93a),
   (0x93c, 0x93c), (0x941, 0x948), (0x94d, 0x94d), (0x951, 0x957), (0xe31, 0xe31), (0xe34, 0xe3a),
   (0xe47, 0xe4e), (0x1ab0, 0x1ace), (0x1dc0, 0x1dff), (0x20d0, 0x20f0), (0x302a, 0x302f),
   (0x3099, 0x309a), (0xfe00, 0xfe0f), (0xfe20, 0xfe2f), (0xe0100, 0xe01ef)]

/-- Whether a code point lies in one of the ranges. -/
def inRanges (ranges : List (Nat × Nat)) (n : Nat) : Bool :=
  ranges.any fun range => range.1 ≤ n && n ≤ range.2

/-- Lowercase hexadecimal digits. -/
def hex (n : Nat) : String := String.ofList (Nat.toDigits 16 n)

/-- One character of a quoted string. -/
def quotedChar (c : Char) : String :=
  if c = '"' then "\\\""
  else if c = '\\' then "\\\\"
  else if c = '\n' then "\\n"
  else if c = '\r' then "\\r"
  else if c = '\t' then "\\t"
  else if c = '\x00' then "\\0"
  else if inRanges hiddenRanges c.toNat || inRanges combiningRanges c.toNat then
    "\\u\x7b" ++ hex c.toNat ++ "\x7d"
  else String.singleton c

/-- A string as diagnostics show it. -/
def quoted (text : String) : String :=
  "\"" ++ String.join (text.toList.map quotedChar) ++ "\""

/-- A list of strings as diagnostics show it. -/
def quotedList (texts : List String) : String :=
  "[" ++ ", ".intercalate (texts.map quoted) ++ "]"

end EventJournal.Text
