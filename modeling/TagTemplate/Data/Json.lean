import TagTemplate.Data

/-!
# Data in JSON

Data is written either compactly, with no blanks at all, or over several lines with two blanks
for each level. Strings escape the quote, the backslash and the control characters and nothing
else. Doubles are written with the fewest digits that read back, always with a point or an
exponent; JSON has no infinities and no NaN, which are written as null.
-/

namespace TagTemplate.Json

/-- The blanks between the parts of a JSON text. -/
structure Layout where
  /-- What stands in front of an item at a level. -/
  lineBreak : Nat → String
  /-- What stands between a key and its value. -/
  colon : String

/-- No blanks. -/
def Layout.compact : Layout where
  lineBreak := fun _ => ""
  colon := ":"

/-- Every item on its own line, two blanks a level. -/
def Layout.pretty : Layout where
  lineBreak := fun level => "\n" ++ String.ofList (List.replicate (2 * level) ' ')
  colon := ": "

/-- Doubles in JSON: positional with at most sixteen digits in front of the point or at most four
zeros right behind it, otherwise with an exponent, which shows a plus sign. -/
def numberStyle : NumberStyle where
  tie := .even
  positional := fun point => decide (-5 < point) && decide (point ≤ 16)
  wholeSuffix := ".0"
  exponentPlus := "+"
  nan := "null"
  infinity := "null"

/-- A double, or null where JSON has no text for it. -/
def number (x : Binary64) : String :=
  if x.isFinite then numberStyle.render x else numberStyle.nan

/-- A control character by its number, as four hexadecimal digits. -/
def unicodeEscape (c : Char) : List Char :=
  ['\\', 'u', '0', '0', Nat.digitChar (c.toNat / 16), Nat.digitChar (c.toNat % 16)]

/-- How a character is written between quotes. -/
def escapeChar (c : Char) : List Char :=
  if c = '"' then ['\\', '"']
  else if c = '\\' then ['\\', '\\']
  else if c = '\x08' then ['\\', 'b']
  else if c = '\x0c' then ['\\', 'f']
  else if c = '\n' then ['\\', 'n']
  else if c = '\r' then ['\\', 'r']
  else if c = '\t' then ['\\', 't']
  else if c.toNat < 0x20 then unicodeEscape c
  else [c]

/-- A string between quotes. -/
def string (s : String) : String :=
  "\"" ++ String.ofList (s.toList.flatMap escapeChar) ++ "\""

mutual

/-- Data at a level. -/
def write (layout : Layout) (level : Nat) : Data → String
  | .null => "null"
  | .integer value => Int.repr value
  | .double value => number value
  | .char value => string (String.singleton value)
  | .string value => string value
  | .list [] => "[]"
  | .list (x :: xs) =>
    "[" ++ layout.lineBreak (level + 1) ++ write layout (level + 1) x ++
      writeItems layout (level + 1) xs ++ layout.lineBreak level ++ "]"
  | .record [] => "\x7b\x7d"
  | .record ((key, x) :: fields) =>
    "\x7b" ++ layout.lineBreak (level + 1) ++ string key ++ layout.colon ++
      write layout (level + 1) x ++
      writeFields layout (level + 1) fields ++ layout.lineBreak level ++ "\x7d"

/-- The items of a list behind its first. -/
def writeItems (layout : Layout) (level : Nat) : List Data → String
  | [] => ""
  | x :: xs =>
    "," ++ layout.lineBreak level ++ write layout level x ++ writeItems layout level xs

/-- The fields of a record behind its first. -/
def writeFields (layout : Layout) (level : Nat) : List (String × Data) → String
  | [] => ""
  | (key, x) :: fields =>
    "," ++ layout.lineBreak level ++ string key ++ layout.colon ++ write layout level x ++
      writeFields layout level fields

end

/-- Data without blanks. -/
def compact (d : Data) : String := write .compact 0 d

/-- Data over several lines. -/
def pretty (d : Data) : String := write .pretty 0 d

end TagTemplate.Json
