/-!
# Faults of the source text

What can be wrong with the characters of a template, and where. A fault is found at the first
byte of the offending piece: the backslash of a bad escape in text, the opening quote of a bad
string, the first character of a bad number, the character itself otherwise.
-/

namespace TagTemplate

/-- The ways in which the characters of a template can be wrong. -/
inductive LexFault where
  /-- A backslash in front of a character that takes none. -/
  | invalidEscape
  /-- Digits and points that are no number in range. -/
  | malformedNumber
  /-- A string without its closing quote. -/
  | unterminatedString
  /-- A tag without its closing mark. -/
  | unterminatedTag
  /-- A string running over the end of its line. -/
  | newlineInString
  /-- An opening brace in a string, not escaped. -/
  | braceInString
  /-- A character that begins nothing a tag can hold. -/
  | unexpectedCharacter
deriving DecidableEq

/-- The wording of a fault. -/
def LexFault.description : LexFault → String
  | invalidEscape => "invalid escape sequence"
  | malformedNumber => "malformed number literal"
  | unterminatedString => "unterminated string"
  | unterminatedTag => "unterminated tag"
  | newlineInString => "line break inside string"
  | braceInString => "unescaped '\x7b' inside string"
  | unexpectedCharacter => "unexpected character in tag"

/-- A fault together with its place. -/
structure LexError where
  /-- What is wrong. -/
  fault : LexFault
  /-- The byte offset of the offending piece. -/
  offset : Nat
deriving DecidableEq

/-- The message of an error. -/
def LexError.message (e : LexError) : String :=
  e.fault.description ++ " at byte " ++ Nat.repr e.offset

end TagTemplate
