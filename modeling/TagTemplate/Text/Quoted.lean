import TagTemplate.LexError
import TagTemplate.Text.Scanned

/-!
# Quoted strings

A string in a tag stands between double quotes, on one line. Backslash, quote and opening
brace are escaped by a backslash; line feed, tab and carriage return have the escapes `\n`,
`\t` and `\r`. A raw line feed or opening brace is a fault, as is any other escape. The first
fault from left to right counts, and a backslash as the last character of the input leaves the
string unterminated.
-/

namespace TagTemplate.Quoted

/-- How a character is written between quotes. -/
def escapeChar : Char → List Char
  | '\\' => ['\\', '\\']
  | '"' => ['\\', '"']
  | '{' => ['\\', '{']
  | '\n' => ['\\', 'n']
  | '\t' => ['\\', 't']
  | '\r' => ['\\', 'r']
  | c => [c]

/-- The character meant by a backslash in front of another one. -/
def unescapeChar? : Char → Option Char
  | '\\' => some '\\'
  | '"' => some '"'
  | '{' => some '{'
  | 'n' => some '\n'
  | 't' => some '\t'
  | 'r' => some '\r'
  | _ => none

/-- A text between quotes. -/
def quote (text : String) : String :=
  "\"" ++ String.ofList (text.toList.flatMap escapeChar) ++ "\""

/-- Reads the body of a string and its closing quote, from behind the opening quote. -/
def scan : List Char → Except LexFault Scanned
  | [] => .error .unterminatedString
  | '"' :: cs => .ok ⟨[], ['"'], cs⟩
  | ['\\'] => .error .unterminatedString
  | '\\' :: e :: cs =>
    match unescapeChar? e with
    | none => .error .invalidEscape
    | some c => (scan cs).map (Scanned.extend ['\\', e] c)
  | '\n' :: _ => .error .newlineInString
  | '{' :: _ => .error .braceInString
  | c :: cs => (scan cs).map (Scanned.extend [c] c)

/-- What was read and what was left make up the input. -/
theorem chars_append_rest {cs : List Char} {s : Scanned} (h : scan cs = .ok s) :
    s.chars ++ s.rest = cs := by
  fun_induction scan cs generalizing s with
  | case1 | case3 | case4 | case6 | case7 => cases h
  | case2 => cases h; rfl
  | case5 e cs c _ ih | case8 c cs _ _ _ _ _ ih =>
    cases hs : scan cs with
    | error _ => simp [hs, Except.map] at h
    | ok s' =>
      simp only [hs, Except.map, Except.ok.injEq] at h
      subst h
      simp [Scanned.extend, ih hs]

end TagTemplate.Quoted
