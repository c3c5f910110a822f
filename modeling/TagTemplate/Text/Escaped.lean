import TagTemplate.Text.Scanned

/-!
# Literal text

Outside tags a template is literal text, up to the next tag opener. Two characters can be
escaped there: a backslash and an opening brace, each by a backslash in front of it. A brace
that does not begin an opener may also stand for itself; a backslash may not.

`escape` writes a text so that it is read back by `scan` whatever follows it, which is why it
escapes every brace and not only those in front of a dollar sign.
-/

namespace TagTemplate.Escaped

/-- How a character of literal text is written. -/
def escapeChar : Char → List Char
  | '\\' => ['\\', '\\']
  | '{' => ['\\', '{']
  | c => [c]

/-- A text as literal text of a template. -/
def escape (text : String) : String :=
  String.ofList (text.toList.flatMap escapeChar)

/-- Reads literal text up to the next tag opener or the end of the input. Fails at a backslash
that escapes nothing, with the characters in front of it. -/
def scan : List Char → Except (List Char) Scanned
  | [] => .ok ⟨[], [], []⟩
  | '{' :: '$' :: cs => .ok ⟨[], [], '{' :: '$' :: cs⟩
  | '\\' :: '\\' :: cs => extend ['\\', '\\'] '\\' (scan cs)
  | '\\' :: '{' :: cs => extend ['\\', '{'] '{' (scan cs)
  | '\\' :: _ => .error []
  | c :: cs => extend [c] c (scan cs)
where
  /-- Puts one character in front of what was read, or of what was passed over. -/
  extend (chars : List Char) (c : Char) :
      Except (List Char) Scanned → Except (List Char) Scanned
    | .ok s => .ok (s.extend chars c)
    | .error passed => .error (chars ++ passed)

/-- What was read and what was left make up the input. -/
theorem chars_append_rest {cs : List Char} {s : Scanned} (h : scan cs = .ok s) :
    s.chars ++ s.rest = cs := by
  fun_induction scan cs generalizing s with
  | case1 => cases h; rfl
  | case2 => cases h; rfl
  | case3 cs ih | case4 cs ih | case6 c cs _ _ _ _ ih =>
    cases hs : scan cs with
    | error _ => simp [hs, scan.extend] at h
    | ok s' =>
      simp only [hs, scan.extend, Except.ok.injEq] at h
      subst h
      simp [Scanned.extend, ih hs]
  | case5 => cases h

end TagTemplate.Escaped
