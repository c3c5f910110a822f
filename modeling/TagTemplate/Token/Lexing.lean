import TagTemplate.LexError
import TagTemplate.Text.Escaped
import TagTemplate.Text.Quoted
import TagTemplate.Token
import TagTemplate.Token.Numeral

/-!
# From characters to tokens

A template is read in two modes. In text mode everything up to the next tag opener is one run
of literal text; in tag mode blanks are skipped and each step takes the longest lexeme. `step`
reads one token from the head of the remaining input and leaves a shorter rest, and `lex`
repeats it until the input ends or a fault is met.

Nothing of the input is forgotten on the way: a `Lexeme` keeps the characters its token was
read from and the blanks in front of it, so the lexemes of a source spell out the source
itself, and spans are sums of the lengths of its lexemes.

## Main definitions

* `step`: one token.
* `lex`: all tokens, and the fault that stopped the reading, if any.
* `tokenize`, `tokenizeWithSpans`: the tokens of a source, or its lexical error.

## Main results

* `step_eq_append`: a lexeme and the rest behind it make up the input.
* `length_rest_lt`: every token leaves a shorter rest, so that reading ends.
-/

namespace TagTemplate

/-- How the next characters are read. -/
inductive Mode where
  /-- As literal text. -/
  | text
  /-- As the inside of a tag. -/
  | tag
deriving DecidableEq

/-- A range of byte offsets. -/
structure Span where
  /-- Where it begins. -/
  start : Nat
  /-- Where it ends, the first offset behind it. -/
  stop : Nat
deriving DecidableEq

/-- A token with the characters it was read from. -/
structure Lexeme where
  /-- The blanks skipped in front of it. -/
  gap : List Char
  /-- Its characters. -/
  chars : List Char
  /-- What they stand for. -/
  token : Token
deriving DecidableEq

/-! ### Tags -/

/-- The blanks of a tag: space, tab, carriage return and line feed. -/
def isBlank (c : Char) : Bool :=
  c == ' ' || c == '\t' || c == '\r' || c == '\n'

/-- What stands at the head of the input: a token, its characters, and the input behind. -/
structure Found where
  /-- The token. -/
  token : Token
  /-- The characters it was read from. -/
  chars : List Char
  /-- What follows. -/
  rest : List Char
deriving DecidableEq

/-- The token of a number. -/
def Numeral.token : Numeral → Token
  | integer value => .integer value
  | double value => .double value

/-- Reads a token of a tag that begins with a character of no mark of its own: a name, a
number, or an operator. A minus sign in front of a digit or a point belongs to the number. -/
def scanWord (c : Char) (cs : List Char) : Except LexFault Found :=
  match Identifier.scan? (c :: cs) with
  | some (name, rest) => .ok ⟨.name name, name.text.toList, rest⟩
  | none =>
    match Numeral.scan? (c :: cs) with
    | some (lexeme, rest) =>
      match Numeral.read? lexeme with
      | some value => .ok ⟨value.token, lexeme, rest⟩
      | none => .error .malformedNumber
    | none =>
      match Operator.ofChar? c with
      | some op => .ok ⟨.operator op, [c], cs⟩
      | none => .error .unexpectedCharacter

/-- Reads the token of a tag at the head of the input, no blanks in front of it. -/
def scanTag : List Char → Except LexFault Found
  | [] => .error .unterminatedTag
  | '$' :: '}' :: cs => .ok ⟨.tagClose, ['$', '}'], cs⟩
  | '=' :: cs => .ok ⟨.echo, ['='], cs⟩
  | '"' :: cs =>
    (Quoted.scan cs).map fun s => ⟨.string (String.ofList s.value), '"' :: s.chars, s.rest⟩
  | '@' :: cs =>
    match Identifier.scan? cs with
    | some (name, rest) => .ok ⟨.function name, '@' :: name.text.toList, rest⟩
    | none => .error .unexpectedCharacter
  | c :: cs => scanWord c cs

/-! ### One step -/

/-- What reading one token comes to. -/
inductive Step where
  /-- A token, the mode behind it, and the input behind it. -/
  | token (lexeme : Lexeme) (mode : Mode) (rest : List Char)
  /-- The input has ended. -/
  | finished
  /-- A fault, behind the characters passed over. -/
  | fault (passed : List Char) (fault : LexFault)
deriving DecidableEq

/-- Reads one token in text mode: the opener of a tag, or the run of text in front of the next
opener. -/
def textStep : List Char → Step
  | [] => .finished
  | '{' :: '$' :: rest => .token ⟨[], ['{', '$'], .tagOpen⟩ .tag rest
  | cs =>
    match Escaped.scan cs with
    | .ok s => .token ⟨[], s.chars, .text (String.ofList s.value)⟩ .text s.rest
    | .error passed => .fault passed .invalidEscape

/-- The mode behind a token of a tag. -/
def modeAfter : Token → Mode
  | .tagClose => .text
  | _ => .tag

/-- Reads one token in tag mode, behind the blanks in front of it. -/
def tagStep (cs : List Char) : Step :=
  let gap := cs.takeWhile isBlank
  match scanTag (cs.dropWhile isBlank) with
  | .ok found => .token ⟨gap, found.chars, found.token⟩ (modeAfter found.token) found.rest
  | .error fault => .fault gap fault

/-- Reads one token. -/
def step : Mode → List Char → Step
  | .text => textStep
  | .tag => tagStep

/-! ### Every step uses up input -/

/-- A name has characters, and with what follows it makes up the input. -/
theorem Identifier.eq_append_of_scan? {cs rest : List Char} {name : Identifier}
    (h : Identifier.scan? cs = some (name, rest)) :
    name.text.toList ≠ [] ∧ name.text.toList ++ rest = cs := by
  cases cs with
  | nil => simp [Identifier.scan?] at h
  | cons c cs =>
    simp only [Identifier.scan?] at h
    split at h
    · simp only [Option.some.injEq, Prod.mk.injEq] at h
      obtain ⟨rfl, rfl⟩ := h
      simp
    · simp at h

/-- A name, a number or an operator has characters, and with what follows it makes up the
input. -/
theorem scanWord_eq_append {c : Char} {cs : List Char} {f : Found}
    (h : scanWord c cs = .ok f) : f.chars ≠ [] ∧ f.chars ++ f.rest = c :: cs := by
  unfold scanWord at h
  split at h
  · cases h
    exact Identifier.eq_append_of_scan? (by assumption)
  · split at h
    · split at h
      · cases h
        exact Numeral.eq_append_of_scan? (by assumption)
      · cases h
    · split at h
      · cases h
        simp
      · cases h

/-- A token of a tag has characters, and with what follows it makes up the input. -/
theorem scanTag_eq_append {cs : List Char} {f : Found} (h : scanTag cs = .ok f) :
    f.chars ≠ [] ∧ f.chars ++ f.rest = cs := by
  unfold scanTag at h
  split at h
  · cases h
  · cases h
    simp
  · cases h
    simp
  · rename_i cs
    cases hs : Quoted.scan cs with
    | error _ => simp [hs, Except.map] at h
    | ok s =>
      simp only [hs, Except.map, Except.ok.injEq] at h
      subst h
      simp [Quoted.chars_append_rest hs]
  · split at h
    · cases h
      obtain ⟨-, h⟩ := Identifier.eq_append_of_scan? (by assumption)
      simp [h]
    · cases h
  · exact scanWord_eq_append h

/-- Where a run of text does not stop at once it has characters. -/
theorem Escaped.chars_ne_nil {cs : List Char} {s : Scanned} (h : Escaped.scan cs = .ok s)
    (hne : cs ≠ []) (hopen : ∀ rest, cs ≠ '{' :: '$' :: rest) : s.chars ≠ [] := by
  unfold Escaped.scan at h
  split at h
  · exact absurd rfl hne
  · exact absurd rfl (hopen _)
  all_goals
    first
    | cases h
    | (unfold Escaped.scan.extend at h
       split at h
       · simp only [Except.ok.injEq] at h
         subst h
         simp [Scanned.extend]
       · cases h)

/-- A token has characters, and its lexeme and the rest make up the input. -/
theorem step_eq_append {mode mode' : Mode} {cs rest : List Char} {l : Lexeme}
    (h : step mode cs = .token l mode' rest) :
    l.chars ≠ [] ∧ l.gap ++ l.chars ++ rest = cs := by
  cases mode with
  | text =>
    simp only [step] at h
    unfold textStep at h
    split at h
    · cases h
    · cases h
      simp
    · rename_i hnil hopen
      split at h
      · cases h
        rename_i s hs
        exact ⟨Escaped.chars_ne_nil hs (fun e => hnil e) (fun r e => hopen r e),
          by simpa using Escaped.chars_append_rest hs⟩
      · cases h
  | tag =>
    simp only [step, tagStep] at h
    split at h
    · cases h
      rename_i hs
      obtain ⟨hne, heq⟩ := scanTag_eq_append hs
      exact ⟨hne, by simp [heq]⟩
    · cases h

/-- Every token leaves a shorter rest. -/
theorem length_rest_lt {mode mode' : Mode} {cs rest : List Char} {l : Lexeme}
    (h : step mode cs = .token l mode' rest) : rest.length < cs.length := by
  obtain ⟨hne, rfl⟩ := step_eq_append h
  have := List.length_pos_iff.2 hne
  simp only [List.length_append]
  omega

/-! ### Whole sources -/

/-- A whole reading: the lexemes in order, and the fault behind them, if there is one, with
the characters passed over to reach it. -/
structure Lexing where
  /-- What was read. -/
  lexemes : List Lexeme
  /-- What stopped the reading, if not the end of the input. -/
  fault : Option (List Char × LexFault)
deriving DecidableEq

/-- Reads tokens until the input ends or a fault is met. -/
def lex (mode : Mode) (cs : List Char) : Lexing :=
  match _h : step mode cs with
  | .finished => { lexemes := [], fault := none }
  | .fault passed fault => { lexemes := [], fault := some (passed, fault) }
  | .token lexeme mode' rest =>
    let more := lex mode' rest
    { more with lexemes := lexeme :: more.lexemes }
termination_by cs.length
decreasing_by exact length_rest_lt _h

namespace Lexing

/-- The reading of a source, which begins in text mode. -/
def ofSource (source : String) : Lexing := lex .text source.toList

/-- The tokens in order. -/
def tokens (l : Lexing) : List Token := l.lexemes.map Lexeme.token

/-- The characters of lexemes, with the blanks in front of them. -/
def charsOf (ls : List Lexeme) : List Char := ls.flatMap fun l => l.gap ++ l.chars

/-- The error behind the tokens, if there is one. -/
def error? (l : Lexing) : Option LexError :=
  l.fault.map fun (passed, fault) => ⟨fault, byteLength (charsOf l.lexemes ++ passed)⟩

/-- The tokens of lexemes that begin at a byte offset, with their spans. -/
def spansFrom (offset : Nat) : List Lexeme → List (Token × Span)
  | [] => []
  | l :: ls =>
    let start := offset + byteLength l.gap
    let stop := start + byteLength l.chars
    (l.token, ⟨start, stop⟩) :: spansFrom stop ls

/-- The tokens with their spans. -/
def spans (l : Lexing) : List (Token × Span) := spansFrom 0 l.lexemes

end Lexing

/-- The tokens of a source with their spans, or its lexical error. -/
def tokenizeWithSpans (source : String) : Except LexError (List (Token × Span)) :=
  let lexing := Lexing.ofSource source
  match lexing.error? with
  | some e => .error e
  | none => .ok lexing.spans

/-- The tokens of a source, or its lexical error. -/
def tokenize (source : String) : Except LexError (List Token) :=
  let lexing := Lexing.ofSource source
  match lexing.error? with
  | some e => .error e
  | none => .ok lexing.tokens

end TagTemplate
