import TagTemplate.Proofs.Canonical
import TagTemplate.Proofs.Lexeme
import Mathlib.Computability.Language

/-!
# Lexemes by patterns

What a lexeme looks like can be said by patterns, one regular language for each sort of lexeme and a
rule between them: of all patterns that fit, the one that fits the longest piece of the input is
taken. `PatternStep` reads a token by that rule alone. The scanners of the lexer look at one or two
characters and go on as long as they can, and know nothing of patterns. The two do the same
(`step_refines_patterns`).

That a scanner finds the longest match follows from what stands behind it. If the lexeme could be
longer by one character it would not be the longest match (`LongestMatch.concat_notMem`), so names
and numbers are followed by what cannot go on in them, a minus sign that is an operator by no digit
and no point, and a brace that is text by no dollar sign. In front of such an input each scanner
takes what the pattern takes. In the other direction nothing is left to prove: where a pattern fits
at all there is a longest match (`exists_longestMatch`), and for that the scanner is known.

No two patterns fit the same lexeme, since the first characters of a lexeme tell its pattern
(`TagPattern.ofLexeme`, `TextPattern.ofLexeme`). The order of the patterns does not matter.

## Main results

* `exists_longestMatch`: there is a longest match, or no match.
* `TagPattern.Yields.scanTag_eq`: what is scanned at a longest match in a tag.
* `TextRun.scan_eq`: what is scanned along longest matches in text.
* `step_refines_patterns`: steps of the lexer are steps by patterns.
-/

open Computability

namespace TagTemplate

/-! ### Longest matches -/

section Matches

variable {P : Type} (language : P → Language Char)

/-- **The longest match** of some patterns at the head of an input: the pattern, its lexeme, and the
input behind it. -/
structure LongestMatch (cs : List Char) (p : P) (lexeme rest : List Char) : Prop where
  /-- The lexeme stands in front of the rest. -/
  append : lexeme ++ rest = cs
  /-- The lexeme is not empty. -/
  ne_nil : lexeme ≠ []
  /-- The lexeme fits the pattern. -/
  mem : lexeme ∈ language p
  /-- Nothing longer fits any pattern. -/
  longest : ∀ q w, w <+: cs → w ∈ language q → w.length ≤ lexeme.length

/-- No pattern fits any piece at the head of the input. -/
def NoMatch (cs : List Char) : Prop := ∀ p w, w ≠ [] → w <+: cs → w ∉ language p

/-- **There is a longest match**, or none at all. -/
theorem exists_longestMatch (cs : List Char) :
    (∃ p lexeme rest, LongestMatch language cs p lexeme rest) ∨ NoMatch language cs := by
  classical
  by_cases hnone : NoMatch language cs
  · exact Or.inr hnone
  obtain ⟨p, w, hne, hprefix, hmem⟩ :
      ∃ p w, w ≠ [] ∧ w <+: cs ∧ w ∈ language p := by
    simpa [NoMatch] using hnone
  -- the greatest length at which some pattern fits
  let fits (n : ℕ) : Prop := cs.take n ≠ [] ∧ ∃ p, cs.take n ∈ language p
  have hfits : ∀ q v, v ≠ [] → v <+: cs → v ∈ language q → fits v.length := by
    intro q v hv hpre hq
    rw [List.prefix_iff_eq_take] at hpre
    exact ⟨hpre ▸ hv, q, hpre ▸ hq⟩
  obtain ⟨hne', q, hq⟩ : fits (Nat.findGreatest fits cs.length) :=
    Nat.findGreatest_spec hprefix.length_le (hfits p w hne hprefix hmem)
  refine Or.inl ⟨q, _, cs.drop (Nat.findGreatest fits cs.length), List.take_append_drop _ _,
    hne', hq, fun q' v hpre hv => ?_⟩
  rw [List.length_take, Nat.min_eq_left (Nat.findGreatest_le _)]
  by_cases hnil : v = []
  · simp [hnil]
  · exact Nat.le_findGreatest hpre.length_le (hfits q' v hnil hpre hv)

variable {language}

/-- With one character more it fits no pattern. -/
theorem LongestMatch.concat_notMem {cs lexeme rest : List Char} {p : P} {d : Char}
    (h : LongestMatch language cs p lexeme rest) (hd : d ∈ rest.head?) (q : P) :
    lexeme ++ [d] ∉ language q := by
  intro hmem
  obtain ⟨rest, rfl⟩ := List.head?_eq_some_iff.mp hd
  have hprefix : lexeme ++ [d] <+: cs := ⟨rest, by simp [← h.append]⟩
  have hlength := h.longest q _ hprefix hmem
  simp only [List.length_append, List.length_singleton] at hlength
  omega

end Matches

/-! ### The patterns -/

/-- A single character of a class. -/
def oneOf (class' : Char → Prop) : Language Char := {w | ∃ c, class' c ∧ w = [c]}

/-- The digits from 0 to 9. -/
def IsDigit (c : Char) : Prop := '0' ≤ c ∧ c ≤ '9'

/-- A letter followed by letters, digits and underscores. -/
def wordPattern : Language Char :=
  oneOf IsLetter * (oneOf fun c => IsLetter c ∨ IsDigit c ∨ c = '_')∗

/-- A minus sign or none, a character of a class, and digits and points. -/
def numberPattern (first : Char → Prop) : Language Char :=
  (1 + {['-']}) * (oneOf first * (oneOf fun c => IsDigit c ∨ c = '.')∗)

/-- The sorts of lexemes in a tag. Of a string only the opening quote is a lexeme. -/
inductive TagPattern where
  | close
  | echo
  | name
  | function
  /-- A number that begins with a digit. -/
  | digits
  /-- A number that begins with a point. -/
  | point
  | quote
  | operator
deriving DecidableEq

/-- What the lexemes of a tag look like. -/
def TagPattern.language : TagPattern → Language Char
  | .close => {['$', '}']}
  | .echo => {['=']}
  | .name => wordPattern
  | .function => {['@']} * wordPattern
  | .digits => numberPattern IsDigit
  | .point => numberPattern (· = '.')
  | .quote => {['"']}
  | .operator => oneOf (· ∈ ['+', '-', '*', '/', '^'])

/-- The sorts of lexemes in text. -/
inductive TextPattern where
  | tagOpen
  | escapedBackslash
  | escapedBrace
  | brace
  | literal
deriving DecidableEq

/-- What the lexemes of text look like. -/
def TextPattern.language : TextPattern → Language Char
  | .tagOpen => {['{', '$']}
  | .escapedBackslash => {['\\', '\\']}
  | .escapedBrace => {['\\', '{']}
  | .brace => {['{']}
  | .literal =>
    oneOf (fun c => c ≠ '\\' ∧ c ≠ '{') * (oneOf fun c => c ≠ '\\' ∧ c ≠ '{')∗

/-! ### Steps by patterns -/

/-- The blanks of a tag, which are skipped. -/
def blanks : List Char := [' ', '\t', '\r', '\n']

/-- **What comes of a lexeme in a tag** in front of some input. Numbers are read, and behind a quote
the string is scanned; either may be refused. -/
inductive TagPattern.Yields (rest : List Char) :
    TagPattern → List Char → Except LexFault Found → Prop
  | close {lexeme : List Char} : Yields rest .close lexeme (.ok ⟨.tagClose, lexeme, rest⟩)
  | echo {lexeme : List Char} : Yields rest .echo lexeme (.ok ⟨.echo, lexeme, rest⟩)
  | name {lexeme : List Char} {n : Identifier} : n.text.toList = lexeme →
      Yields rest .name lexeme (.ok ⟨.name n, lexeme, rest⟩)
  | function {lexeme : List Char} {n : Identifier} : '@' :: n.text.toList = lexeme →
      Yields rest .function lexeme (.ok ⟨.function n, lexeme, rest⟩)
  | number {p : TagPattern} {lexeme : List Char} {v : Numeral} : p = .digits ∨ p = .point →
      Numeral.read? lexeme = some v → Yields rest p lexeme (.ok ⟨v.token, lexeme, rest⟩)
  | malformed {p : TagPattern} {lexeme : List Char} : p = .digits ∨ p = .point →
      Numeral.read? lexeme = none → Yields rest p lexeme (.error .malformedNumber)
  | string {lexeme : List Char} {s : Scanned} : Quoted.scan rest = .ok s →
      Yields rest .quote lexeme
        (.ok ⟨.string (String.ofList s.value), lexeme ++ s.chars, s.rest⟩)
  | badString {lexeme : List Char} {fault : LexFault} : Quoted.scan rest = .error fault →
      Yields rest .quote lexeme (.error fault)
  | operator {lexeme : List Char} {op : Operator} : [op.symbol] = lexeme →
      Yields rest .operator lexeme (.ok ⟨.operator op, lexeme, rest⟩)

/-- The text that a lexeme of text stands for. -/
def TextPattern.meaning : TextPattern → List Char → List Char
  | .tagOpen, _ => []
  | .escapedBackslash, _ => ['\\']
  | .escapedBrace, _ => ['{']
  | .brace, _ => ['{']
  | .literal, lexeme => lexeme

/-- **A run of text**: longest matches one after the other, none of which opens a tag. It has a
value, is written with some characters, and leaves some input. -/
inductive TextRun : List Char → List Char → List Char → List Char → Prop
  | nil {cs : List Char} : TextRun cs [] [] cs
  | cons {p : TextPattern} {cs lexeme rest value chars final : List Char} :
      LongestMatch TextPattern.language cs p lexeme rest → p ≠ .tagOpen →
      TextRun rest value chars final →
      TextRun cs (p.meaning lexeme ++ value) (lexeme ++ chars) final

/-- **One token by patterns.** -/
inductive PatternStep : Mode → List Char → Step → Prop
  /-- Behind the blanks, what comes of the longest match is a token. -/
  | found {cs lexeme rest : List Char} {p : TagPattern} {f : Found} :
      LongestMatch TagPattern.language (cs.dropWhile (· ∈ blanks)) p lexeme rest →
      p.Yields rest lexeme (.ok f) →
      PatternStep .tag cs
        (.token ⟨cs.takeWhile (· ∈ blanks), f.chars, f.token⟩ (modeAfter f.token) f.rest)
  /-- What comes of the longest match is a fault. -/
  | refused {cs lexeme rest : List Char} {p : TagPattern} {fault : LexFault} :
      LongestMatch TagPattern.language (cs.dropWhile (· ∈ blanks)) p lexeme rest →
      p.Yields rest lexeme (.error fault) →
      PatternStep .tag cs (.fault (cs.takeWhile (· ∈ blanks)) fault)
  /-- There is no match. -/
  | unexpected {cs : List Char} :
      cs.dropWhile (· ∈ blanks) ≠ [] →
      NoMatch TagPattern.language (cs.dropWhile (· ∈ blanks)) →
      PatternStep .tag cs (.fault (cs.takeWhile (· ∈ blanks)) .unexpectedCharacter)
  /-- There is nothing behind the blanks. -/
  | unterminated {cs : List Char} : cs.dropWhile (· ∈ blanks) = [] →
      PatternStep .tag cs (.fault (cs.takeWhile (· ∈ blanks)) .unterminatedTag)
  /-- The input has ended. -/
  | finished : PatternStep .text [] .finished
  /-- The longest match opens a tag. -/
  | opener {cs lexeme rest : List Char} :
      LongestMatch TextPattern.language cs .tagOpen lexeme rest →
      PatternStep .text cs (.token ⟨[], lexeme, .tagOpen⟩ .tag rest)
  /-- A run of text, up to the end of the input or to a match that opens a tag. -/
  | text {cs value chars rest : List Char} :
      TextRun cs value chars rest → chars ≠ [] →
      (rest = [] ∨ ∃ lexeme more, LongestMatch TextPattern.language rest .tagOpen lexeme more) →
      PatternStep .text cs (.token ⟨[], chars, .text (String.ofList value)⟩ .text rest)
  /-- A run of text, up to where there is no match. -/
  | invalid {cs value chars rest : List Char} :
      TextRun cs value chars rest → rest ≠ [] → NoMatch TextPattern.language rest →
      PatternStep .text cs (.fault chars .invalidEscape)

/-! ### Words that fit -/

/-- Digits are digits. -/
theorem isDigit_eq_true_iff {c : Char} : c.isDigit = true ↔ IsDigit c := by
  rw [isDigit_iff]
  simp [IsDigit, Char.le_def, UInt32.le_iff_toNat_le]

/-- What names go on with. -/
theorem isNamePart_iff {c : Char} :
    isNamePart c = true ↔ IsLetter c ∨ IsDigit c ∨ c = '_' := by
  simp [isNamePart, Char.isAlphanum, isLetter_iff, isDigit_eq_true_iff, or_assoc]

/-- What numbers go on with. -/
theorem Numeral.isPart_iff {c : Char} : isPart c = true ↔ IsDigit c ∨ c = '.' := by
  simp [isPart, isDigit_eq_true_iff]

/-- Repetitions of a class are the words with all characters in it. -/
theorem mem_kstar_oneOf {class' : Char → Prop} {w : List Char} :
    w ∈ (oneOf class')∗ ↔ ∀ c ∈ w, class' c := by
  rw [Language.mem_kstar]
  constructor
  · rintro ⟨parts, rfl, hparts⟩ c hc
    obtain ⟨part, hpart, hcpart⟩ := List.mem_flatten.mp hc
    obtain ⟨d, hd, rfl⟩ := hparts part hpart
    rwa [List.mem_singleton.mp hcpart]
  · intro hall
    refine ⟨w.map fun c => [c], ?_, fun part hpart => ?_⟩
    · rw [← List.flatMap_def, List.flatMap_singleton']
    · obtain ⟨c, hc, rfl⟩ := List.mem_map.mp hpart
      exact ⟨c, hall c hc, rfl⟩

/-- A character of one class in front of repetitions of another. -/
theorem mem_oneOf_mul_kstar {first class' : Char → Prop} {w : List Char} :
    w ∈ oneOf first * (oneOf class')∗ ↔
      ∃ c cs, w = c :: cs ∧ first c ∧ ∀ d ∈ cs, class' d := by
  rw [Language.mem_mul]
  constructor
  · rintro ⟨_, ⟨c, hc, rfl⟩, cs, hcs, rfl⟩
    exact ⟨c, cs, rfl, hc, mem_kstar_oneOf.mp hcs⟩
  · rintro ⟨c, cs, rfl, hc, hcs⟩
    exact ⟨[c], ⟨c, hc, rfl⟩, cs, mem_kstar_oneOf.mpr hcs, rfl⟩

/-- The words are the names. -/
theorem mem_wordPattern_iff {w : List Char} : w ∈ wordPattern ↔ isName w = true := by
  rw [wordPattern, mem_oneOf_mul_kstar]
  constructor
  · rintro ⟨c, cs, rfl, hc, hcs⟩
    simp only [isName, isNameStart, Bool.and_eq_true, List.all_eq_true]
    exact ⟨isLetter_iff.mp hc, fun d hd => isNamePart_iff.mpr (hcs d hd)⟩
  · intro hname
    cases w with
    | nil => cases hname
    | cons c cs =>
        simp only [isName, isNameStart, Bool.and_eq_true, List.all_eq_true] at hname
        exact ⟨c, cs, rfl, isLetter_iff.mpr hname.1, fun d hd => isNamePart_iff.mp (hname.2 d hd)⟩

/-- A function is an at sign in front of a name. -/
theorem mem_function_iff {w : List Char} :
    w ∈ TagPattern.function.language ↔ ∃ v, w = '@' :: v ∧ isName v = true := by
  rw [TagPattern.language, Language.mem_mul]
  constructor
  · rintro ⟨_, rfl, v, hv, rfl⟩
    exact ⟨v, rfl, mem_wordPattern_iff.mp hv⟩
  · rintro ⟨v, rfl, hv⟩
    exact ⟨['@'], rfl, v, mem_wordPattern_iff.mpr hv, rfl⟩

/-- Numbers are digits and points behind a sign or none. -/
theorem mem_numberPattern_iff {first : Char → Prop} {w : List Char} :
    w ∈ numberPattern first ↔ ∃ negative c cs, w = Numeral.sign negative ++ c :: cs ∧ first c ∧
      ∀ d ∈ cs, Numeral.isPart d = true := by
  rw [numberPattern, Language.mem_mul]
  simp only [Numeral.isPart_iff]
  constructor
  · rintro ⟨sign, hsign, body, hbody, rfl⟩
    obtain ⟨c, cs, rfl, hc, hcs⟩ := mem_oneOf_mul_kstar.mp hbody
    rcases hsign with hnone | hminus
    · obtain rfl : sign = [] := hnone
      exact ⟨false, c, cs, rfl, hc, hcs⟩
    · obtain rfl : sign = ['-'] := hminus
      exact ⟨true, c, cs, rfl, hc, hcs⟩
  · rintro ⟨negative, c, cs, rfl, hc, hcs⟩
    refine ⟨Numeral.sign negative, ?_, c :: cs, mem_oneOf_mul_kstar.mpr ⟨c, cs, rfl, hc, hcs⟩, rfl⟩
    cases negative with
    | true => exact Or.inr rfl
    | false => exact Or.inl rfl

/-- Numbers of either pattern are digits and points behind a sign or none. -/
theorem TagPattern.exists_parts_of_mem {p : TagPattern} (hp : p = .digits ∨ p = .point)
    {w : List Char} (h : w ∈ p.language) :
    ∃ negative c cs, w = Numeral.sign negative ++ c :: cs ∧
      ∀ d ∈ c :: cs, Numeral.isPart d = true := by
  obtain ⟨first, hmem, hfirst⟩ : ∃ first, w ∈ numberPattern first ∧
      ∀ c, first c → Numeral.isPart c = true := by
    rcases hp with rfl | rfl
    · exact ⟨_, h, fun c hc => Numeral.isPart_iff.mpr (Or.inl hc)⟩
    · exact ⟨_, h, fun c hc => Numeral.isPart_iff.mpr (Or.inr hc)⟩
  obtain ⟨negative, c, cs, rfl, hc, hcs⟩ := mem_numberPattern_iff.mp hmem
  exact ⟨negative, c, cs, rfl, List.forall_mem_cons.mpr ⟨hfirst c hc, hcs⟩⟩

/-- Digits and points behind a sign or none fit one of the patterns of numbers. -/
theorem TagPattern.mem_of_parts (negative : Bool) {c : Char} {cs : List Char}
    (h : ∀ d ∈ c :: cs, Numeral.isPart d = true) :
    Numeral.sign negative ++ c :: cs ∈ TagPattern.digits.language ∨
      Numeral.sign negative ++ c :: cs ∈ TagPattern.point.language := by
  obtain ⟨hc, hcs⟩ := List.forall_mem_cons.mp h
  rcases Numeral.isPart_iff.mp hc with hdigit | hpoint
  · exact Or.inl (mem_numberPattern_iff.mpr ⟨negative, c, cs, rfl, hdigit, hcs⟩)
  · exact Or.inr (mem_numberPattern_iff.mpr ⟨negative, c, cs, rfl, hpoint, hcs⟩)

/-- Names with one character more. -/
theorem isName_concat {w : List Char} {d : Char} (h : isName w = true)
    (hd : isNamePart d = true) : isName (w ++ [d]) = true := by
  cases w with
  | nil => cases h
  | cons c cs =>
      simp only [isName, Bool.and_eq_true, List.all_eq_true] at h
      simp only [List.cons_append, isName, Bool.and_eq_true, List.all_append, h.1, true_and,
        List.all_eq_true]
      exact ⟨h.2, by simpa using hd⟩

/-- Numbers with one character more. -/
theorem concat_mem_numberPattern {first : Char → Prop} {w : List Char} {d : Char}
    (h : w ∈ numberPattern first) (hd : Numeral.isPart d = true) :
    w ++ [d] ∈ numberPattern first := by
  obtain ⟨negative, c, cs, rfl, hc, hcs⟩ := mem_numberPattern_iff.mp h
  refine mem_numberPattern_iff.mpr ⟨negative, c, cs ++ [d], by simp, hc, fun e he => ?_⟩
  rcases List.mem_append.mp he with he | he
  · exact hcs e he
  · rwa [List.mem_singleton.mp he]

/-! ### First characters tell the pattern -/

/-- The pattern of the lexemes of a tag that begin with a character, or with that character behind a
sign. -/
def TagPattern.ofFirst (c : Char) : TagPattern :=
  if isNameStart c then .name
  else if c.isDigit then .digits
  else if c = '.' then .point
  else if c = '$' then .close
  else if c = '=' then .echo
  else if c = '"' then .quote
  else if c = '@' then .function
  else .operator

/-- The pattern of a lexeme of a tag. -/
def TagPattern.ofLexeme : List Char → Option TagPattern
  | [] => none
  | '-' :: c :: _ => some (ofFirst c)
  | c :: _ => some (ofFirst c)

/-- Without a sign the first character counts. -/
theorem TagPattern.ofLexeme_cons {c : Char} (hc : c ≠ '-') (cs : List Char) :
    ofLexeme (c :: cs) = some (ofFirst c) := by
  rw [ofLexeme.eq_def]
  split <;> simp_all

/-- With a sign or without, the first character of a number counts. -/
theorem TagPattern.ofLexeme_sign (negative : Bool) {c : Char} (hc : Numeral.isPart c = true)
    (cs : List Char) : ofLexeme (Numeral.sign negative ++ c :: cs) = some (ofFirst c) := by
  cases negative with
  | true => rfl
  | false =>
      refine ofLexeme_cons ?_ cs
      rintro rfl
      cases hc

/-- **A lexeme of a tag fits no pattern but its own.** -/
theorem TagPattern.ofLexeme_of_mem {p : TagPattern} {w : List Char} (h : w ∈ p.language) :
    ofLexeme w = some p := by
  cases p with
  | close | echo | quote =>
      obtain rfl := h
      rfl
  | name =>
      have hname := mem_wordPattern_iff.mp h
      cases w with
      | nil => cases hname
      | cons c cs =>
          simp only [isName, Bool.and_eq_true] at hname
          have hc : c ≠ '-' := by
            rintro rfl
            exact absurd hname.1 (by decide)
          rw [ofLexeme_cons hc, ofFirst, if_pos hname.1]
  | function =>
      obtain ⟨v, rfl, -⟩ := mem_function_iff.mp h
      rfl
  | digits =>
      obtain ⟨negative, c, cs, rfl, hc, -⟩ := mem_numberPattern_iff.mp h
      have hdigit := isDigit_eq_true_iff.mpr hc
      have hpart := Numeral.isPart_of_isDigit hdigit
      rw [ofLexeme_sign negative hpart, ofFirst, isNameStart_of_isPart hpart, hdigit]
      rfl
  | point =>
      obtain ⟨negative, c, cs, rfl, rfl, -⟩ := mem_numberPattern_iff.mp h
      rw [ofLexeme_sign negative rfl]
      rfl
  | operator =>
      obtain ⟨c, hc, rfl⟩ := h
      simp only [List.mem_cons, List.not_mem_nil, or_false] at hc
      rcases hc with rfl | rfl | rfl | rfl | rfl <;> rfl

/-- The pattern of a lexeme of text. -/
def TextPattern.ofLexeme : List Char → Option TextPattern
  | [] => none
  | '{' :: '$' :: _ => some .tagOpen
  | '{' :: _ => some .brace
  | '\\' :: '\\' :: _ => some .escapedBackslash
  | '\\' :: _ => some .escapedBrace
  | _ :: _ => some .literal

/-- A lexeme of text fits no pattern but its own. -/
theorem TextPattern.ofLexeme_of_mem {p : TextPattern} {w : List Char} (h : w ∈ p.language) :
    ofLexeme w = some p := by
  cases p with
  | tagOpen | escapedBackslash | escapedBrace | brace =>
      obtain rfl := h
      rfl
  | literal =>
      obtain ⟨c, cs, rfl, ⟨hback, hbrace⟩, -⟩ := mem_oneOf_mul_kstar.mp h
      rw [ofLexeme.eq_def]
      split <;> simp_all

/-! ### Tags -/

/-- A minus sign that is the longest match is the sign of no number. -/
theorem LongestMatch.isPart_of_minus {cs rest : List Char} {p : TagPattern}
    (h : LongestMatch TagPattern.language cs p ['-'] rest) :
    ∀ d ∈ rest.head?, Numeral.isPart d = false := by
  intro d hd
  rw [Bool.eq_false_iff]
  intro hpart
  rcases Numeral.isPart_iff.mp hpart with hdigit | rfl
  · exact h.concat_notMem hd .digits
      (mem_numberPattern_iff.mpr ⟨true, d, [], rfl, hdigit, by simp⟩)
  · exact h.concat_notMem hd .point
      (mem_numberPattern_iff.mpr ⟨true, '.', [], rfl, rfl, by simp⟩)

/-- A number that is the longest match is followed by nothing that goes on in it. -/
theorem LongestMatch.isPart_of_number {cs lexeme rest : List Char} {p : TagPattern}
    (h : LongestMatch TagPattern.language cs p lexeme rest) (hp : p = .digits ∨ p = .point) :
    ∀ d ∈ rest.head?, Numeral.isPart d = false := by
  intro d hd
  rw [Bool.eq_false_iff]
  intro hpart
  refine h.concat_notMem hd p ?_
  rcases hp with rfl | rfl
  · exact concat_mem_numberPattern h.mem hpart
  · exact concat_mem_numberPattern h.mem hpart

/-- A number that is the longest match is scanned whole. -/
theorem LongestMatch.scanTag_number {cs lexeme rest : List Char} {p : TagPattern}
    (h : LongestMatch TagPattern.language cs p lexeme rest) (hp : p = .digits ∨ p = .point) :
    scanTag cs = (Numeral.read? lexeme).elim (.error .malformedNumber)
      fun v => .ok ⟨v.token, lexeme, rest⟩ := by
  obtain ⟨negative, c, more, rfl, hall⟩ := TagPattern.exists_parts_of_mem hp h.mem
  rw [← h.append]
  exact scanTag_number_append negative hall (h.isPart_of_number hp)

/-- **What is scanned in a tag** at a longest match is what comes of its lexeme. -/
theorem TagPattern.Yields.scanTag_eq {cs lexeme rest : List Char} {p : TagPattern}
    {result : Except LexFault Found} (h : p.Yields rest lexeme result)
    (hmatch : LongestMatch TagPattern.language cs p lexeme rest) : scanTag cs = result := by
  have happend := hmatch.append
  have hmem := hmatch.mem
  cases h with
  | close | echo =>
      obtain rfl := hmem
      rw [← happend]
      rfl
  | @name _ n hn =>
      subst hn
      rw [← happend]
      refine scanTag_name_append n fun d hd => ?_
      rw [Bool.eq_false_iff]
      intro hpart
      exact hmatch.concat_notMem hd .name
        (mem_wordPattern_iff.mpr (isName_concat n.isName_text hpart))
  | @function _ n hn =>
      subst hn
      have hscan := n.scan?_append rest fun d hd => by
        rw [Bool.eq_false_iff]
        intro hpart
        exact hmatch.concat_notMem hd .function
          (mem_function_iff.mpr ⟨_, rfl, isName_concat n.isName_text hpart⟩)
      rw [← happend]
      simp [scanTag, hscan]
  | number hp hread =>
      rw [hmatch.scanTag_number hp, hread]
      rfl
  | malformed hp hread =>
      rw [hmatch.scanTag_number hp, hread]
      rfl
  | string hs =>
      obtain rfl := hmem
      rw [← happend]
      simp [scanTag, hs, Except.map]
  | badString hs =>
      obtain rfl := hmem
      rw [← happend]
      simp [scanTag, hs, Except.map]
  | @operator _ op hop =>
      subst hop
      rw [← happend]
      refine scanTag_operator_append fun hminus => ?_
      subst hminus
      exact hmatch.isPart_of_minus

/-- Something comes of every lexeme of a tag. -/
theorem TagPattern.exists_yields {p : TagPattern} {lexeme : List Char} (h : lexeme ∈ p.language)
    (rest : List Char) : ∃ result, p.Yields rest lexeme result := by
  have hnumber (hp : p = .digits ∨ p = .point) : ∃ result, p.Yields rest lexeme result := by
    cases hread : Numeral.read? lexeme with
    | none => exact ⟨_, .malformed hp hread⟩
    | some v => exact ⟨_, .number hp hread⟩
  cases p with
  | close => exact ⟨_, .close⟩
  | echo => exact ⟨_, .echo⟩
  | name =>
      have hname := mem_wordPattern_iff.mp h
      rw [← String.toList_ofList (l := lexeme)] at hname
      exact ⟨_, .name (n := ⟨_, hname⟩) String.toList_ofList⟩
  | function =>
      obtain ⟨v, rfl, hname⟩ := mem_function_iff.mp h
      rw [← String.toList_ofList (l := v)] at hname
      exact ⟨_, .function (n := ⟨_, hname⟩) (by rw [String.toList_ofList])⟩
  | digits => exact hnumber (Or.inl rfl)
  | point => exact hnumber (Or.inr rfl)
  | quote =>
      cases hs : Quoted.scan rest with
      | ok s => exact ⟨_, .string hs⟩
      | error fault => exact ⟨_, .badString hs⟩
  | operator =>
      obtain ⟨c, hc, rfl⟩ := h
      obtain ⟨op, rfl⟩ := Operator.exists_symbol_eq_iff.mpr hc
      exact ⟨_, .operator rfl⟩

/-- Digits and points that are scanned fit a pattern. -/
theorem Numeral.mem_language_of_scan? {cs lexeme rest : List Char}
    (h : scan? cs = some (lexeme, rest)) :
    lexeme ∈ TagPattern.digits.language ∨ lexeme ∈ TagPattern.point.language := by
  rcases hs : splitSign cs with ⟨negative, body⟩
  have hparts : ∀ d ∈ body.takeWhile isPart, isPart d = true :=
    fun d hd => List.mem_takeWhile_imp hd
  simp only [scan?, hs] at h
  split at h
  · cases h
  · rename_i hne
    rw [List.isEmpty_iff] at hne
    obtain ⟨c, run, hrun⟩ := List.exists_cons_of_ne_nil hne
    rw [hrun] at h hparts
    obtain ⟨rfl, -⟩ := Prod.mk.inj (Option.some.inj h)
    have hlexeme : (if negative = true then '-' :: c :: run else c :: run) =
        sign negative ++ c :: run := by
      cases negative <;> rfl
    rw [hlexeme]
    exact TagPattern.mem_of_parts negative hparts

/-- Where no pattern fits there is an unexpected character. -/
theorem scanTag_of_noMatch {cs : List Char} (hne : cs ≠ [])
    (h : NoMatch TagPattern.language cs) : scanTag cs = .error .unexpectedCharacter := by
  generalize hresult : scanTag cs = result
  cases scansTag_of_eq hresult with
  | unexpected | noFunction => rfl
  | ended => exact absurd rfl hne
  | @close cs => exact absurd rfl (h .close ['$', '}'] (by simp) ⟨cs, rfl⟩)
  | @echo cs => exact absurd rfl (h .echo ['='] (by simp) ⟨cs, rfl⟩)
  | @string cs | @badString cs => exact absurd rfl (h .quote ['"'] (by simp) ⟨cs, rfl⟩)
  | @function cs rest n hname =>
      obtain ⟨-, happend⟩ := Identifier.eq_append_of_scan? hname
      exact absurd (mem_function_iff.mpr ⟨_, rfl, n.isName_text⟩)
        (h .function _ (by simp) ⟨rest, by rw [List.cons_append, happend]⟩)
  | @name _ rest n hname =>
      obtain ⟨hname', happend⟩ := Identifier.eq_append_of_scan? hname
      exact absurd (mem_wordPattern_iff.mpr n.isName_text) (h .name _ hname' ⟨rest, happend⟩)
  | @number _ lexeme rest _ hnumber | @malformed _ lexeme rest hnumber =>
      obtain ⟨hlexeme, happend⟩ := Numeral.eq_append_of_scan? hnumber
      rcases Numeral.mem_language_of_scan? hnumber with hmem | hmem
      · exact absurd hmem (h .digits _ hlexeme ⟨rest, happend⟩)
      · exact absurd hmem (h .point _ hlexeme ⟨rest, happend⟩)
  | @operator _ cs op _ hop =>
      obtain rfl := Operator.symbol_of_ofChar? hop
      exact absurd ⟨_, op.symbol_mem, rfl⟩ (h .operator [op.symbol] (by simp) ⟨cs, rfl⟩)

/-! ### Text -/

/-- Characters of no meaning of their own are read as they stand. -/
theorem Escaped.scan_literal_append {lexeme : List Char}
    (h : ∀ c ∈ lexeme, c ≠ '\\' ∧ c ≠ '{') (rest : List Char) :
    scan (lexeme ++ rest) = behind lexeme lexeme (scan rest) := by
  induction lexeme with
  | nil => cases hrest : scan rest <;> simp [behind, hrest]
  | cons c lexeme ih =>
      obtain ⟨hback, hbrace⟩ := h c (by simp)
      rw [List.cons_append, scan_cons_of_plain hback fun r hc => absurd hc hbrace,
        ih fun d hd => h d (by simp [hd])]
      cases scan rest <;> rfl

/-- **What is scanned in text** at a longest match: the text it stands for, and then what is scanned
behind it. -/
theorem LongestMatch.scan_eq {cs lexeme rest : List Char} {p : TextPattern}
    (h : LongestMatch TextPattern.language cs p lexeme rest) (hp : p ≠ .tagOpen) :
    Escaped.scan cs = Escaped.behind (p.meaning lexeme) lexeme (Escaped.scan rest) := by
  have hmem := h.mem
  rw [← h.append]
  cases p with
  | tagOpen => exact absurd rfl hp
  | escapedBackslash | escapedBrace =>
      obtain rfl := hmem
      rw [List.cons_append, List.singleton_append, Escaped.scan]
      cases Escaped.scan rest <;> rfl
  | brace =>
      obtain rfl := hmem
      have hopen : ∀ r, '{' = '{' → rest ≠ '$' :: r := by
        rintro r - rfl
        exact h.concat_notMem (d := '$') rfl .tagOpen rfl
      rw [List.singleton_append, Escaped.scan_cons_of_plain (by decide) hopen]
      cases Escaped.scan rest <;> rfl
  | literal =>
      obtain ⟨c, more, rfl, hc, hmore⟩ := mem_oneOf_mul_kstar.mp hmem
      refine Escaped.scan_literal_append (fun d hd => ?_) rest
      rcases List.mem_cons.mp hd with rfl | hd
      · exact hc
      · exact hmore d hd

/-- A match that opens a tag is an opener. -/
theorem LongestMatch.eq_of_tagOpen {cs lexeme rest : List Char}
    (h : LongestMatch TextPattern.language cs .tagOpen lexeme rest) :
    lexeme = ['{', '$'] ∧ cs = '{' :: '$' :: rest := by
  obtain rfl : lexeme = ['{', '$'] := h.mem
  exact ⟨rfl, h.append.symm⟩

/-- **Where no pattern of text fits**: in front of a backslash that escapes nothing. -/
theorem noMatch_text_iff {cs : List Char} (hne : cs ≠ []) :
    NoMatch TextPattern.language cs ↔
      ∃ r, cs = '\\' :: r ∧ r.head? ≠ some '\\' ∧ r.head? ≠ some '{' := by
  constructor
  · intro h
    obtain ⟨c, r, rfl⟩ := List.exists_cons_of_ne_nil hne
    have hbrace : c ≠ '{' := by
      rintro rfl
      exact h .brace ['{'] (by simp) ⟨r, rfl⟩ rfl
    have hback : c = '\\' := by
      by_contra hback
      exact h .literal [c] (by simp) ⟨r, rfl⟩
        (mem_oneOf_mul_kstar.mpr ⟨c, [], rfl, ⟨hback, hbrace⟩, by simp⟩)
    subst hback
    refine ⟨r, rfl, fun hr => ?_, fun hr => ?_⟩
    · obtain ⟨r, rfl⟩ := List.head?_eq_some_iff.mp hr
      exact h .escapedBackslash ['\\', '\\'] (by simp) ⟨r, rfl⟩ rfl
    · obtain ⟨r, rfl⟩ := List.head?_eq_some_iff.mp hr
      exact h .escapedBrace ['\\', '{'] (by simp) ⟨r, rfl⟩ rfl
  · rintro ⟨r, rfl, hback, hbrace⟩ p w hw ⟨more, happend⟩ hmem
    cases p with
    | tagOpen | brace =>
        obtain rfl := hmem
        cases happend
    | escapedBackslash =>
        obtain rfl := hmem
        cases happend
        exact hback rfl
    | escapedBrace =>
        obtain rfl := hmem
        cases happend
        exact hbrace rfl
    | literal =>
        obtain ⟨c, cs, rfl, ⟨hc, -⟩, -⟩ := mem_oneOf_mul_kstar.mp hmem
        cases happend
        exact hc rfl

/-- A backslash that escapes nothing is a fault. -/
theorem scan_of_noMatch {cs : List Char} (hne : cs ≠ []) (h : NoMatch TextPattern.language cs) :
    Escaped.scan cs = .error [] := by
  obtain ⟨r, rfl, hback, hbrace⟩ := (noMatch_text_iff hne).mp h
  cases r with
  | nil => rfl
  | cons d r =>
      rw [List.head?_cons, Ne, Option.some.injEq] at hback hbrace
      simp [Escaped.scan, hback, hbrace]

/-- **What is scanned in text** along a run of longest matches. -/
theorem TextRun.scan_eq {cs value chars rest : List Char} (h : TextRun cs value chars rest) :
    Escaped.scan cs = Escaped.behind value chars (Escaped.scan rest) := by
  induction h with
  | @nil cs => cases Escaped.scan cs <;> simp [Escaped.behind]
  | @cons p cs lexeme rest value chars final hmatch hp _ ih =>
      rw [hmatch.scan_eq hp, ih]
      cases Escaped.scan final <;> simp [Escaped.behind]

/-- The characters of a run and what it leaves make up the input. -/
theorem TextRun.append {cs value chars rest : List Char} (h : TextRun cs value chars rest) :
    chars ++ rest = cs := by
  induction h with
  | nil => rfl
  | cons hmatch _ _ ih => rw [List.append_assoc, ih, hmatch.append]

/-- Every input begins with a run of text up to its end, to a match that opens a tag, or to where
there is no match. -/
theorem exists_textRun (cs : List Char) :
    ∃ value chars rest, TextRun cs value chars rest ∧
      (rest = [] ∨ (∃ lexeme more, LongestMatch TextPattern.language rest .tagOpen lexeme more) ∨
        (rest ≠ [] ∧ NoMatch TextPattern.language rest)) := by
  induction hn : cs.length using Nat.strong_induction_on generalizing cs with
  | _ n ih =>
      subst hn
      by_cases hnil : cs = []
      · exact ⟨[], [], cs, .nil, Or.inl hnil⟩
      rcases exists_longestMatch TextPattern.language cs with
        ⟨p, lexeme, rest, hmatch⟩ | hnone
      · by_cases hp : p = .tagOpen
        · subst hp
          exact ⟨[], [], cs, .nil, Or.inr (Or.inl ⟨lexeme, rest, hmatch⟩)⟩
        · have hlt : rest.length < cs.length := by
            have hpos := List.length_pos_iff.mpr hmatch.ne_nil
            rw [← hmatch.append, List.length_append]
            omega
          obtain ⟨value, chars, final, hrun, hfinal⟩ := ih rest.length hlt rest rfl
          exact ⟨_, _, final, .cons hmatch hp hrun, hfinal⟩
      · exact ⟨[], [], cs, .nil, Or.inr (Or.inr ⟨hnil, hnone⟩)⟩

/-! ### Steps -/

/-- The blanks of the lexer are those. -/
theorem isBlank_eq : isBlank = fun c => decide (c ∈ blanks) := by
  funext c
  rw [Bool.eq_iff_iff]
  simp [isBlank, blanks, or_assoc]

/-- **Steps by patterns are steps of the lexer.** -/
theorem PatternStep.step_eq {mode : Mode} {cs : List Char} {s : Step}
    (h : PatternStep mode cs s) : step mode cs = s := by
  cases h with
  | found hmatch hyields =>
      simp only [step, tagStep, isBlank_eq, hyields.scanTag_eq hmatch]
  | refused hmatch hyields =>
      simp only [step, tagStep, isBlank_eq, hyields.scanTag_eq hmatch]
  | unexpected hne hnone =>
      simp only [step, tagStep, isBlank_eq, scanTag_of_noMatch hne hnone]
  | unterminated hnil =>
      simp only [step, tagStep, isBlank_eq, hnil, scanTag]
  | finished => rfl
  | opener hmatch =>
      obtain ⟨rfl, rfl⟩ := hmatch.eq_of_tagOpen
      rfl
  | @text _ value chars rest hrun hne hends =>
      have hscan := hrun.scan_eq
      rw [← hrun.append] at hscan ⊢
      have hends' : Escaped.Ends rest := by
        rcases hends with rfl | ⟨lexeme, more, hmatch⟩
        · exact Or.inl rfl
        · exact Or.inr ⟨more, hmatch.eq_of_tagOpen.2⟩
      have hnot := Escaped.not_ends_of_scan_eq_behind hne hscan
      rw [Escaped.scan_of_ends hends', Escaped.behind] at hscan
      simpa using step_of_scan_eq_ok hnot hscan
  | @invalid _ value chars rest hrun hne hnone =>
      have hscan := hrun.scan_eq
      rw [scan_of_noMatch hne hnone, Escaped.behind, List.append_nil] at hscan
      have hnot : ¬ Escaped.Ends cs := by
        intro hends
        rw [Escaped.scan_of_ends hends] at hscan
        cases hscan
      exact step_of_scan_eq_error hnot hscan

/-- There is a step by patterns for every input. -/
theorem exists_patternStep (mode : Mode) (cs : List Char) : ∃ s, PatternStep mode cs s := by
  cases mode with
  | tag =>
      by_cases hnil : cs.dropWhile (· ∈ blanks) = []
      · exact ⟨_, .unterminated hnil⟩
      rcases exists_longestMatch TagPattern.language (cs.dropWhile (· ∈ blanks)) with
        ⟨p, lexeme, rest, hmatch⟩ | hnone
      · obtain ⟨result, hyields⟩ := TagPattern.exists_yields hmatch.mem rest
        cases result with
        | ok f => exact ⟨_, .found hmatch hyields⟩
        | error fault => exact ⟨_, .refused hmatch hyields⟩
      · exact ⟨_, .unexpected hnil hnone⟩
  | text =>
      obtain ⟨value, chars, rest, hrun, hrest⟩ := exists_textRun cs
      by_cases hchars : chars = []
      · -- nothing is read, so that the run has ended where it began
        have happend := hrun.append
        rw [hchars, List.nil_append] at happend
        subst happend
        rcases hrest with rfl | ⟨lexeme, more, hmatch⟩ | ⟨hne, hnone⟩
        · exact ⟨_, .finished⟩
        · exact ⟨_, .opener hmatch⟩
        · exact ⟨_, .invalid hrun hne hnone⟩
      · rcases hrest with hnil | hopen | ⟨hne, hnone⟩
        · exact ⟨_, .text hrun hchars (Or.inl hnil)⟩
        · exact ⟨_, .text hrun hchars (Or.inr hopen)⟩
        · exact ⟨_, .invalid hrun hne hnone⟩

/-- **A lexer that refines the patterns.** -/
structure RefinesPatterns (reads : Mode → List Char → Step) : Prop where
  /-- No lexeme of a tag fits two patterns. -/
  tag_disjoint : ∀ w p q, w ∈ TagPattern.language p → w ∈ TagPattern.language q → p = q
  /-- No lexeme of text fits two patterns. -/
  text_disjoint : ∀ w p q, w ∈ TextPattern.language p → w ∈ TextPattern.language q → p = q
  /-- In text only a backslash that escapes nothing fits no pattern. -/
  text_noMatch_iff : ∀ cs, cs ≠ [] → (NoMatch TextPattern.language cs ↔
    ∃ r, cs = '\\' :: r ∧ r.head? ≠ some '\\' ∧ r.head? ≠ some '{')
  /-- What is read is what there is by patterns, and nothing else. -/
  reads_iff : ∀ mode cs s, reads mode cs = s ↔ PatternStep mode cs s

/-- **The lexer takes the longest match** in either mode, and no two patterns compete. -/
theorem step_refines_patterns : RefinesPatterns step where
  tag_disjoint w p q hp hq := by
    have hsame := TagPattern.ofLexeme_of_mem hp
    rw [TagPattern.ofLexeme_of_mem hq] at hsame
    exact (Option.some.inj hsame).symm
  text_disjoint w p q hp hq := by
    have hsame := TextPattern.ofLexeme_of_mem hp
    rw [TextPattern.ofLexeme_of_mem hq] at hsame
    exact (Option.some.inj hsame).symm
  text_noMatch_iff cs hne := noMatch_text_iff hne
  reads_iff mode cs s := by
    constructor
    · rintro rfl
      obtain ⟨s, hs⟩ := exists_patternStep mode cs
      rwa [hs.step_eq]
    · exact PatternStep.step_eq

end TagTemplate
