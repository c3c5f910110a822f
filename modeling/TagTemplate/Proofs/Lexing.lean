import TagTemplate.Token.Lexing
import Mathlib.Data.List.Chain

/-!
# Runs of the lexer

`lex` repeats `step` until the input ends. `Steps` is the run of finitely many steps that
each hand out a token, and `Steps.tokens_lex` says that a run may be cut off in front of what
`lex` makes of the rest. Where it matters how the tokens are spelled, a `Passage` keeps the lexemes
of such a run. A reading without a fault is `Reads`.

What one step can hand out is said once, in `token_cases_of_step`: a tag opener, a run of text
that ends where the input ends or a tag begins, or something from inside a tag. All that is known
of whole readings follows from it by induction along `lex`. What may be found inside a tag, and by
which scanner, is said once in `ScansTag`.

Literal text is the one thing that does not stand for itself in a run, because a run of text
goes on over the seam between two pieces of input. `lex_escape_append` says what happens there:
an escaped text in front of any input joins the text run at its head, if there is one, and is
a run of its own if not. It never pairs with what follows.

## Main results

* `Steps.tokens_lex`, `Passage.lex_eq`: a run in front of a reading.
* `exists_passage_of_lexemes_eq_append`: readings may be cut anywhere.
* `lex_escape_append`: escaped text in front of a reading.
* `isChain_tokens_lex`, `sound_of_mem_tokens_lex`: no two runs of text are neighbours, runs
  of text are not empty, and doubles are finite.
-/

namespace TagTemplate

/-! ### One step of a reading -/

/-- A reading that begins with a token goes on behind it. -/
theorem lex_of_token {mode mode' : Mode} {cs rest : List Char} {l : Lexeme}
    (h : step mode cs = .token l mode' rest) :
    lex mode cs = { lex mode' rest with lexemes := l :: (lex mode' rest).lexemes } := by
  rw [lex]
  split <;> simp_all

/-- A reading of nothing. -/
theorem lex_of_finished {mode : Mode} {cs : List Char} (h : step mode cs = .finished) :
    lex mode cs = { lexemes := [], fault := none } := by
  rw [lex]
  split <;> simp_all

/-- A reading that meets a fault at once. -/
theorem lex_of_fault {mode : Mode} {cs passed : List Char} {fault : LexFault}
    (h : step mode cs = .fault passed fault) :
    lex mode cs = { lexemes := [], fault := some (passed, fault) } := by
  rw [lex]
  split <;> simp_all

/-! ### Runs of steps -/

/-- The lexer goes from one input to another, handing out tokens. -/
inductive Steps : Mode → List Char → List Token → Mode → List Char → Prop
  | refl {mode : Mode} {cs : List Char} : Steps mode cs [] mode cs
  | token {mode mode' last : Mode} {cs rest final : List Char} {l : Lexeme} {ts : List Token} :
      step mode cs = .token l mode' rest →
      Steps mode' rest ts last final →
      Steps mode cs (l.token :: ts) last final

/-- Runs one after the other are one run. -/
theorem Steps.trans {mode mode' mode'' : Mode} {cs cs' cs'' : List Char} {ts us : List Token}
    (h₁ : Steps mode cs ts mode' cs') (h₂ : Steps mode' cs' us mode'' cs'') :
    Steps mode cs (ts ++ us) mode'' cs'' := by
  induction h₁ with
  | refl => exact h₂
  | token hstep _ ih => exact Steps.token hstep (ih h₂)

/-- **A run in front of a reading**: its tokens come first, and the rest is read as if on its
own. -/
theorem Steps.tokens_lex {mode mode' : Mode} {cs rest : List Char} {ts : List Token}
    (h : Steps mode cs ts mode' rest) :
    (lex mode cs).tokens = ts ++ (lex mode' rest).tokens ∧
      (lex mode cs).fault = (lex mode' rest).fault := by
  induction h with
  | refl => exact ⟨rfl, rfl⟩
  | token hstep _ ih =>
      rw [lex_of_token hstep]
      exact ⟨congrArg (List.cons _) ih.1, ih.2⟩

/-- **A passage**: the lexemes from one input to another, with the modes in which these are read. -/
inductive Passage : Mode → List Char → List Lexeme → Mode → List Char → Prop
  | refl {mode : Mode} {cs : List Char} : Passage mode cs [] mode cs
  | step {mode mode' last : Mode} {cs rest final : List Char} {x : Lexeme} {xs : List Lexeme} :
      step mode cs = .token x mode' rest →
      Passage mode' rest xs last final →
      Passage mode cs (x :: xs) last final

namespace Passage

variable {mode mode' mode'' : Mode} {cs rest rest' : List Char} {xs ys : List Lexeme}

/-- The tokens on the way. -/
theorem steps (h : Passage mode cs xs mode' rest) :
    Steps mode cs (xs.map Lexeme.token) mode' rest := by
  induction h with
  | refl => exact Steps.refl
  | step hstep _ ih => exact Steps.token hstep ih

/-- Passages one after the other are one passage. -/
theorem trans (h₁ : Passage mode cs xs mode' rest) (h₂ : Passage mode' rest ys mode'' rest') :
    Passage mode cs (xs ++ ys) mode'' rest' := by
  induction h₁ with
  | refl => exact h₂
  | step hstep _ ih => exact Passage.step hstep (ih h₂)

/-- **A passage in front of a reading**: its lexemes come first, and the rest is read as if on its
own. -/
theorem lex_eq (h : Passage mode cs xs mode' rest) :
    lex mode cs = { lex mode' rest with lexemes := xs ++ (lex mode' rest).lexemes } := by
  induction h with
  | refl => rfl
  | step hstep _ ih =>
      rw [lex_of_token hstep, ih]
      rfl

/-- The lexemes and the input behind them make up the input. -/
theorem charsOf_append (h : Passage mode cs xs mode' rest) : Lexing.charsOf xs ++ rest = cs := by
  induction h with
  | refl => rfl
  | step hstep _ ih =>
      obtain ⟨-, hcs⟩ := step_eq_append hstep
      rw [← hcs, ← ih]
      simp [Lexing.charsOf]

end Passage

/-- A reading that has a first lexeme begins with a step that hands it out. -/
theorem exists_step_of_lexemes_eq_cons {mode : Mode} {cs : List Char} {l : Lexeme}
    {ls : List Lexeme} (h : (lex mode cs).lexemes = l :: ls) :
    ∃ mode' rest, step mode cs = .token l mode' rest ∧
      lex mode' rest = { lexemes := ls, fault := (lex mode cs).fault } := by
  cases hstep : step mode cs with
  | finished => simp [lex_of_finished hstep] at h
  | fault passed fault => simp [lex_of_fault hstep] at h
  | token l' mode' rest =>
      rw [lex_of_token hstep] at h ⊢
      obtain ⟨rfl, rfl⟩ := List.cons.inj h
      exact ⟨mode', rest, rfl, rfl⟩

/-- **A reading may be cut anywhere**: there is a passage through the lexemes in front of the cut,
and those behind it are the reading of what the passage leaves. -/
theorem exists_passage_of_lexemes_eq_append {mode : Mode} {cs : List Char}
    {before after : List Lexeme} (h : (lex mode cs).lexemes = before ++ after) :
    ∃ mode' rest, Passage mode cs before mode' rest ∧
      lex mode' rest = { lexemes := after, fault := (lex mode cs).fault } := by
  induction before generalizing mode cs with
  | nil => exact ⟨mode, cs, .refl, by rw [← List.nil_append after, ← h]⟩
  | cons l before ih =>
      obtain ⟨mode', rest, hstep, hlex⟩ := exists_step_of_lexemes_eq_cons h
      obtain ⟨last, final, hpassage, hfinal⟩ := ih (congrArg Lexing.lexemes hlex)
      exact ⟨last, final, .step hstep hpassage, by rw [hfinal, hlex]⟩

/-- The same, with the tokens in front of the cut and the characters they are read from. -/
theorem exists_steps_of_lexemes_eq_append {mode : Mode} {cs : List Char}
    {before after : List Lexeme} (h : (lex mode cs).lexemes = before ++ after) :
    ∃ mode' rest, Steps mode cs (before.map Lexeme.token) mode' rest ∧
      lex mode' rest = { lexemes := after, fault := (lex mode cs).fault } ∧
      Lexing.charsOf before ++ rest = cs := by
  obtain ⟨mode', rest, hpassage, hlex⟩ := exists_passage_of_lexemes_eq_append h
  exact ⟨mode', rest, hpassage.steps, hlex, hpassage.charsOf_append⟩

/-- A reading that hands out nothing has ended, in text mode, or has met a fault. -/
theorem step_of_lexemes_eq_nil {mode : Mode} {cs : List Char} (h : (lex mode cs).lexemes = []) :
    (mode = .text ∧ cs = [] ∧ step mode cs = .finished ∧ (lex mode cs).fault = none) ∨
    ∃ passed fault, step mode cs = .fault passed fault ∧
      (lex mode cs).fault = some (passed, fault) := by
  cases hstep : step mode cs with
  | token l mode' rest => simp [lex_of_token hstep] at h
  | fault passed fault => exact Or.inr ⟨passed, fault, rfl, by rw [lex_of_fault hstep]⟩
  | finished =>
      refine Or.inl ?_
      cases mode with
      | text =>
          cases cs with
          | nil => exact ⟨rfl, rfl, rfl, by rw [lex_of_finished hstep]⟩
          | cons c cs =>
              simp only [step] at hstep
              rw [textStep.eq_def] at hstep
              split at hstep
              · simp_all
              · cases hstep
              · split at hstep <;> cases hstep
      | tag =>
          simp only [step, tagStep] at hstep
          split at hstep <;> cases hstep

/-- A reading that ends at once is one of nothing, in text mode. -/
theorem eq_nil_of_step_finished {mode : Mode} {cs : List Char} (h : step mode cs = .finished) :
    mode = .text ∧ cs = [] := by
  have hnil : (lex mode cs).lexemes = [] := by rw [lex_of_finished h]
  rcases step_of_lexemes_eq_nil hnil with ⟨hmode, hcs, -⟩ | ⟨passed, fault, hfault, -⟩
  · exact ⟨hmode, hcs⟩
  · rw [h] at hfault
    cases hfault

/-- A reading is a run up to where it stops. Without a fault that is the end of the input, in text
mode. -/
theorem exists_steps_lex (mode : Mode) (cs : List Char) :
    ∃ last rest, Steps mode cs (lex mode cs).tokens last rest ∧
      Lexing.charsOf (lex mode cs).lexemes ++ rest = cs ∧
      ((lex mode cs).fault = none → last = .text ∧ rest = []) := by
  obtain ⟨last, rest, hsteps, hlex, hchars⟩ :=
    exists_steps_of_lexemes_eq_append (List.append_nil (lex mode cs).lexemes).symm
  refine ⟨last, rest, hsteps, hchars, fun hfault => ?_⟩
  rcases step_of_lexemes_eq_nil (congrArg Lexing.lexemes hlex) with
    ⟨hlast, hrest, -⟩ | ⟨passed, fault, -, hsome⟩
  · exact ⟨hlast, hrest⟩
  · rw [hlex, hfault] at hsome
    cases hsome

/-- A reading without a fault, and its tokens. -/
def Reads (mode : Mode) (cs : List Char) (ts : List Token) : Prop :=
  (lex mode cs).tokens = ts ∧ (lex mode cs).fault = none

/-- The tokens of a source are those of its reading, if that has no fault. -/
theorem tokenize_eq_ok_iff {source : String} {ts : List Token} :
    tokenize source = .ok ts ↔ Reads .text source.toList ts := by
  simp only [tokenize, Lexing.error?, Lexing.ofSource, Reads]
  cases hfault : (lex .text source.toList).fault with
  | none => simp
  | some fault => simp

/-- The error of a source is that of its reading. -/
theorem tokenize_eq_error_iff {source : String} {e : LexError} :
    tokenize source = .error e ↔ (Lexing.ofSource source).error? = some e := by
  simp only [tokenize]
  cases (Lexing.ofSource source).error? <;> simp

/-- The tokens of a source with their spans are those of its reading, if that has no error. -/
theorem tokenizeWithSpans_eq_ok_iff {source : String} {ts : List (Token × Span)} :
    tokenizeWithSpans source = .ok ts ↔
      (Lexing.ofSource source).error? = none ∧ (Lexing.ofSource source).spans = ts := by
  simp only [tokenizeWithSpans]
  cases (Lexing.ofSource source).error? <;> simp

/-- The error is the same with spans and without. -/
theorem tokenizeWithSpans_eq_error_iff {source : String} {e : LexError} :
    tokenizeWithSpans source = .error e ↔ (Lexing.ofSource source).error? = some e := by
  simp only [tokenizeWithSpans]
  cases (Lexing.ofSource source).error? <;> simp

/-- A run in front of a reading without a fault. -/
theorem Steps.reads {mode mode' : Mode} {cs rest : List Char} {ts us : List Token}
    (h : Steps mode cs ts mode' rest) (hrest : Reads mode' rest us) :
    Reads mode cs (ts ++ us) := by
  obtain ⟨htokens, hfault⟩ := h.tokens_lex
  exact ⟨by rw [htokens, hrest.1], by rw [hfault, hrest.2]⟩

/-! ### Literal text -/

namespace Escaped

/-- Where literal text ends: at the end of the input or at a tag opener. -/
def Ends (rest : List Char) : Prop := rest = [] ∨ ∃ r, rest = '{' :: '$' :: r

/-- Text that was read behind a character was read on its own. -/
theorem exists_of_extend_eq_ok {chars : List Char} {c : Char} {r : Except (List Char) Scanned}
    {s : Scanned} (h : scan.extend chars c r = .ok s) :
    ∃ s', r = .ok s' ∧ s = s'.extend chars c := by
  cases r with
  | error _ => cases h
  | ok s' =>
      cases h
      exact ⟨s', rfl, rfl⟩

/-- Literal text is read up to where it ends. -/
theorem ends_of_scan {cs : List Char} {s : Scanned} (h : scan cs = .ok s) : Ends s.rest := by
  fun_induction scan cs generalizing s with
  | case1 => cases h; exact Or.inl rfl
  | case2 cs => cases h; exact Or.inr ⟨cs, rfl⟩
  | case3 cs ih | case4 cs ih | case6 c cs _ _ _ _ ih =>
      obtain ⟨s', hs, rfl⟩ := exists_of_extend_eq_ok h
      have hends := ih hs
      exact hends
  | case5 => cases h

/-- Characters that were read as text stand for some text. -/
theorem value_ne_nil_of_scan {cs : List Char} {s : Scanned} (h : scan cs = .ok s)
    (hne : s.chars ≠ []) : s.value ≠ [] := by
  rw [scan.eq_def] at h
  split at h
  · cases h; exact absurd rfl hne
  · cases h; exact absurd rfl hne
  · obtain ⟨s', -, rfl⟩ := exists_of_extend_eq_ok h
    exact List.cons_ne_nil _ _
  · obtain ⟨s', -, rfl⟩ := exists_of_extend_eq_ok h
    exact List.cons_ne_nil _ _
  · cases h
  · obtain ⟨s', -, rfl⟩ := exists_of_extend_eq_ok h
    exact List.cons_ne_nil _ _

/-- Where text ends there is none to read. -/
theorem scan_of_ends {rest : List Char} (h : Ends rest) : scan rest = .ok ⟨[], [], rest⟩ := by
  rcases h with rfl | ⟨r, rfl⟩ <;> rfl

/-- One escaped character in front of an input. -/
theorem scan_escapeChar_append (c : Char) (rest : List Char) :
    scan (escapeChar c ++ rest) = scan.extend (escapeChar c) c (scan rest) := by
  rw [escapeChar.eq_def]
  split
  · rfl
  · rfl
  · rename_i hback hbrace
    rw [List.singleton_append, scan.eq_def]
    split <;> simp_all

/-- A text put in front of what was read, or of what was passed over. -/
def prepend (text : List Char) : Except (List Char) Scanned → Except (List Char) Scanned
  | .ok s => .ok ⟨text ++ s.value, text.flatMap escapeChar ++ s.chars, s.rest⟩
  | .error passed => .error (text.flatMap escapeChar ++ passed)

/-- **Escaped text is read back whatever follows it.** -/
theorem scan_escape_append (text rest : List Char) :
    scan (text.flatMap escapeChar ++ rest) = prepend text (scan rest) := by
  induction text with
  | nil => cases h : scan rest <;> simp [prepend, h]
  | cons c text ih =>
      rw [List.flatMap_cons, List.append_assoc, scan_escapeChar_append, ih]
      cases scan rest <;> simp [prepend, scan.extend, Scanned.extend]

/-- What is read behind text of a known value, or is passed over behind it. -/
def behind (value chars : List Char) : Except (List Char) Scanned → Except (List Char) Scanned
  | .ok s => .ok ⟨value ++ s.value, chars ++ s.chars, s.rest⟩
  | .error passed => .error (chars ++ passed)

/-- To put an escaped text in front is to read behind it. -/
theorem prepend_eq_behind (text : List Char) (r : Except (List Char) Scanned) :
    prepend text r = behind text (text.flatMap escapeChar) r := by
  cases r <;> rfl

/-- Where something is read behind text, text does not end. -/
theorem not_ends_of_scan_eq_behind {cs value rest : List Char} (hne : cs ≠ [])
    (h : scan (cs ++ rest) = behind value cs (scan rest)) : ¬ Ends (cs ++ rest) := by
  intro hends
  rw [scan_of_ends hends] at h
  cases hrest : scan rest with
  | error passed => simp [hrest, behind] at h
  | ok s => simp [hrest, behind, hne] at h

end Escaped

/-- Literal text that can be read is one token. -/
theorem step_of_scan_eq_ok {cs : List Char} {s : Scanned} (hends : ¬ Escaped.Ends cs)
    (h : Escaped.scan cs = .ok s) :
    step .text cs = .token ⟨[], s.chars, .text (String.ofList s.value)⟩ .text s.rest := by
  simp only [step]
  rw [textStep.eq_def]
  split
  · exact absurd (Or.inl rfl) hends
  · exact absurd (Or.inr ⟨_, rfl⟩) hends
  · rw [h]

/-- Literal text that cannot be read is a fault. -/
theorem step_of_scan_eq_error {cs passed : List Char} (hends : ¬ Escaped.Ends cs)
    (h : Escaped.scan cs = .error passed) : step .text cs = .fault passed .invalidEscape := by
  simp only [step]
  rw [textStep.eq_def]
  split
  · exact absurd (Or.inl rfl) hends
  · exact absurd (Or.inr ⟨_, rfl⟩) hends
  · rw [h]

/-- A text put in front of a reading in text mode: in front of the run of text or of the fault in
it that the reading begins with, else as a run of its own. -/
def Lexing.prepend (text : List Char) (l : Lexing) : Lexing :=
  let chars := text.flatMap Escaped.escapeChar
  match l.lexemes, l.fault with
  | [], some (passed, fault) => { lexemes := [], fault := some (chars ++ passed, fault) }
  | ⟨gap, cs, .text next⟩ :: ls, fault =>
    { lexemes := ⟨gap, chars ++ cs, .text (String.ofList text ++ next)⟩ :: ls, fault }
  | ls, fault => { lexemes := ⟨[], chars, .text (String.ofList text)⟩ :: ls, fault }

/-- A run of text in front of a reading in text mode, in whatever characters the run is written. -/
def Lexing.joinRun (chars : List Char) (value : String) : Lexing → Lexing
  | ⟨[], some (passed, fault)⟩ => ⟨[], some (chars ++ passed, fault)⟩
  | ⟨⟨gap, cs, .text next⟩ :: ls, fault⟩ =>
    ⟨⟨gap, chars ++ cs, .text (value ++ next)⟩ :: ls, fault⟩
  | ⟨ls, fault⟩ => ⟨⟨[], chars, .text value⟩ :: ls, fault⟩

/-- **Text in front of a reading** joins the text there, and nothing else changes. -/
theorem lex_append_of_scan {cs value rest : List Char} (hne : cs ≠ [])
    (hscan : Escaped.scan (cs ++ rest) = Escaped.behind value cs (Escaped.scan rest)) :
    lex .text (cs ++ rest) = (lex .text rest).joinRun cs (String.ofList value) := by
  have hnot := Escaped.not_ends_of_scan_eq_behind hne hscan
  by_cases hends : Escaped.Ends rest
  · -- nothing to join: the text is a run of its own
    rw [Escaped.scan_of_ends hends] at hscan
    rw [lex_of_token (step_of_scan_eq_ok hnot hscan)]
    rcases hends with rfl | ⟨r, rfl⟩
    · rw [lex_of_finished rfl]
      simp [Lexing.joinRun]
    · rw [lex_of_token rfl]
      simp [Lexing.joinRun]
  · cases hrest : Escaped.scan rest with
    | error passed =>
        rw [hrest] at hscan
        rw [lex_of_fault (step_of_scan_eq_error hnot hscan),
          lex_of_fault (step_of_scan_eq_error hends hrest)]
        rfl
    | ok s =>
        rw [hrest] at hscan
        rw [lex_of_token (step_of_scan_eq_ok hnot hscan),
          lex_of_token (step_of_scan_eq_ok hends hrest)]
        simp [Lexing.joinRun]

/-- To put an escaped text in front of a reading is to put a run in front of it. -/
theorem Lexing.prepend_eq_joinRun (text : List Char) (l : Lexing) :
    l.prepend text = l.joinRun (text.flatMap Escaped.escapeChar) (String.ofList text) := by
  obtain ⟨lexemes, fault⟩ := l
  cases lexemes with
  | nil => cases fault <;> rfl
  | cons l ls =>
      obtain ⟨gap, chars, token⟩ := l
      cases token <;> rfl

/-- **Escaped text in front of a reading** joins the text there, and nothing else changes. -/
theorem lex_escape_append {text : List Char} (h : text ≠ []) (rest : List Char) :
    lex .text (text.flatMap Escaped.escapeChar ++ rest) = (lex .text rest).prepend text := by
  have hne : text.flatMap Escaped.escapeChar ≠ [] := by
    obtain ⟨c, cs, rfl⟩ := List.exists_cons_of_ne_nil h
    rw [List.flatMap_cons, Escaped.escapeChar.eq_def]
    split <;> simp
  have hscan := Escaped.scan_escape_append text rest
  rw [Escaped.prepend_eq_behind] at hscan
  rw [lex_append_of_scan hne hscan, Lexing.prepend_eq_joinRun]

/-! ### What a step can hand out -/

/-- What is known of a token by itself: runs of text are not empty, doubles are finite. -/
def Token.Sound : Token → Prop
  | .text content => content ≠ ""
  | .double value => value.isFinite = true
  | _ => True

/-- The value of a literal is a whole number or a finite double. -/
theorem Numeral.sound_of_read? {lexeme : List Char} {v : Numeral} (h : read? lexeme = some v) :
    v.token.isTagContent = true ∧ v.token.Sound := by
  cases v with
  | integer value => exact ⟨rfl, trivial⟩
  | double value =>
      refine ⟨rfl, ?_⟩
      simp only [read?] at h
      split at h
      · cases h
      split at h
      · simp only [integer?, Option.ite_none_right_eq_some] at h
        obtain ⟨-, h⟩ := h
        cases h
      · split at h
        · simp only [double?, Option.ite_none_right_eq_some] at h
          obtain ⟨hfinite, h⟩ := h
          cases h
          exact hfinite
        · cases h
      · cases h

/-- **What scanning in a tag can come to**, and what was found there. -/
inductive ScansTag : List Char → Except LexFault Found → Prop
  | ended : ScansTag [] (.error .unterminatedTag)
  | close {cs : List Char} : ScansTag ('$' :: '}' :: cs) (.ok ⟨.tagClose, ['$', '}'], cs⟩)
  | echo {cs : List Char} : ScansTag ('=' :: cs) (.ok ⟨.echo, ['='], cs⟩)
  | string {cs : List Char} {s : Scanned} : Quoted.scan cs = .ok s →
      ScansTag ('"' :: cs) (.ok ⟨.string (String.ofList s.value), '"' :: s.chars, s.rest⟩)
  | badString {cs : List Char} {fault : LexFault} : Quoted.scan cs = .error fault →
      ScansTag ('"' :: cs) (.error fault)
  | function {cs rest : List Char} {n : Identifier} : Identifier.scan? cs = some (n, rest) →
      ScansTag ('@' :: cs) (.ok ⟨.function n, '@' :: n.text.toList, rest⟩)
  | noFunction {cs : List Char} : Identifier.scan? cs = none →
      ScansTag ('@' :: cs) (.error .unexpectedCharacter)
  | name {cs rest : List Char} {n : Identifier} : Identifier.scan? cs = some (n, rest) →
      ScansTag cs (.ok ⟨.name n, n.text.toList, rest⟩)
  | number {cs lexeme rest : List Char} {v : Numeral} :
      Numeral.scan? cs = some (lexeme, rest) → Numeral.read? lexeme = some v →
      ScansTag cs (.ok ⟨v.token, lexeme, rest⟩)
  | malformed {cs lexeme rest : List Char} :
      Numeral.scan? cs = some (lexeme, rest) → Numeral.read? lexeme = none →
      ScansTag cs (.error .malformedNumber)
  | operator {c : Char} {cs : List Char} {op : Operator} :
      Numeral.scan? (c :: cs) = none → Operator.ofChar? c = some op →
      ScansTag (c :: cs) (.ok ⟨.operator op, [c], cs⟩)
  | unexpected {c : Char} {cs : List Char} :
      Identifier.scan? (c :: cs) = none → Numeral.scan? (c :: cs) = none →
      Operator.ofChar? c = none → ScansTag (c :: cs) (.error .unexpectedCharacter)

/-- Scanning for a name, a number or an operator. -/
theorem scansTag_scanWord (c : Char) (cs : List Char) : ScansTag (c :: cs) (scanWord c cs) := by
  rw [scanWord]
  split
  · exact .name (by assumption)
  split
  · split
    · exact .number (by assumption) (by assumption)
    · exact .malformed (by assumption) (by assumption)
  · split
    · exact .operator (by assumption) (by assumption)
    · exact .unexpected (by assumption) (by assumption) (by assumption)

/-- Scanning in a tag comes to one of these. -/
theorem scansTag_of_eq {cs : List Char} {result : Except LexFault Found}
    (h : scanTag cs = result) : ScansTag cs result := by
  subst h
  rw [scanTag.eq_def]
  split
  · exact .ended
  · exact .close
  · exact .echo
  · rename_i cs
    cases hs : Quoted.scan cs with
    | error fault => exact .badString hs
    | ok s => exact .string hs
  · split
    · exact .function (by assumption)
    · exact .noFunction (by assumption)
  · exact scansTag_scanWord _ _

/-- What is found in a tag belongs into a tag. -/
theorem sound_of_scanTag {cs : List Char} {f : Found} (h : scanTag cs = .ok f) :
    f.token.isTagContent = true ∧ f.token.Sound := by
  cases scansTag_of_eq h with
  | close | echo | string | function | name | operator => exact ⟨rfl, trivial⟩
  | number _ hread => exact Numeral.sound_of_read? hread

/-- A step in a tag hands out what is found behind blanks. -/
theorem exists_found_of_step {mode' : Mode} {cs rest : List Char} {l : Lexeme}
    (h : step .tag cs = .token l mode' rest) :
    ∃ f, scanTag (cs.dropWhile isBlank) = .ok f ∧
      l = ⟨cs.takeWhile isBlank, f.chars, f.token⟩ ∧ mode' = modeAfter f.token ∧ rest = f.rest := by
  simp only [step, tagStep] at h
  split at h
  · rename_i f hf
    cases h
    exact ⟨f, hf, rfl, rfl, rfl⟩
  · cases h

/-- **What a step can hand out**: in text mode a tag opener, or a run of text up to where text
ends; in tag mode something that belongs into a tag, and the mode changes behind the closing
mark only. -/
theorem token_cases_of_step {mode mode' : Mode} {cs rest : List Char} {l : Lexeme}
    (h : step mode cs = .token l mode' rest) :
    (mode = .text ∧ mode' = .tag ∧ l.token = .tagOpen) ∨
    (mode = .text ∧ mode' = .text ∧ Escaped.Ends rest ∧
      ∃ content, l.token = .text content ∧ content ≠ "") ∨
    (mode = .tag ∧ mode' = modeAfter l.token ∧ l.token.isTagContent = true ∧
      l.token.Sound) := by
  cases mode with
  | tag =>
      obtain ⟨f, hf, rfl, rfl, rfl⟩ := exists_found_of_step h
      exact Or.inr (Or.inr ⟨rfl, rfl, sound_of_scanTag hf⟩)
  | text =>
      by_cases hends : Escaped.Ends cs
      · rcases hends with rfl | ⟨r, rfl⟩
        · cases h
        · cases h
          exact Or.inl ⟨rfl, rfl, rfl⟩
      · cases hscan : Escaped.scan cs with
        | error passed =>
            rw [step_of_scan_eq_error hends hscan] at h
            cases h
        | ok s =>
            obtain ⟨hchars, -⟩ := step_eq_append h
            rw [step_of_scan_eq_ok hends hscan] at h
            cases h
            refine Or.inr (Or.inl ⟨rfl, rfl, Escaped.ends_of_scan hscan, _, rfl, ?_⟩)
            have hvalue := Escaped.value_ne_nil_of_scan hscan hchars
            simpa using hvalue

/-- A token that is handed out is not the end. -/
theorem token_ne_eof_of_step {mode mode' : Mode} {cs rest : List Char} {l : Lexeme}
    (h : step mode cs = .token l mode' rest) : l.token ≠ .eof := by
  intro heof
  rcases token_cases_of_step h with ⟨-, -, ht⟩ | ⟨-, -, -, content, ht, -⟩ | ⟨-, -, ht, -⟩
  · rw [ht] at heof
    cases heof
  · rw [ht] at heof
    cases heof
  · rw [heof] at ht
    cases ht

/-! ### What is known of whole readings -/

/-- Whether a token is a run of text. -/
def Token.isText : Token → Bool
  | .text _ => true
  | _ => false

/-- Not both runs of text. -/
def Token.Apart (a b : Token) : Prop := a.isText = false ∨ b.isText = false

/-- Every token of a reading is sound. -/
theorem sound_of_mem_tokens_lex {mode : Mode} {cs : List Char} {t : Token}
    (h : t ∈ (lex mode cs).tokens) : t.Sound := by
  fun_induction lex mode cs with
  | case1 | case2 => cases h
  | case3 mode cs l mode' rest hstep more ih =>
      rcases List.mem_cons.mp h with rfl | hmem
      · rcases token_cases_of_step hstep with
          ⟨-, -, ht⟩ | ⟨-, -, -, content, ht, hne⟩ | ⟨-, -, -, hs⟩
        · rw [ht]
          exact trivial
        · rw [ht]
          exact hne
        · exact hs
      · exact ih hmem

/-- The end of the input is not among the tokens of a reading. -/
theorem eof_notMem_tokens_lex (mode : Mode) (cs : List Char) : .eof ∉ (lex mode cs).tokens := by
  fun_induction lex mode cs with
  | case1 | case2 => exact List.not_mem_nil
  | case3 mode cs l mode' rest hstep more ih =>
      have hne := token_ne_eof_of_step hstep
      exact List.not_mem_cons_of_ne_of_not_mem hne.symm ih

/-- A reading from where text ends does not begin with text. -/
theorem isText_head_lex_of_ends {rest : List Char} (h : Escaped.Ends rest) :
    ∀ t ∈ (lex .text rest).tokens.head?, t.isText = false := by
  rcases h with rfl | ⟨r, rfl⟩
  · rw [lex_of_finished rfl]
    simp [Lexing.tokens]
  · rw [lex_of_token rfl]
    simp [Lexing.tokens, Token.isText]

/-- **No two runs of text are neighbours** in a reading: each goes on up to where text ends. -/
theorem isChain_tokens_lex (mode : Mode) (cs : List Char) :
    (lex mode cs).tokens.IsChain Token.Apart := by
  fun_induction lex mode cs with
  | case1 | case2 => exact List.isChain_nil
  | case3 mode cs l mode' rest hstep more ih =>
      refine List.isChain_cons.mpr ⟨?_, ih⟩
      intro t ht
      rcases token_cases_of_step hstep with ⟨-, -, hl⟩ | ⟨-, rfl, hends, -⟩ | ⟨-, -, hl, -⟩
      · exact Or.inl (by rw [hl]; rfl)
      · exact Or.inr (isText_head_lex_of_ends hends t ht)
      · refine Or.inl ?_
        cases hl' : l.token <;> simp_all [Token.isText, Token.isTagContent]

end TagTemplate
