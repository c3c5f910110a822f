import TagTemplate.Proofs.Canonical
import TagTemplate.Proofs.Stages
import TagTemplate.Proofs.Tiling

/-!
# Sources in a row

What stands behind a template does not change how the template is read. A step of the lexer looks
no further than the first character behind its lexeme, so that a step which leaves any input is the
same whatever is put behind that input (`step_append`). The one thing that may go on over the seam
is a run of text at the end of the first source. It joins the run that the second one begins with,
and if a fault is met within that run, it is passed over together with it (`lex_append`). Only
where an opening brace and a dollar sign meet does something new come about.

For the parser the first source is a number of nodes in front of everything that is to come. A
builder that has these nodes at the bottom of its stack does what a builder without them does
(`Builder.Behind`), so that the document, or the error, is that of the second source.

## Main results

* `step_append`: steps look no further than the character behind their lexeme.
* `lex_append`: the reading of two inputs in a row.
* `tokenize_append`: the tokens of two sources in a row, where no text goes on.
* `Builder.Behind.parseFrom`: builders that differ in the nodes at the bottom.
* `parse_append`: the document of two sources in a row, and its errors.
-/

namespace TagTemplate

/-! ### Text in front of more input -/

namespace Escaped

/-- No opener comes about where two inputs meet. -/
def Clear (cs more : List Char) : Prop := cs.getLast? ≠ some '{' ∨ more.head? ≠ some '$'

/-- Where two inputs meet only the end of the first one matters. -/
theorem Clear.of_append (front : List Char) {cs more : List Char}
    (h : Clear (front ++ cs) more) : Clear cs more := by
  rcases List.eq_nil_or_concat' cs with rfl | ⟨cs, c, rfl⟩
  · exact Or.inl (by simp)
  · rw [← List.append_assoc] at h
    simpa [Clear] using h

/-- No opener comes about in front of one, nor at the end of the input. -/
theorem Clear.of_ends (cs : List Char) {more : List Char} (h : Ends more) : Clear cs more := by
  rcases h with rfl | ⟨r, rfl⟩
  · exact Or.inr (by simp)
  · exact Or.inr (by simp)

/-- **Literal text goes on behind literal text**, unless an opener comes about between the two. -/
theorem scan_append {cs value more : List Char} (h : scan cs = .ok ⟨value, cs, []⟩)
    (hclear : Clear cs more) : scan (cs ++ more) = behind value cs (scan more) := by
  have hextend (chars : List Char) (c : Char) (value cs : List Char) :
      scan.extend chars c (behind value cs (scan more)) =
        behind (c :: value) (chars ++ cs) (scan more) := by
    cases scan more <;> simp [behind, scan.extend, Scanned.extend]
  fun_induction scan cs generalizing value with
  | case1 =>
      cases h
      cases hmore : scan more <;> simp [behind, hmore]
  | case2 => cases h
  | case3 cs ih | case4 cs ih =>
      obtain ⟨⟨value', chars, rest⟩, hs, heq⟩ := exists_of_extend_eq_ok h
      simp only [Scanned.extend, Scanned.mk.injEq, List.cons_append, List.nil_append,
        List.cons.injEq, true_and] at heq
      obtain ⟨rfl, rfl, rfl⟩ := heq
      simp only [List.cons_append, scan, ih hs (hclear.of_append ['\\', _]), hextend,
        List.nil_append]
  | case5 => cases h
  | case6 c cs hopen hback hbrace hescape ih =>
      obtain ⟨⟨value', chars, rest⟩, hs, heq⟩ := exists_of_extend_eq_ok h
      simp only [Scanned.extend, Scanned.mk.injEq, List.cons_append, List.nil_append,
        List.cons.injEq, true_and] at heq
      obtain ⟨rfl, rfl, rfl⟩ := heq
      have hplain : ∀ r, c = '{' → cs ++ more ≠ '$' :: r := by
        rintro r rfl hcs
        cases cs with
        | nil =>
            rw [List.nil_append] at hcs
            simp [Clear, hcs] at hclear
        | cons d cs =>
            obtain ⟨rfl, -⟩ := List.cons.inj hcs
            exact hopen cs rfl rfl
      rw [List.cons_append, scan_cons_of_plain hescape hplain, ih hs (hclear.of_append [c]),
        hextend, List.singleton_append]

end Escaped

/-! ### Steps in front of more input -/

/-- What a step in text mode hands out is the opener in front of the input, or the run of text that
is read there. -/
theorem textStep_cases {mode' : Mode} {cs rest : List Char} {l : Lexeme}
    (h : step .text cs = .token l mode' rest) :
    (cs = '{' :: '$' :: rest ∧ l = ⟨[], ['{', '$'], .tagOpen⟩ ∧ mode' = .tag) ∨
    ∃ value, Escaped.scan cs = .ok ⟨value, l.chars, rest⟩ ∧
      l = ⟨[], l.chars, .text (String.ofList value)⟩ ∧ mode' = .text := by
  by_cases hends : Escaped.Ends cs
  · rcases hends with rfl | ⟨r, rfl⟩
    · cases h
    · cases h
      exact Or.inl ⟨rfl, rfl, rfl⟩
  · cases hscan : Escaped.scan cs with
    | error passed =>
        rw [step_of_scan_eq_error hends hscan] at h
        cases h
    | ok s =>
        rw [step_of_scan_eq_ok hends hscan] at h
        cases h
        exact Or.inr ⟨s.value, rfl, rfl, rfl⟩

/-- A run of text is read again in front of any input where text ends. -/
theorem textStep_chars_append {cs rest rest' chars value : List Char} (hne : chars ≠ [])
    (h : Escaped.scan cs = .ok ⟨value, chars, rest⟩) (hends : Escaped.Ends rest') :
    step .text (chars ++ rest') = .token ⟨[], chars, .text (String.ofList value)⟩ .text rest' := by
  have hscan := Escaped.scan_append (Escaped.scan_chars h) (Escaped.Clear.of_ends _ hends)
  have hnot := Escaped.not_ends_of_scan_eq_behind hne hscan
  rw [Escaped.scan_of_ends hends, Escaped.behind] at hscan
  have hstep := step_of_scan_eq_ok hnot hscan
  simpa using hstep

/-- A run of text that has ended at an opener is the same whatever is put behind the input. -/
theorem textStep_append {cs rest chars value : List Char} (hne : chars ≠ [])
    (h : Escaped.scan cs = .ok ⟨value, chars, rest⟩) (hrest : rest ≠ []) (more : List Char) :
    step .text (cs ++ more) =
      .token ⟨[], chars, .text (String.ofList value)⟩ .text (rest ++ more) := by
  have hends : Escaped.Ends (rest ++ more) := by
    rcases Escaped.ends_of_scan h with hnil | ⟨r, hr⟩
    · exact absurd hnil hrest
    · obtain rfl : rest = '{' :: '$' :: r := hr
      exact Or.inr ⟨r ++ more, rfl⟩
  have hcs : chars ++ rest = cs := Escaped.chars_append_rest h
  rw [← hcs, List.append_assoc]
  exact textStep_chars_append hne h hends

/-- What is found in a tag is the same whatever is put behind the input that is left. -/
theorem tagStep_append {mode' : Mode} {cs rest : List Char} {l : Lexeme}
    (h : step .tag cs = .token l mode' rest) (hrest : rest ≠ [] ∨ l.token.endsItself = true)
    (more : List Char) : step .tag (cs ++ more) = .token l mode' (rest ++ more) := by
  obtain ⟨f, hf, rfl, rfl, rfl⟩ := exists_found_of_step h
  have hends : f.token.endsItself = true ∨ EndsLike f.rest (f.rest ++ more) := by
    rcases hrest with hne | hself
    · refine Or.inr fun d hd => Or.inl ?_
      rwa [List.head?_append_of_ne_nil _ hne] at hd
    · exact Or.inl hself
  have hfound := scanTag_chars_append hf hends
  rw [← List.append_assoc, (scanTag_eq_append hf).2] at hfound
  have hgap : ∀ c ∈ cs.takeWhile isBlank, isBlank c = true :=
    fun c hc => List.mem_takeWhile_imp hc
  have hstep := step_tag_of_scanTag hgap hfound
  rwa [← List.append_assoc, List.takeWhile_append_dropWhile] at hstep

/-- **Steps look no further** than the character behind their lexeme, and behind a token that brings
its own end along not even so far: a step is the same whatever is put behind the input that it
leaves. -/
theorem step_append {mode mode' : Mode} {cs rest : List Char} {l : Lexeme}
    (h : step mode cs = .token l mode' rest) (hrest : rest ≠ [] ∨ l.token.endsItself = true)
    (more : List Char) : step mode (cs ++ more) = .token l mode' (rest ++ more) := by
  cases mode with
  | tag => exact tagStep_append h hrest more
  | text =>
      have hne := (step_eq_append h).1
      rcases textStep_cases h with ⟨rfl, rfl, rfl⟩ | ⟨value, hscan, hl, rfl⟩
      · rfl
      · have hleft : rest ≠ [] := by
          refine hrest.resolve_right ?_
          rw [hl]
          simp [Token.endsItself]
        rw [hl]
        exact textStep_append hne hscan hleft more

/-- The marks of a tag bring their own end along. -/
theorem Token.endsItself_of_isMark {t : Token} (h : t.isMark = true) : t.endsItself = true := by
  cases t <;> simp_all [Token.isMark, Token.endsItself]

/-! ### Readings in a row -/

/-- An error of a source, as it is in a source that begins so many bytes earlier. -/
def LexError.shift (n : Nat) (e : LexError) : LexError := { e with offset := n + e.offset }

namespace Lexing

/-- A reading in text mode behind the lexemes of another one: a run of text at their end joins what
the reading begins with. -/
def behind : List Lexeme → Lexing → Lexing
  | [], l => l
  | [⟨gap, chars, .text value⟩], l => l.joinRun (gap ++ chars) value
  | m :: ms, l => { behind ms l with lexemes := m :: (behind ms l).lexemes }

/-- One lexeme more in front, unless it is a run of text at the end. -/
theorem behind_cons {m : Lexeme} {ms : List Lexeme} (h : ms = [] → m.token.isText = false)
    (l : Lexing) :
    behind (m :: ms) l = { behind ms l with lexemes := m :: (behind ms l).lexemes } := by
  obtain ⟨gap, chars, token⟩ := m
  cases ms with
  | cons m' ms => cases token <;> rfl
  | nil =>
      cases token with
      | text value => cases h rfl
      | _ => rfl

/-- More lexemes in front of some. -/
theorem behind_append (ms : List Lexeme) {ns : List Lexeme} (h : ns ≠ []) (l : Lexing) :
    behind (ms ++ ns) l = { behind ns l with lexemes := ms ++ (behind ns l).lexemes } := by
  induction ms with
  | nil => rfl
  | cons m ms ih =>
      have hne : ms ++ ns = [] → m.token.isText = false := fun hnil => by simp [h] at hnil
      rw [List.cons_append, behind_cons hne, ih]
      rfl

/-- A run of text in front of a reading that begins with something else is a run of its own. -/
theorem joinRun_of_head {l : Lexing} {m : Lexeme} (hm : m ∈ l.lexemes.head?)
    (hnot : m.token.isText = false) (chars : List Char) (value : String) :
    l.joinRun chars value = { l with lexemes := ⟨[], chars, .text value⟩ :: l.lexemes } := by
  obtain ⟨lexemes, fault⟩ := l
  obtain ⟨ms, rfl⟩ := List.head?_eq_some_iff.mp hm
  obtain ⟨gap, cs, token⟩ := m
  cases token with
  | text next => cases hnot
  | _ => rfl

/-- Lexemes that do not end with text are followed by those of the reading. -/
theorem behind_of_not_isText {ms : List Lexeme} (h : ∀ m ∈ ms.getLast?, m.token.isText = false)
    (l : Lexing) : behind ms l = { l with lexemes := ms ++ l.lexemes } := by
  rcases List.eq_nil_or_concat' ms with rfl | ⟨ms, m, rfl⟩
  · rfl
  · rw [behind_append ms (List.cons_ne_nil m []), behind_cons fun _ => h m (by simp)]
    simp [behind]

/-- The tokens follow those of the lexemes, unless a run of text at their end may go on. -/
theorem tokens_behind_of_apart {ms : List Lexeme} {l : Lexing}
    (h : (∀ m ∈ ms.getLast?, m.token.isText = false) ∨ ∃ t ∈ l.tokens.head?, t.isText = false) :
    (behind ms l).tokens = ms.map Lexeme.token ++ l.tokens := by
  by_cases hlast : ∀ m ∈ ms.getLast?, m.token.isText = false
  · rw [behind_of_not_isText hlast]
    simp [tokens]
  · obtain ⟨m, hm, htext⟩ : ∃ m ∈ ms.getLast?, m.token.isText = true := by simpa using hlast
    obtain ⟨ms, rfl⟩ := List.getLast?_eq_some_iff.mp hm
    obtain ⟨gap, chars, token⟩ := m
    obtain ⟨a, rfl⟩ : ∃ a, token = .text a := by cases token <;> simp_all [Token.isText]
    obtain ⟨t, ht, hnot⟩ := h.resolve_left hlast
    rw [tokens, List.head?_map] at ht
    obtain ⟨n, hn, rfl⟩ := Option.map_eq_some_iff.mp ht
    rw [behind_append ms (List.cons_ne_nil _ []), behind, joinRun_of_head hn hnot]
    simp [tokens]

/-- The error behind more lexemes. -/
theorem error?_append (ms : List Lexeme) (l : Lexing) :
    error? { l with lexemes := ms ++ l.lexemes } =
      l.error?.map (LexError.shift (byteLength (charsOf ms))) := by
  simp only [error?, Option.map_map]
  congr 1
  funext entry
  obtain ⟨passed, fault⟩ := entry
  simp [LexError.shift, charsOf, byteLength_append]

/-- The error behind a run of text. -/
theorem error?_joinRun (chars : List Char) (value : String) (l : Lexing) :
    (l.joinRun chars value).error? = l.error?.map (LexError.shift (byteLength chars)) := by
  obtain ⟨lexemes, fault⟩ := l
  cases lexemes with
  | nil =>
      cases fault with
      | none => rfl
      | some fault => simp [joinRun, error?, LexError.shift, charsOf, byteLength_append]
  | cons m ms =>
      obtain ⟨gap, cs, token⟩ := m
      cases token with
      | text next =>
          cases fault with
          | none => rfl
          | some fault =>
              simp [joinRun, error?, LexError.shift, charsOf, byteLength_append]
              omega
      | _ =>
          simpa [joinRun, charsOf] using error?_append [⟨[], chars, .text value⟩] ⟨_ :: ms, fault⟩

/-- **Errors move along**: behind lexemes they are as much further on as the lexemes are long. -/
theorem error?_behind (ms : List Lexeme) (l : Lexing) :
    (l.behind ms).error? = l.error?.map (LexError.shift (byteLength (charsOf ms))) := by
  by_cases h : ∀ m ∈ ms.getLast?, m.token.isText = false
  · rw [behind_of_not_isText h, error?_append]
  · obtain ⟨m, hm, htext⟩ : ∃ m ∈ ms.getLast?, m.token.isText = true := by simpa using h
    obtain ⟨ms, rfl⟩ := List.getLast?_eq_some_iff.mp hm
    obtain ⟨gap, chars, token⟩ := m
    cases token with
    | text value =>
        rw [behind_append ms (List.cons_ne_nil _ []), error?_append, behind, error?_joinRun,
          Option.map_map]
        congr 1
        funext e
        simp [LexError.shift, charsOf, byteLength_append, Nat.add_assoc]
    | _ => cases htext

end Lexing

/-- A reading goes on behind a run of text that does not take up all of the input, since there is
an opener. -/
theorem lexemes_ne_nil_of_isText {mode mode' : Mode} {cs rest : List Char} {l : Lexeme}
    (h : step mode cs = .token l mode' rest) (htext : l.token.isText = true) (hrest : rest ≠ []) :
    (lex mode' rest).lexemes ≠ [] := by
  rcases token_cases_of_step h with
    ⟨-, -, ht⟩ | ⟨-, rfl, hends, -⟩ | ⟨-, -, ht, -⟩
  · simp [ht, Token.isText] at htext
  · rcases hends with rfl | ⟨r, rfl⟩
    · exact absurd rfl hrest
    · rw [lex_of_token rfl]
      exact List.cons_ne_nil _ _
  · cases hl : l.token <;> simp_all [Token.isText, Token.isTagContent]

/-- Where the input ends behind something that is no mark, without a fault, that is a run of text,
since a tag would not be closed. -/
theorem exists_scan_of_step_last {mode mode' : Mode} {cs : List Char} {l : Lexeme}
    (h : step mode cs = .token l mode' []) (hmark : l.token.isMark = false)
    (hfault : (lex mode' []).fault = none) :
    mode = .text ∧ mode' = .text ∧ ∃ value, Escaped.scan cs = .ok ⟨value, cs, []⟩ ∧
      l = ⟨[], cs, .text (String.ofList value)⟩ := by
  cases mode with
  | tag =>
      rcases token_cases_of_step h with ⟨hmode, -⟩ | ⟨hmode, -⟩ | ⟨-, rfl, -, -⟩
      · cases hmode
      · cases hmode
      · have htag : modeAfter l.token = .tag := by
          cases hl : l.token <;> simp_all [Token.isMark, modeAfter]
        rw [htag, lex_of_fault rfl] at hfault
        cases hfault
  | text =>
      rcases textStep_cases h with ⟨-, hl, -⟩ | ⟨value, hscan, hl, rfl⟩
      · rw [hl] at hmark
        cases hmark
      · have hchars : l.chars = cs := by simpa using Escaped.chars_append_rest hscan
        rw [hchars] at hscan hl
        exact ⟨rfl, rfl, value, hscan, hl⟩

/-- **The reading of two inputs in a row**, if the first can be read: the second is read behind the
lexemes of the first. The induction is along the first reading; only its last lexeme can be a run of
text that goes on. -/
theorem lex_append {mode : Mode} {cs more : List Char} (hfault : (lex mode cs).fault = none)
    (hclear : ∀ l ∈ (lex mode cs).lexemes.getLast?, l.token.isText = true →
      Escaped.Clear cs more) :
    lex mode (cs ++ more) = (lex .text more).behind (lex mode cs).lexemes := by
  fun_induction lex mode cs with
  | case1 mode cs hstep =>
      obtain ⟨rfl, rfl⟩ := eq_nil_of_step_finished hstep
      rfl
  | case2 => cases hfault
  | case3 mode cs l mode' rest hstep next ih =>
      by_cases hrest : rest ≠ [] ∨ l.token.isMark = true
      · have hnext : lex mode' (rest ++ more) = (lex .text more).behind next.lexemes := by
          refine ih hfault fun m hm htext => ?_
          have hcs := (step_eq_append hstep).2
          have hlast : m ∈ (l :: next.lexemes).getLast? := by
            rw [List.getLast?_cons, Option.mem_def.mp hm]
            rfl
          exact Escaped.Clear.of_append _ (hcs.symm ▸ hclear m hlast htext)
        have hcons : next.lexemes = [] → l.token.isText = false := by
          intro hnil
          by_contra htext
          rw [Bool.not_eq_false] at htext
          have hleft : rest ≠ [] := by
            refine hrest.resolve_right ?_
            cases ht : l.token <;> simp_all [Token.isMark, Token.isText]
          exact lexemes_ne_nil_of_isText hstep htext hleft hnil
        have hsame := step_append hstep (hrest.imp id Token.endsItself_of_isMark) more
        rw [lex_of_token hsame, hnext, Lexing.behind_cons hcons]
      · obtain ⟨rfl, hmark⟩ : rest = [] ∧ l.token.isMark = false := by simpa using hrest
        obtain ⟨rfl, rfl, value, hscan, hl⟩ := exists_scan_of_step_last hstep hmark hfault
        have hnext : next.lexemes = [] := by
          rw [show next = lex .text [] from rfl, lex_of_finished rfl]
        have hne := (step_eq_append hstep).1
        have hclear' : Escaped.Clear cs more := by
          refine hclear l ?_ (by rw [hl]; rfl)
          rw [hnext]
          rfl
        rw [hl] at hne
        rw [lex_append_of_scan hne (Escaped.scan_append hscan hclear'), hnext, hl]
        rfl

/-- A reading that begins with an opener is one of an input that begins with it. -/
theorem ends_of_head_tokens {cs : List Char} (h : (lex .text cs).tokens.head? = some .tagOpen) :
    Escaped.Ends cs := by
  cases hlexemes : (lex .text cs).lexemes with
  | nil => simp [Lexing.tokens, hlexemes] at h
  | cons l ls =>
      obtain ⟨mode', rest, hstep, -⟩ := exists_step_of_lexemes_eq_cons hlexemes
      rcases textStep_cases hstep with ⟨rfl, -, -⟩ | ⟨value, -, hl, -⟩
      · exact Or.inr ⟨rest, rfl⟩
      · rw [Lexing.tokens, hlexemes, hl] at h
        cases h

/-- **The tokens of two sources in a row**, where the first does not end with text or the second
begins with a tag. -/
theorem tokenize_append {s₁ s₂ : String} {ts us : List Token} (h₁ : tokenize s₁ = .ok ts)
    (h₂ : tokenize s₂ = .ok us)
    (hapart : (∀ t ∈ ts.getLast?, t.isText = false) ∨ us.head? = some .tagOpen) :
    tokenize (s₁ ++ s₂) = .ok (ts ++ us) := by
  obtain ⟨rfl, hfault₁⟩ := tokenize_eq_ok_iff.mp h₁
  obtain ⟨rfl, hfault₂⟩ := tokenize_eq_ok_iff.mp h₂
  have hlast : (lex .text s₁.toList).tokens.getLast? =
      (lex .text s₁.toList).lexemes.getLast?.map Lexeme.token := List.getLast?_map ..
  have hlex : lex .text (s₁.toList ++ s₂.toList) =
      (lex .text s₂.toList).behind (lex .text s₁.toList).lexemes := by
    refine lex_append hfault₁ fun l hl htext => ?_
    rcases hapart with hts | hus
    · rw [hlast, Option.mem_def.mp hl] at hts
      rw [hts _ rfl] at htext
      cases htext
    · exact Escaped.Clear.of_ends _ (ends_of_head_tokens hus)
  have htokens : ((lex .text s₂.toList).behind (lex .text s₁.toList).lexemes).tokens =
      (lex .text s₁.toList).tokens ++ (lex .text s₂.toList).tokens := by
    refine Lexing.tokens_behind_of_apart (hapart.imp ?_ ?_)
    · simp [Lexing.tokens]
    · intro hus
      rw [hus]
      exact ⟨_, rfl, rfl⟩
  have herror := Lexing.error?_behind (lex .text s₁.toList).lexemes (lex .text s₂.toList)
  have hnone : (lex .text s₂.toList).error? = none := by rw [Lexing.error?, hfault₂]; rfl
  rw [hnone] at herror
  simp only [tokenize, Lexing.ofSource, String.toList_append, hlex, herror, htokens,
    Option.map_none]

/-! ### Builders that differ at the bottom -/

/-- The second builder has collected what the first one has, behind the nodes `ns`. -/
inductive Builder.Behind (ns : List Node) : Builder → Builder → Prop
  | document (nodes : List Node) :
      Behind ns { nodes, loops := [] } { nodes := nodes ++ ns.reverse, loops := [] }
  | loop (header : LoopHeader) (nodes : List Node) {b b' : Builder} :
      Behind ns b b' →
      Behind ns { nodes, loops := (header, b.nodes) :: b.loops }
        { nodes, loops := (header, b'.nodes) :: b'.loops }

namespace Builder

variable {ns : List Node} {b b' : Builder}

/-- Nodes are collected alike. -/
theorem Behind.push (h : Behind ns b b') (n : Node) : Behind ns (b.push n) (b'.push n) := by
  cases h with
  | document nodes => exact .document (n :: nodes)
  | loop header nodes h => exact .loop header (n :: nodes) h

/-- As many loops are open. -/
theorem Behind.length_loops (h : Behind ns b b') : b.loops.length = b'.loops.length := by
  induction h with
  | document nodes => rfl
  | loop header nodes h ih => simp [ih]

/-- **One piece** fits into both builders or into none. -/
theorem Behind.add (h : Behind ns b b') (p : Piece) :
    (∃ e, b.add p = .error e ∧ b'.add p = .error e) ∨
    ∃ c c', b.add p = .ok c ∧ b'.add p = .ok c' ∧ Behind ns c c' := by
  cases p with
  | text content => exact Or.inr ⟨_, _, rfl, rfl, h.push _⟩
  | echo elements => exact Or.inr ⟨_, _, rfl, rfl, h.push _⟩
  | enter header => exact Or.inr ⟨_, _, rfl, rfl, .loop header [] h⟩
  | leave =>
      cases h with
      | document nodes => exact Or.inl ⟨_, rfl, rfl⟩
      | loop header nodes h => exact Or.inr ⟨_, _, rfl, rfl, h.push (.loop header nodes.reverse)⟩

/-- All pieces fit into both builders, or the same one fits into none. -/
theorem Behind.addAll (h : Behind ns b b') (ps : List Piece) :
    (∃ e, b.addAll ps = .error e ∧ b'.addAll ps = .error e) ∨
    ∃ c c', b.addAll ps = .ok c ∧ b'.addAll ps = .ok c' ∧ Behind ns c c' := by
  induction ps generalizing b b' with
  | nil => exact Or.inr ⟨b, b', rfl, rfl, h⟩
  | cons p ps ih =>
      simp only [Builder.addAll]
      rcases h.add p with ⟨e, hb, hb'⟩ | ⟨c, c', hb, hb', hc⟩
      · rw [hb, hb']
        exact Or.inl ⟨e, rfl, rfl⟩
      · rw [hb, hb']
        exact ih hc

/-- The document has the nodes in front. -/
theorem Behind.finish (h : Behind ns b b') :
    b'.finish = b.finish.map fun d => { children := ns ++ d.children } := by
  have hlength := h.length_loops
  cases h with
  | document nodes => simp [Builder.finish, Except.map]
  | loop header nodes h =>
      simp only [Builder.finish, Builder.depth, ← hlength]
      rfl

/-- **Builders that differ at the bottom** make the same of what is to come, up to the nodes in
front. -/
theorem Behind.parseFrom (h : Behind ns b b') (stop : Option LexError) (ts : List Token) :
    b'.parseFrom stop ts =
      (b.parseFrom stop ts).map fun d => { children := ns ++ d.children } := by
  simp only [Builder.parseFrom]
  rcases h.addAll (readPieces stop ts).pieces with ⟨e, hb, hb'⟩ | ⟨c, c', hb, hb', hc⟩
  · rw [hb, hb']
    rfl
  · rw [hb, hb']
    cases (readPieces stop ts).interruption with
    | some i => rfl
    | none => exact hc.finish

end Builder

/-- Derived nodes in front of tokens are in front of their document. -/
theorem Derives.parseTokens_append {ts : List Token} {ns : List Node} (h : Derives ts ns)
    (stop : Option LexError) (us : List Token) :
    parseTokens stop (ts ++ us) =
      (parseTokens stop us).map fun d => { children := ns ++ d.children } := by
  have hbehind : Builder.Behind ns Builder.empty (Builder.empty.extend ns) := by
    have hempty : Builder.Behind ns _ _ := Builder.Behind.document []
    simpa [Builder.empty, Builder.extend] using hempty
  rw [parseTokens_eq_parseFrom, h.parseFrom_append, hbehind.parseFrom, parseTokens_eq_parseFrom]

/-! ### Documents in a row -/

/-- Nodes behind nodes. Where the first ones end and the others begin with a text, the two texts are
one. -/
def Node.fuse : List Node → List Node → List Node
  | [], ms => ms
  | [.text a], .text b :: ms => .text (a ++ b) :: ms
  | n :: ns, ms => n :: Node.fuse ns ms

/-- A document behind a document. -/
def Document.fuse (d₁ d₂ : Document) : Document :=
  { children := Node.fuse d₁.children d₂.children }

/-- Where no two texts meet the ones are put behind the others. -/
theorem Node.fuse_of_apart {ns ms : List Node}
    (h : ∀ n ∈ ns.getLast?, ∀ m ∈ ms.head?, Node.Apart n m) : Node.fuse ns ms = ns ++ ms := by
  fun_induction Node.fuse ns ms with
  | case1 ms => rfl
  | case2 a b ms =>
      have happart := h (.text a) rfl (.text b) rfl
      simp [Node.Apart, Node.isText] at happart
  | case3 n ns ms hnot ih =>
      rw [List.cons_append, ih fun x hx => h x ?_]
      rw [List.getLast?_cons, Option.mem_def.mp hx]
      rfl

/-- Two texts that meet are one. -/
theorem Node.fuse_concat_text (ns ms : List Node) (a b : String) :
    Node.fuse (ns ++ [.text a]) (.text b :: ms) = ns ++ .text (a ++ b) :: ms := by
  induction ns with
  | nil => rfl
  | cons n ns ih => rw [List.cons_append, Node.fuse, ih, List.cons_append]; simp

/-- Tokens that derive nodes derive them without the text at their end. -/
theorem Derives.exists_of_concat_text {ts : List Token} {a : String} {ns : List Node}
    (h : Derives (ts ++ [.text a]) ns) : ∃ ms, ns = ms ++ [.text a] ∧ Derives ts ms := by
  generalize hus : ts ++ [.text a] = us at h
  induction h generalizing ts with
  | nil => simp at hus
  | text content =>
      have hsingle : ts ++ [.text a] = [] ++ [.text content] := hus
      obtain ⟨rfl, hcontent⟩ := List.append_inj' hsingle rfl
      cases hcontent
      exact ⟨[], rfl, .nil⟩
  | echo hne =>
      obtain ⟨-, hlast⟩ := List.append_inj' hus rfl
      cases hlast
  | loop header henter hleave hbody ih =>
      have hlast := congrArg List.getLast? hus
      rw [List.getLast?_concat, List.getLast?_append] at hlast
      cases hlast
  | @append ts₁ us₁ ns₁ ms₁ h₁ h₂ ih₁ ih₂ =>
      rcases List.eq_nil_or_concat' us₁ with rfl | ⟨us₁, u, rfl⟩
      · obtain rfl := h₂.unique .nil
        rw [List.append_nil] at hus ⊢
        exact ih₁ hus
      · rw [← List.append_assoc] at hus
        obtain ⟨rfl, hlast⟩ := List.append_inj' hus rfl
        cases hlast
        obtain ⟨ms, rfl, hms⟩ := ih₂ rfl
        exact ⟨ns₁ ++ ms, (List.append_assoc ..).symm, h₁.append hms⟩

/-- A document begins with text only if its tokens do. -/
theorem isText_head_of_parseTokens {stop : Option LexError} {ts : List Token} {d : Document}
    (h : parseTokens stop ts = .ok d) (hts : ∀ t ∈ ts.head?, t.isText = false) :
    ∀ n ∈ d.children.head?, n.isText = false := by
  intro n hn
  cases stop with
  | some e => exact absurd h (parseTokens_some_ne_ok e ts d)
  | none =>
      have hhead := (parseTokens_eq_ok_iff.mp h).head?_isText
      rw [Option.mem_def.mp hn, Option.map_some, Option.map_eq_some_iff] at hhead
      obtain ⟨t, ht, htext⟩ := hhead
      rw [← htext]
      exact hts t ht

/-- Nodes in front of a document, where no two texts meet. -/
theorem Derives.parseTokens_append_of_apart {ts us : List Token} {ns : List Node}
    (h : Derives ts ns) (stop : Option LexError)
    (hapart : (∀ t ∈ ts.getLast?, t.isText = false) ∨ ∀ u ∈ us.head?, u.isText = false) :
    parseTokens stop (ts ++ us) =
      (parseTokens stop us).map (Document.fuse { children := ns }) := by
  rw [h.parseTokens_append]
  cases hus : parseTokens stop us with
  | error e => rfl
  | ok d =>
      have hfuse : Node.fuse ns d.children = ns ++ d.children := by
        refine Node.fuse_of_apart fun n hn m hm => ?_
        rcases hapart with hts | hhead
        · have hlast := h.getLast?_isText
          rw [Option.mem_def.mp hn, Option.map_some, Option.map_eq_some_iff] at hlast
          obtain ⟨t, ht, htext⟩ := hlast
          exact Or.inl (htext ▸ hts t ht)
        · exact Or.inr (isText_head_of_parseTokens hus hhead m hm)
      simp only [Except.map, Document.fuse, hfuse]

/-- Nodes with a text behind them in front of a document whose text joins that one. -/
theorem Derives.parseTokens_append_text {ts : List Token} {ns : List Node} (h : Derives ts ns)
    (stop : Option LexError) (a b : String) (us : List Token) :
    parseTokens stop (ts ++ .text (a ++ b) :: us) =
      (parseTokens stop (.text b :: us)).map (Document.fuse { children := ns ++ [.text a] }) := by
  have hleft := (h.append (.text (a ++ b))).parseTokens_append stop us
  have hright := (Derives.text b).parseTokens_append stop us
  rw [List.append_assoc, List.singleton_append] at hleft
  rw [List.singleton_append] at hright
  rw [hleft, hright]
  cases parseTokens stop us with
  | error e => rfl
  | ok d => simp [Except.map, Document.fuse, Node.fuse_concat_text]

/-- Where the lexer stops before the first token its fault is the error. -/
theorem parseTokens_some_nil (e : LexError) : parseTokens (some e) [] = .error (.lexical e) := by
  simp [parseTokens, Pieces.document, readPieces, Builder.addAll]

/-- Nodes with a run of text behind them in front of a reading that the run joins. Where the lexer
has stopped within that run, there is an error in any case, and it is due at once. -/
theorem Derives.parseTokens_append_joinRun {ts : List Token} {ns : List Node} (h : Derives ts ns)
    {stop : Option LexError} {l : Lexing} (hstop : l.fault ≠ none → stop ≠ none)
    (chars : List Char) (a : String) :
    parseTokens stop (ts ++ (l.joinRun chars a).tokens) =
      (parseTokens stop l.tokens).map (Document.fuse { children := ns ++ [.text a] }) := by
  have hrun (us : List Token) (hus : ∀ u ∈ us.head?, u.isText = false) :
      parseTokens stop (ts ++ .text a :: us) =
        (parseTokens stop us).map (Document.fuse { children := ns ++ [.text a] }) := by
    have happend := (h.append (.text a)).parseTokens_append_of_apart stop (Or.inr hus)
    rwa [List.append_assoc, List.singleton_append] at happend
  obtain ⟨lexemes, fault⟩ := l
  cases lexemes with
  | cons m ms =>
      obtain ⟨gap, cs, token⟩ := m
      cases token with
      | text b => exact h.parseTokens_append_text stop a b (ms.map Lexeme.token)
      | _ => exact hrun (_ :: ms.map Lexeme.token) (by simp [Token.isText])
  | nil =>
      cases fault with
      | none => exact hrun [] (by simp)
      | some fault =>
          obtain ⟨e, rfl⟩ := Option.ne_none_iff_exists'.mp (hstop (by simp))
          have hnil := h.parseTokens_append (some e) []
          rw [parseTokens_some_nil] at hnil
          simp only [Lexing.joinRun, Lexing.tokens, List.map_nil, parseTokens_some_nil, hnil]
          rfl

/-- **Tokens in a row.** What is made of tokens behind the lexemes of a document: their document
behind that one, or their error. -/
theorem parseTokens_behind {ls : List Lexeme} {ns : List Node} {l : Lexing}
    {stop : Option LexError} (h : Derives (ls.map Lexeme.token) ns)
    (hstop : l.fault ≠ none → stop ≠ none) :
    parseTokens stop (l.behind ls).tokens =
      (parseTokens stop l.tokens).map (Document.fuse { children := ns }) := by
  by_cases hlast : ∀ m ∈ ls.getLast?, m.token.isText = false
  · have hts : ∀ t ∈ (ls.map Lexeme.token).getLast?, t.isText = false := by
      simpa using hlast
    rw [Lexing.tokens_behind_of_apart (Or.inl hlast),
      h.parseTokens_append_of_apart stop (Or.inl hts)]
  · obtain ⟨m, hm, htext⟩ : ∃ m ∈ ls.getLast?, m.token.isText = true := by simpa using hlast
    obtain ⟨ls, rfl⟩ := List.getLast?_eq_some_iff.mp hm
    obtain ⟨gap, chars, token⟩ := m
    obtain ⟨a, rfl⟩ : ∃ a, token = .text a := by cases token <;> simp_all [Token.isText]
    rw [List.map_append, List.map_singleton] at h
    obtain ⟨ms, rfl, hms⟩ := h.exists_of_concat_text
    have htokens : (l.behind (ls ++ [⟨gap, chars, .text a⟩])).tokens =
        ls.map Lexeme.token ++ (l.joinRun (gap ++ chars) a).tokens := by
      rw [Lexing.behind_append ls (List.cons_ne_nil _ [])]
      simp [Lexing.tokens, Lexing.behind]
    rw [htokens, hms.parseTokens_append_joinRun hstop]

/-! ### Errors further on -/

/-- An error of a source, as it is in a source that begins so many bytes earlier. Only faults of the
characters have a place. -/
def ParseError.shift (n : Nat) : ParseError → ParseError
  | .lexical e => .lexical (e.shift n)
  | e => e

/-- Other errors stay as they are. -/
theorem ParseError.shift_of_not_isLexical {e : ParseError} (h : e.isLexical = false) (n : Nat) :
    e.shift n = e := by
  cases e with
  | lexical e => cases h
  | _ => rfl

/-- The class of an error does not depend on its place. -/
theorem ParseError.kind_shift (n : Nat) (e : ParseError) : (e.shift n).kind = e.kind := by
  cases e <;> rfl

/-- An error that stands whatever follows the tokens does not depend on where the lexer stops. -/
theorem parseTokens_eq_of_stands {stop : Option LexError} {ts : List Token} {e : ParseError}
    (h : ∀ stop' more, Builder.empty.parseFrom stop' (ts ++ more) = .error e) :
    parseTokens stop ts = .error e := by
  have hnil := h stop []
  rwa [List.append_nil] at hnil

/-- Where the lexer stops at one fault or at another, either that fault is the error, or the fault
makes no difference. -/
theorem parseTokens_some_cases (ts : List Token) :
    (∀ le, parseTokens (some le) ts = .error (.lexical le)) ∨
    ∃ e, e.isLexical = false ∧ ∀ le, parseTokens (some le) ts = .error e := by
  by_cases hstands : ∃ e, e.isLexical = false ∧
      ∀ stop more, Builder.empty.parseFrom stop (ts ++ more) = .error e
  · obtain ⟨e, hlexical, he⟩ := hstands
    exact Or.inr ⟨e, hlexical, fun le => parseTokens_eq_of_stands he⟩
  · refine Or.inl fun le => ?_
    cases hparse : parseTokens (some le) ts with
    | ok d => exact absurd hparse (parseTokens_some_ne_ok le ts d)
    | error e =>
        rcases Builder.parseFrom_error_cases hparse with hdue | hmore
        · rw [hdue.eq_lexical]
        · exact absurd ⟨e, hmore⟩ hstands

/-- If the lexer stops at the same fault further on, the error is the same further on. -/
theorem parseTokens_shift (n : Nat) (stop : Option LexError) (ts : List Token) :
    parseTokens (stop.map (LexError.shift n)) ts =
      (parseTokens stop ts).mapError (ParseError.shift n) := by
  cases stop with
  | some le =>
      rcases parseTokens_some_cases ts with hdue | ⟨e, hlexical, he⟩
      · rw [Option.map_some, hdue, hdue]
        rfl
      · rw [Option.map_some, he, he, Except.mapError, ParseError.shift_of_not_isLexical hlexical]
  | none =>
      cases hparse : parseTokens none ts with
      | ok d => exact hparse
      | error e =>
          have hlexical : e.isLexical = false := by
            rcases Builder.parseFrom_error_cases hparse with hdue | ⟨hlexical, -⟩
            · by_contra hne
              obtain ⟨le, hstop, -⟩ := hdue.exists_stop_eq (by simpa using hne)
              cases hstop
            · exact hlexical
          rw [Except.mapError, ParseError.shift_of_not_isLexical hlexical]
          exact hparse

/-! ### Sources in a row -/

/-- **The reading of two sources in a row**: the parse of the second one behind the document of the
first. -/
theorem parse_append_eq {s₁ s₂ : String} {d₁ : Document} (h₁ : parse s₁ = .ok d₁)
    (hclear : Escaped.Clear s₁.toList s₂.toList) :
    parse (s₁ ++ s₂) =
      ((parse s₂).mapError (ParseError.shift s₁.utf8ByteSize)).map d₁.fuse := by
  obtain ⟨ts, htokenize, hparse⟩ := parse_eq_ok_iff_parseTokens.mp h₁
  obtain ⟨rfl, hfault⟩ := tokenize_eq_ok_iff.mp htokenize
  have hderives : Derives ((Lexing.ofSource s₁).lexemes.map Lexeme.token) d₁.children :=
    parseTokens_eq_ok_iff.mp hparse
  have hlex : Lexing.ofSource (s₁ ++ s₂) =
      (Lexing.ofSource s₂).behind (Lexing.ofSource s₁).lexemes := by
    rw [Lexing.ofSource, String.toList_append]
    exact lex_append hfault fun _ _ _ => hclear
  have hsize : byteLength (Lexing.charsOf (Lexing.ofSource s₁).lexemes) = s₁.utf8ByteSize := by
    rw [charsOf_lexemes (by rw [Lexing.error?, Lexing.ofSource, hfault]; rfl), byteLength_toList]
  have hstop : (Lexing.ofSource s₂).fault ≠ none →
      ((Lexing.ofSource s₂).error?.map (LexError.shift s₁.utf8ByteSize)) ≠ none := by
    simp [Lexing.error?]
  simp only [parse, hlex, Lexing.error?_behind, hsize]
  rw [parseTokens_behind hderives hstop, parseTokens_shift]

/-- **Sources in a row.** A source behind a template makes a document behind its document, or has
the error that it has on its own; only the place of a fault of its characters is further on. An
opening brace in front of a dollar sign is left out of this, since together they open a tag. -/
theorem parse_append (s₁ s₂ : String) (d₁ : Document) (h₁ : parse s₁ = .ok d₁)
    (hseam : s₁.toList.getLast? ≠ some '{' ∨ s₂.toList.head? ≠ some '$') :
    (∀ d₂, parse s₂ = .ok d₂ → parse (s₁ ++ s₂) = .ok (d₁.fuse d₂)) ∧
    ∀ e, parse s₂ = .error e → ∃ e', parse (s₁ ++ s₂) = .error e' ∧ e'.kind = e.kind ∧
      (e.isLexical = false → e'.message = e.message) ∧
      ∀ le, e = .lexical le →
        e'.message = LexError.message ⟨le.fault, s₁.utf8ByteSize + le.offset⟩ := by
  have heq := parse_append_eq h₁ hseam
  refine ⟨fun d₂ h₂ => ?_, fun e h₂ => ⟨e.shift s₁.utf8ByteSize, ?_, e.kind_shift _, ?_, ?_⟩⟩
  · rw [heq, h₂]
    rfl
  · rw [heq, h₂]
    rfl
  · intro hlexical
    rw [ParseError.shift_of_not_isLexical hlexical]
  · rintro le rfl
    rfl

/-- A run of text that ends with a brace goes on behind it, and is passed over with it. -/
theorem parse_append_brace :
    parse ("é\x7b" ++ "b") = .ok { children := [.text "é\x7bb"] } ∧
    ∃ e, parse ("é\x7b" ++ "b\\q") = .error e ∧ e.kind = .lexical .invalidEscape ∧
      e.message = "invalid escape sequence at byte 4" := by
  have hfirst : parse "é\x7b" = .ok { children := [.text "é\x7b"] } := by cbv
  have hsecond : parse "b" = .ok { children := [.text "b"] } := by cbv
  have hfault : parse "b\\q" = .error (.lexical ⟨.invalidEscape, 1⟩) := by cbv
  refine ⟨(parse_append _ _ _ hfirst (Or.inr (by decide))).1 _ hsecond, ?_⟩
  obtain ⟨e, he, hkind, -, hmessage⟩ :=
    (parse_append _ _ _ hfirst (Or.inr (by decide))).2 _ hfault
  refine ⟨e, he, hkind, ?_⟩
  rw [hmessage _ rfl]
  decide

end TagTemplate
