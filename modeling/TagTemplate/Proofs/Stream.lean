import TagTemplate.Proofs.Lexing
import TagTemplate.Token.Lexer

/-!
# The stream of a lexer

Whatever a `Lexer` is asked and in whatever order, it hands out the entries of one stream, which
depends on the source alone: the tokens of the source with their spans, the error that stopped the
reading if there is one, and from then on the end of the input. Asking for the last token, its span
or the mode moves nothing.

A lexer is in one of two situations. `Midway` says that some of the lexemes of the source have been
handed out, the others being the reading of the input that is left; every token keeps it
(`Midway.next_of_token`). `Spent` says that the lexer is exhausted, and nothing leads out of it
(`Spent.next`). Behind as many calls as there are tokens a lexer is midway, and behind more of them
it is spent, so that every call is of one of three kinds (`next_after_cases`).

## Call convention

A run is a list of calls answered one after the other by one lexer. Calls for a token are counted
from zero: `stream source k` answers the call in front of which `k` others have asked for a token,
and `after source k` is the lexer this call is put to.

## Main results

* `next_after_cases`: what a call for a token answers, and the lexer behind it.
* `run_after`: runs, call by call.
* `streams_ofSource`: all that is known of the runs of a lexer.
-/

namespace TagTemplate

/-! ### Spans of lexemes -/

/-- The span of a lexeme that begins, with the blanks in front of it, at a byte offset. -/
def Lexeme.spanFrom (l : Lexeme) (offset : Nat) : Span :=
  ⟨offset + byteLength l.gap, offset + byteLength l.gap + byteLength l.chars⟩

namespace Lexing

/-- Lexemes are spelled one after the other. -/
theorem charsOf_append (ls ms : List Lexeme) :
    charsOf (ls ++ ms) = charsOf ls ++ charsOf ms := List.flatMap_append

/-- One lexeme ends where its span ends. -/
theorem byteLength_charsOf_concat (ls : List Lexeme) (l : Lexeme) :
    byteLength (charsOf (ls ++ [l])) = (l.spanFrom (byteLength (charsOf ls))).stop := by
  simp [charsOf, byteLength_append, Lexeme.spanFrom, Nat.add_assoc]

/-- There is a span for every lexeme. -/
@[simp]
theorem length_spansFrom (offset : Nat) (ls : List Lexeme) :
    (spansFrom offset ls).length = ls.length := by
  induction ls generalizing offset with
  | nil => rfl
  | cons l ls ih => simp [spansFrom, ih]

/-- Spans one after the other: those behind begin where the lexemes in front end. -/
theorem spansFrom_append (offset : Nat) (ls ms : List Lexeme) :
    spansFrom offset (ls ++ ms) =
      spansFrom offset ls ++ spansFrom (offset + byteLength (charsOf ls)) ms := by
  induction ls generalizing offset with
  | nil => rfl
  | cons l ls ih =>
      simp [spansFrom, ih, charsOf, byteLength_append, Nat.add_assoc]

/-- Without their spans tokens are as they are in the lexemes. -/
theorem map_fst_spansFrom (offset : Nat) (ls : List Lexeme) :
    (spansFrom offset ls).map Prod.fst = ls.map Lexeme.token := by
  induction ls generalizing offset with
  | nil => rfl
  | cons l ls ih => simp [spansFrom, ih]

/-- What a reading hands out: its tokens with their spans, then its error, if it has one. -/
def outcomes (l : Lexing) : List (Except LexError (Token × Span)) :=
  l.spans.map .ok ++ l.error?.toList.map .error

end Lexing

namespace Lexer

/-! ### Calls -/

/-- What a lexer can be asked for. -/
inductive Call where
  /-- The next token. -/
  | next
  /-- The token handed out last. -/
  | token
  /-- The span of that token. -/
  | span
  /-- The mode. -/
  | mode
deriving DecidableEq

/-- What a lexer answers. -/
inductive Answer where
  /-- A token, or the fault in its place. -/
  | next (result : Except LexError Token)
  /-- The token handed out last, if there is one. -/
  | token (token : Option Token)
  /-- Its span. -/
  | span (span : Span)
  /-- The mode. -/
  | mode (mode : Mode)

/-- The answer to a call, and the lexer behind it. -/
def call (l : Lexer) : Call → Answer × Lexer
  | .next => (.next l.next.1, l.next.2)
  | .token => (.token l.token, l)
  | .span => (.span l.span, l)
  | .mode => (.mode l.mode, l)

/-- The answers to calls in order, and the lexer behind them. -/
def run (l : Lexer) : List Call → List Answer × Lexer
  | [] => ([], l)
  | c :: cs =>
    let (answer, l') := l.call c
    let (answers, last) := l'.run cs
    (answer :: answers, last)

/-- The lexer of a source behind `k` calls for a token. -/
def after (source : String) : Nat → Lexer
  | 0 => ofSource source
  | k + 1 => (after source k).next.2

/-! ### The stream -/

/-- The end of a source, as it is handed out. -/
def endOf (source : String) : Token × Span :=
  (.eof, ⟨source.utf8ByteSize, source.utf8ByteSize⟩)

/-- **The stream of a source**: its tokens with their spans, its error if it has one, and the end
of the input ever after. -/
def stream (source : String) (k : Nat) : Except LexError (Token × Span) :=
  (Lexing.ofSource source).outcomes.getD k (.ok (endOf source))

/-- How many tokens a source has in front of its end or its error. -/
def tokenCount (source : String) : Nat := (Lexing.ofSource source).lexemes.length

/-- The stream begins with the tokens. -/
theorem stream_of_lexemes_eq {source : String} {done more : List Lexeme} {l : Lexeme}
    (h : (Lexing.ofSource source).lexemes = done ++ l :: more) :
    stream source done.length =
      .ok (l.token, l.spanFrom (byteLength (Lexing.charsOf done))) := by
  have hspans : (Lexing.ofSource source).spans = Lexing.spansFrom 0 done ++
      (l.token, l.spanFrom (byteLength (Lexing.charsOf done))) ::
        Lexing.spansFrom (l.spanFrom (byteLength (Lexing.charsOf done))).stop more := by
    rw [Lexing.spans, h, Lexing.spansFrom_append, Nat.zero_add]
    rfl
  simp [stream, Lexing.outcomes, hspans, List.getD_eq_getElem?_getD]

/-- Behind the tokens comes the error, if there is one, and the end if not. -/
theorem stream_tokenCount (source : String) :
    stream source (tokenCount source) =
      (Lexing.ofSource source).error?.elim (.ok (endOf source)) .error := by
  cases herror : (Lexing.ofSource source).error? <;>
    simp [stream, Lexing.outcomes, herror, tokenCount, Lexing.spans, List.getD_eq_getElem?_getD]

/-- Then comes the end. -/
theorem stream_of_tokenCount_lt {source : String} {k : Nat} (h : tokenCount source < k) :
    stream source k = .ok (endOf source) := by
  have hlength : (Lexing.ofSource source).outcomes.length ≤ k := by
    have herror : (Lexing.ofSource source).error?.toList.length ≤ 1 := by
      cases (Lexing.ofSource source).error? <;> simp
    simp only [tokenCount] at h
    simp only [Lexing.outcomes, Lexing.spans, List.length_append, List.length_map,
      Lexing.length_spansFrom]
    omega
  rw [stream, List.getD_eq_getElem?_getD, List.getElem?_eq_none hlength]
  rfl

/-! ### One call for a token -/

section Next

variable {l : Lexer} {mode : Mode} {cs : List Char}

/-- A token is handed out and remembered, with its span. -/
theorem next_of_token (hinput : l.input = some (mode, cs)) {lexeme : Lexeme} {mode' : Mode}
    {rest : List Char} (hstep : step mode cs = .token lexeme mode' rest) :
    l.next = (.ok lexeme.token,
      { l with
        input := some (mode', rest)
        offset := (lexeme.spanFrom l.offset).stop
        mode := modeBehind lexeme.token mode' rest
        token := some lexeme.token
        span := lexeme.spanFrom l.offset }) := by
  simp only [next, hinput, hstep, Lexeme.spanFrom]

/-- At the end of the input the end is handed out. -/
theorem next_of_finished (hinput : l.input = some (mode, cs)) (hstep : step mode cs = .finished) :
    l.next = (.ok .eof, l.finish) := by
  simp only [next, hinput, hstep]

/-- At a fault nothing is remembered but that there is no more to read. -/
theorem next_of_fault (hinput : l.input = some (mode, cs)) {passed : List Char} {fault : LexFault}
    (hstep : step mode cs = .fault passed fault) :
    l.next = (.error ⟨fault, l.offset + byteLength passed⟩,
      { l with input := none, mode := .text }) := by
  simp only [next, hinput, hstep]

end Next

/-- An exhausted lexer of a source. -/
structure Spent (source : String) (l : Lexer) : Prop where
  /-- There is no input left. -/
  input : l.input = none
  /-- The mode is that of text. -/
  mode : l.mode = .text
  /-- Its size is that of the source. -/
  size : l.size = source.utf8ByteSize

/-- **Exhausted lexers stay exhausted** and hand out the end. -/
theorem Spent.next {source : String} {l : Lexer} (h : Spent source l) :
    l.next = (.ok .eof, l.finish) ∧ Spent source l.next.2 := by
  have hnext : l.next = (.ok .eof, l.finish) := by simp only [Lexer.next, h.input]
  exact ⟨hnext, by rw [hnext]; exact ⟨rfl, rfl, h.size⟩⟩

/-- A lexer that has handed out the lexemes `done` of a source and has `cs` left to read. -/
structure Midway (source : String) (done : List Lexeme) (mode : Mode) (cs : List Char)
    (l : Lexer) : Prop where
  /-- This is the input. -/
  input : l.input = some (mode, cs)
  /-- The lexemes to come are those of the input. -/
  lexing : Lexing.ofSource source =
    { lexemes := done ++ (lex mode cs).lexemes, fault := (lex mode cs).fault }
  /-- The characters handed out and those of the input are those of the source. -/
  chars : Lexing.charsOf done ++ cs = source.toList
  /-- The input begins where the lexemes end. -/
  offset : l.offset = byteLength (Lexing.charsOf done)
  /-- Its size is that of the source. -/
  size : l.size = source.utf8ByteSize

/-- A lexer of which nothing was asked. -/
theorem midway_ofSource (source : String) :
    Midway source [] .text source.toList (ofSource source) :=
  ⟨rfl, rfl, rfl, rfl, byteLength_toList source⟩

/-- **A token more**: the lexer is midway again, behind that token. -/
theorem Midway.next_of_token {source : String} {done : List Lexeme} {mode mode' : Mode}
    {cs rest : List Char} {l : Lexer} (h : Midway source done mode cs l) {lexeme : Lexeme}
    (hstep : step mode cs = .token lexeme mode' rest) :
    Midway source (done ++ [lexeme]) mode' rest l.next.2 := by
  obtain ⟨-, hcs⟩ := step_eq_append hstep
  rw [Lexer.next_of_token h.input hstep]
  refine ⟨rfl, ?_, ?_, ?_, h.size⟩
  · rw [h.lexing, lex_of_token hstep]
    simp
  · rw [← h.chars, ← hcs]
    simp [Lexing.charsOf]
  · rw [Lexing.byteLength_charsOf_concat, ← h.offset]

/-- Behind the last token of a source the lexer hands out the error or the end, and is spent. -/
theorem Midway.next_of_lexemes_eq_nil {source : String} {done : List Lexeme} {mode : Mode}
    {cs : List Char} {l : Lexer} (h : Midway source done mode cs l)
    (hnil : (lex mode cs).lexemes = []) :
    (((Lexing.ofSource source).error? = none ∧ l.next = (.ok .eof, l.finish)) ∨
      ∃ e, (Lexing.ofSource source).error? = some e ∧
        l.next = (.error e, { l with input := none, mode := .text })) ∧
    Spent source l.next.2 := by
  rcases step_of_lexemes_eq_nil hnil with ⟨-, -, hstep, hfault⟩ | ⟨passed, fault, hstep, hfault⟩
  · have hnext := next_of_finished h.input hstep
    refine ⟨Or.inl ⟨?_, hnext⟩, ?_⟩
    · rw [h.lexing, hfault]
      rfl
    · rw [hnext]
      exact ⟨rfl, rfl, h.size⟩
  · have hnext := next_of_fault h.input hstep
    refine ⟨Or.inr ⟨_, ?_, hnext⟩, ?_⟩
    · rw [h.lexing, hnil, hfault, h.offset]
      simp [Lexing.error?, byteLength_append]
    · rw [hnext]
      exact ⟨rfl, rfl, h.size⟩

/-! ### The mode behind a token -/

/-- Tokens behind which tag mode is on: an opener, anything inside a tag other than its closing
mark, and a run of text that does not end the source, because the opener behind it has been seen. -/
def LeadsIntoTag (source : String) (t : Token) (s : Span) : Prop :=
  t = .tagOpen ∨ (t.isTagContent = true ∧ t ≠ .tagClose) ∨
    (t.isText = true ∧ s.stop < source.utf8ByteSize)

/-- The mode behind a token, by the token and by whether the source has ended. -/
theorem modeBehind_eq_tag_iff {mode mode' : Mode} {cs rest : List Char} {lexeme : Lexeme}
    (h : step mode cs = .token lexeme mode' rest) :
    modeBehind lexeme.token mode' rest = .tag ↔
      lexeme.token = .tagOpen ∨ (lexeme.token.isTagContent = true ∧ lexeme.token ≠ .tagClose) ∨
        (lexeme.token.isText = true ∧ rest ≠ []) := by
  rcases token_cases_of_step h with
    ⟨-, rfl, ht⟩ | ⟨-, rfl, -, content, ht, -⟩ | ⟨-, rfl, hcontent, -⟩
  · simp [ht, modeBehind]
  · cases rest <;> simp [ht, modeBehind, Token.isTagContent, Token.isText]
  · cases ht : lexeme.token <;>
      simp_all [modeBehind, modeAfter, Token.isTagContent, Token.isText]

/-- Where a lexer is midway the source goes on exactly if there is input left. -/
theorem Midway.lt_size_iff {source : String} {done : List Lexeme} {mode : Mode} {cs : List Char}
    {l : Lexer} (h : Midway source done mode cs l) :
    byteLength (Lexing.charsOf done) < source.utf8ByteSize ↔ cs ≠ [] := by
  have hsize := congrArg byteLength h.chars
  have hpos := length_le_byteLength cs
  rw [byteLength_append, byteLength_toList] at hsize
  constructor
  · rintro hlt rfl
    simp only [byteLength] at hsize
    omega
  · intro hne
    have := List.length_pos_iff.mpr hne
    omega

/-! ### Many calls for a token -/

/-- Behind at most as many calls as there are tokens the lexer is midway. -/
theorem exists_midway_after {source : String} {k : Nat} (hk : k ≤ tokenCount source) :
    ∃ done mode cs, done.length = k ∧ Midway source done mode cs (after source k) := by
  induction k with
  | zero => exact ⟨[], .text, source.toList, rfl, midway_ofSource source⟩
  | succ k ih =>
      obtain ⟨done, mode, cs, hlength, hmidway⟩ := ih (by omega)
      obtain ⟨lexeme, more, hmore⟩ : ∃ lexeme more, (lex mode cs).lexemes = lexeme :: more := by
        refine List.exists_cons_of_ne_nil fun hnil => ?_
        rw [tokenCount, hmidway.lexing, hnil] at hk
        simp at hk
        omega
      obtain ⟨mode', rest, hstep, -⟩ := exists_step_of_lexemes_eq_cons hmore
      exact ⟨done ++ [lexeme], mode', rest, by simp [hlength], hmidway.next_of_token hstep⟩

/-- Behind more calls it is spent. -/
theorem spent_after {source : String} {k : Nat} (hk : tokenCount source < k) :
    Spent source (after source k) := by
  induction k with
  | zero => omega
  | succ k ih =>
      by_cases hlt : tokenCount source < k
      · exact (ih hlt).next.2
      · obtain ⟨done, mode, cs, hlength, hmidway⟩ := exists_midway_after (Nat.le_of_not_lt hlt)
        have hnil : (lex mode cs).lexemes = [] := by
          rw [tokenCount, hmidway.lexing, List.length_append] at hk
          exact List.eq_nil_of_length_eq_zero (by omega)
        exact (hmidway.next_of_lexemes_eq_nil hnil).2

/-- **What a call for a token answers**, and the lexer behind it: first the tokens, then the
error, if there is one, and then the end. -/
theorem next_after_cases (source : String) (k : Nat) :
    (k < tokenCount source ∧ ∃ t s, stream source k = .ok (t, s) ∧ t ≠ .eof ∧
      (after source k).next.1 = .ok t ∧ (after source (k + 1)).token = some t ∧
      (after source (k + 1)).span = s ∧
      ((after source (k + 1)).mode = .tag ↔ LeadsIntoTag source t s)) ∨
    (k = tokenCount source ∧ ∃ e, stream source k = .error e ∧
      (after source k).next.1 = .error e ∧
      (after source (k + 1)).token = (after source k).token ∧
      (after source (k + 1)).span = (after source k).span ∧
      (after source (k + 1)).mode = .text) ∨
    (tokenCount source ≤ k ∧ stream source k = .ok (endOf source) ∧
      (after source k).next.1 = .ok .eof ∧
      (after source (k + 1)).token = some (endOf source).1 ∧
      (after source (k + 1)).span = (endOf source).2 ∧
      (after source (k + 1)).mode = .text) := by
  have hfinish {l : Lexer} (hsize : l.size = source.utf8ByteSize) :
      l.finish.span = (endOf source).2 := by
    simp only [finish, endOf, hsize]
  rcases Nat.lt_trichotomy k (tokenCount source) with hlt | rfl | hlt
  · -- a token: the lexer is midway and has a lexeme to hand out
    obtain ⟨done, mode, cs, rfl, hmidway⟩ := exists_midway_after hlt.le
    obtain ⟨lexeme, more, hmore⟩ : ∃ lexeme more, (lex mode cs).lexemes = lexeme :: more := by
      refine List.exists_cons_of_ne_nil fun hnil => ?_
      rw [tokenCount, hmidway.lexing, hnil] at hlt
      simp at hlt
    obtain ⟨mode', rest, hstep, -⟩ := exists_step_of_lexemes_eq_cons hmore
    have hlexemes : (Lexing.ofSource source).lexemes = done ++ lexeme :: more := by
      rw [hmidway.lexing, hmore]
    have hbehind := (hmidway.next_of_token hstep).lt_size_iff
    rw [Lexing.byteLength_charsOf_concat] at hbehind
    have hnext := next_of_token hmidway.input hstep
    rw [hmidway.offset] at hnext
    refine Or.inl ⟨hlt, _, _, stream_of_lexemes_eq hlexemes, token_ne_eof_of_step hstep, ?_⟩
    rw [after, hnext]
    refine ⟨rfl, rfl, rfl, ?_⟩
    rw [modeBehind_eq_tag_iff hstep, LeadsIntoTag, hbehind]
  · -- the lexer is midway and has handed out all lexemes
    obtain ⟨done, mode, cs, hlength, hmidway⟩ := exists_midway_after (le_refl (tokenCount source))
    have hnil : (lex mode cs).lexemes = [] := by
      rw [tokenCount, hmidway.lexing, List.length_append] at hlength
      exact List.eq_nil_of_length_eq_zero (by omega)
    have hstream := stream_tokenCount source
    obtain ⟨⟨herror, hnext⟩ | ⟨e, herror, hnext⟩, -⟩ := hmidway.next_of_lexemes_eq_nil hnil
    · rw [herror] at hstream
      refine Or.inr (Or.inr ⟨le_refl _, hstream, ?_⟩)
      rw [after, hnext]
      exact ⟨rfl, rfl, hfinish hmidway.size, rfl⟩
    · rw [herror] at hstream
      refine Or.inr (Or.inl ⟨rfl, e, hstream, ?_⟩)
      rw [after, hnext]
      exact ⟨rfl, rfl, rfl, rfl⟩
  · -- the lexer is spent
    have hspent := spent_after hlt
    refine Or.inr (Or.inr ⟨hlt.le, stream_of_tokenCount_lt hlt, ?_⟩)
    rw [after, hspent.next.1]
    exact ⟨rfl, rfl, hfinish hspent.size, rfl⟩

/-- Calls for a token are answered from the stream. -/
theorem next_after_eq (source : String) (k : Nat) :
    (after source k).next.1 = (stream source k).map Prod.fst := by
  rcases next_after_cases source k with
    ⟨-, t, s, hstream, -, hnext, -⟩ | ⟨-, e, hstream, hnext, -⟩ | ⟨-, hstream, hnext, -⟩ <;>
  · rw [hstream, hnext]
    rfl

/-- The end of the input leads into no tag. -/
theorem not_leadsIntoTag_eof (source : String) (s : Span) : ¬ LeadsIntoTag source .eof s := by
  simp [LeadsIntoTag, Token.isTagContent, Token.isText]

/-- Behind a token the lexer holds it and its span, in the mode it leads into; the end of the input
is a token like the others in this, and comes last. -/
theorem after_succ_of_stream_eq_ok {source : String} {k : Nat} {t : Token} {s : Span}
    (h : stream source k = .ok (t, s)) :
    ((after source (k + 1)).token = some t ∧ (after source (k + 1)).span = s) ∧
    ((after source (k + 1)).mode = .tag ↔ LeadsIntoTag source t s) ∧
    (t = .eof → (t, s) = endOf source ∧ tokenCount source ≤ k) := by
  rcases next_after_cases source k with
    ⟨-, t', s', hstream, hne, -, htoken, hspan, hmode⟩ | ⟨-, e, hstream, -⟩ |
      ⟨hle, hstream, -, htoken, hspan, hmode⟩
  · rw [hstream] at h
    cases h
    exact ⟨⟨htoken, hspan⟩, hmode, fun heof => absurd heof hne⟩
  · rw [hstream] at h
    cases h
  · rw [hstream] at h
    cases h
    have hnot := not_leadsIntoTag_eof source ⟨source.utf8ByteSize, source.utf8ByteSize⟩
    exact ⟨⟨htoken, hspan⟩, by simp [hmode, hnot], fun _ => ⟨rfl, hle⟩⟩

/-- An error comes behind the last token, and behind it the lexer holds what it held before, in text
mode. -/
theorem after_succ_of_stream_eq_error {source : String} {k : Nat} {e : LexError}
    (h : stream source k = .error e) :
    k = tokenCount source ∧ (after source (k + 1)).token = (after source k).token ∧
      (after source (k + 1)).span = (after source k).span ∧
      (after source (k + 1)).mode = .text := by
  rcases next_after_cases source k with
    ⟨-, t, s, hstream, -⟩ | ⟨hk, e', -, -, hkeeps⟩ | ⟨-, hstream, -⟩
  · rw [hstream] at h
    cases h
  · exact ⟨hk, hkeeps⟩
  · rw [hstream] at h
    cases h

/-- Entries of the stream at which it is over: the error, and the end. -/
def IsOver (entry : Except LexError (Token × Span)) : Prop :=
  (∃ e, entry = .error e) ∨ ∃ s, entry = .ok (.eof, s)

/-- The stream is not over before the tokens are, and then the lexer is in text mode. -/
theorem IsOver.after {source : String} {k : Nat} (h : IsOver (stream source k)) :
    tokenCount source ≤ k ∧ (after source (k + 1)).mode = .text := by
  rcases h with ⟨e, he⟩ | ⟨s, hs⟩
  · obtain ⟨rfl, -, -, hmode⟩ := after_succ_of_stream_eq_error he
    exact ⟨le_refl _, hmode⟩
  · obtain ⟨-, hmode, hend⟩ := after_succ_of_stream_eq_ok hs
    refine ⟨(hend rfl).2, ?_⟩
    cases hm : (Lexer.after source (k + 1)).mode with
    | text => rfl
    | tag => exact absurd (hmode.mp hm) (not_leadsIntoTag_eof source s)

/-! ### Runs -/

/-- The answer to a call in front of which `k` calls have asked for a token. -/
def answerAt (source : String) (k : Nat) : Call → Answer
  | .next => .next ((stream source k).map Prod.fst)
  | .token => .token (after source k).token
  | .span => .span (after source k).span
  | .mode => .mode (after source k).mode

/-- **One call**: only calls for a token move the lexer. -/
theorem call_after (source : String) (k : Nat) (c : Call) :
    (after source k).call c = (answerAt source k c, after source (k + [c].count .next)) := by
  cases c with
  | next => simp [call, answerAt, after, next_after_eq]
  | token => simp [call, answerAt]
  | span => simp [call, answerAt]
  | mode => simp [call, answerAt]

/-- Runs go on where the runs in front of them end. -/
theorem run_append (l : Lexer) (cs ds : List Call) :
    l.run (cs ++ ds) = ((l.run cs).1 ++ ((l.run cs).2.run ds).1, ((l.run cs).2.run ds).2) := by
  induction cs generalizing l with
  | nil => rfl
  | cons c cs ih => simp [run, ih]

/-- **Runs**, call by call: the lexer behind a run depends on how many of its calls have asked for a
token, and there is an answer to each call. -/
theorem run_after (source : String) (k : Nat) (calls : List Call) :
    ((after source k).run calls).2 = after source (k + calls.count .next) ∧
    ((after source k).run calls).1.length = calls.length := by
  induction calls generalizing k with
  | nil => exact ⟨rfl, rfl⟩
  | cons c calls ih =>
      obtain ⟨hstate, hlength⟩ := ih (k + [c].count .next)
      have hcount : (c :: calls).count Call.next = [c].count .next + calls.count .next := by
        rw [← List.count_append, List.singleton_append]
      simp only [run, call_after, hstate, hlength, hcount, Nat.add_assoc, List.length_cons,
        and_self]

/-- The answer to one call of a run. -/
theorem getElem?_run_after (source : String) (before rest : List Call) (c : Call) :
    ((after source 0).run (before ++ c :: rest)).1[before.length]? =
      some (answerAt source (before.count .next) c) := by
  obtain ⟨hstate, hlength⟩ := run_after source 0 before
  rw [Nat.zero_add] at hstate
  rw [run_append, hstate, List.getElem?_append_right (by omega), hlength, Nat.sub_self]
  simp [run, call_after]

/-- The answers of a lexer that is asked for tokens only. -/
theorem run_replicate_next (source : String) (n : Nat) :
    ((after source 0).run (List.replicate n .next)).1 =
      (List.range n).map fun k => .next ((stream source k).map Prod.fst) := by
  induction n with
  | zero => rfl
  | succ n ih =>
      have hstate := (run_after source 0 (List.replicate n .next)).1
      rw [Nat.zero_add, List.count_replicate_self] at hstate
      rw [List.replicate_succ', run_append, ih, hstate, List.range_succ, List.map_append]
      simp [run, call_after, answerAt]

/-- Asked often enough a lexer hands out all of the tokens in front of an error, and the error. -/
theorem run_of_error {source : String} {e : LexError}
    (h : (Lexing.ofSource source).error? = some e) :
    ((ofSource source).run
        (List.replicate ((Lexing.ofSource source).tokens.length + 1) .next)).1 =
      (Lexing.ofSource source).tokens.map (fun t => .next (.ok t)) ++ [.next (.error e)] := by
  have houtcomes : (Lexing.ofSource source).outcomes =
      (Lexing.ofSource source).spans.map .ok ++ [.error e] := by
    rw [Lexing.outcomes, h]
    rfl
  have hlength : (Lexing.ofSource source).outcomes.length =
      (Lexing.ofSource source).tokens.length + 1 := by
    simp [houtcomes, Lexing.spans, Lexing.tokens]
  have hstream : (List.range (Lexing.ofSource source).outcomes.length).map (stream source) =
      (Lexing.ofSource source).outcomes := by
    refine List.ext_getElem (by simp) fun k hk hk' => ?_
    simp [stream, hk']
  have hspans : (Lexing.ofSource source).spans.map Prod.fst = (Lexing.ofSource source).tokens :=
    Lexing.map_fst_spansFrom ..
  calc ((ofSource source).run (List.replicate _ .next)).1
      = ((List.range (Lexing.ofSource source).outcomes.length).map (stream source)).map
          (fun entry => Answer.next (entry.map Prod.fst)) := by
        rw [← hlength, List.map_map]
        exact run_replicate_next source _
    _ = (Lexing.ofSource source).outcomes.map
          (fun entry => Answer.next (entry.map Prod.fst)) := by rw [hstream]
    _ = (Lexing.ofSource source).tokens.map (fun t => .next (.ok t)) ++ [.next (.error e)] := by
        rw [houtcomes, ← hspans]
        simp [Except.map]

/-! ### All that is known -/

/-- **The runs of a lexer**, and the stream that they show. -/
structure Streams (source : String) : Prop where
  /-- Only calls for a token move the lexer; asking for anything else changes nothing. -/
  state : ∀ calls, ((ofSource source).run calls).2 = after source (calls.count .next)
  /-- Calls for a token are answered by the entries of the stream, one after the other, and the
  other calls by what the lexer holds behind the tokens asked for so far. -/
  answer : ∀ before c rest, ((ofSource source).run (before ++ c :: rest)).1[before.length]? =
    some (answerAt source (before.count .next) c)
  /-- Behind a token, the end included, the lexer holds that token and its span. -/
  holds : ∀ k t s, stream source k = .ok (t, s) →
    (after source (k + 1)).token = some t ∧ (after source (k + 1)).span = s
  /-- There is at most one error. -/
  error_unique : ∀ i j e e', stream source i = .error e → stream source j = .error e' → i = j
  /-- An error leaves the token and the span as they were, and puts the lexer into text mode. -/
  error_keeps : ∀ k e, stream source k = .error e →
    (after source (k + 1)).token = (after source k).token ∧
    (after source (k + 1)).span = (after source k).span ∧ (after source (k + 1)).mode = .text
  /-- The end of the input stands at the end of the source. -/
  eof_span : ∀ k s, stream source k = .ok (.eof, s) →
    s = ⟨source.utf8ByteSize, source.utf8ByteSize⟩
  /-- Once the stream is over the lexer stays in text mode, and only the end of the input is handed
  out. -/
  finished : ∀ i, IsOver (stream source i) → (after source (i + 1)).mode = .text ∧
    ∀ j, i < j → stream source j = .ok (endOf source) ∧ (after source (j + 1)).mode = .text
  /-- Behind a token the lexer is in tag mode exactly if the token leads into a tag. -/
  mode_iff : ∀ k t s, stream source k = .ok (t, s) →
    ((after source (k + 1)).mode = .tag ↔ LeadsIntoTag source t s)
  /-- If the source has tokens, they are the stream, up to the end of the input. -/
  of_ok : ∀ ts, tokenizeWithSpans source = .ok ts →
    (∀ k (h : k < ts.length), stream source k = .ok ts[k]) ∧
    ∀ k, ts.length ≤ k → stream source k = .ok (endOf source)
  /-- If the source has an error, it stands in the stream behind tokens only. -/
  of_error : ∀ e, tokenizeWithSpans source = .error e →
    ∃ n, (∀ k < n, ∃ t s, stream source k = .ok (t, s) ∧ t ≠ .eof) ∧ stream source n = .error e ∧
      ∀ k, n < k → stream source k = .ok (endOf source)

/-- **One stream.** Whatever a lexer is asked, it hands out the stream of its source. -/
theorem streams_ofSource (source : String) : Streams source where
  state calls := by
    have hstate := (run_after source 0 calls).1
    rwa [Nat.zero_add] at hstate
  answer before c rest := getElem?_run_after source before rest c
  holds k t s h := (after_succ_of_stream_eq_ok h).1
  error_unique i j e e' hi hj := by
    rw [(after_succ_of_stream_eq_error hi).1, (after_succ_of_stream_eq_error hj).1]
  error_keeps k e h := (after_succ_of_stream_eq_error h).2
  eof_span k s h := by
    obtain ⟨-, -, hend⟩ := after_succ_of_stream_eq_ok h
    exact congrArg Prod.snd (hend rfl).1
  finished i h := by
    obtain ⟨hle, hmode⟩ := h.after
    refine ⟨hmode, fun j hij => ?_⟩
    have hend := stream_of_tokenCount_lt (Nat.lt_of_le_of_lt hle hij)
    have hover : IsOver (stream source j) := Or.inr ⟨_, hend⟩
    exact ⟨hend, hover.after.2⟩
  mode_iff k t s h := (after_succ_of_stream_eq_ok h).2.1
  of_ok ts h := by
    obtain ⟨herror, rfl⟩ := tokenizeWithSpans_eq_ok_iff.mp h
    have hlist (k : Nat) : stream source k = ((Lexing.ofSource source).spans.map .ok).getD k
        (.ok (endOf source)) := by
      rw [stream, Lexing.outcomes, herror, Option.toList_none, List.map_nil, List.append_nil]
    refine ⟨fun k hk => ?_, fun k hk => ?_⟩
    · rw [hlist, List.getD_eq_getElem?_getD, List.getElem?_map, List.getElem?_eq_getElem hk]
      rfl
    · rw [hlist, List.getD_eq_getElem?_getD, List.getElem?_map, List.getElem?_eq_none hk]
      rfl
  of_error e h := by
    rw [tokenizeWithSpans_eq_error_iff] at h
    refine ⟨tokenCount source, fun k hk => ?_, ?_, fun k hk => stream_of_tokenCount_lt hk⟩
    · rcases next_after_cases source k with ⟨-, t, s, hstream, hne, -⟩ | ⟨rfl, -⟩ | ⟨hle, -⟩
      · exact ⟨t, s, hstream, hne⟩
      · omega
      · omega
    · rw [stream_tokenCount, h]
      rfl

/-- A tag that is not closed: the mode runs ahead of the text, the fault changes nothing that was
seen of the last token, and the end comes behind it. -/
example : ((ofSource "a\x7b$=").run
      [.mode, .next, .mode, .next, .next, .next, .token, .span, .mode, .next, .span]).1 =
    [.mode .text, .next (.ok (.text "a")), .mode .tag, .next (.ok .tagOpen), .next (.ok .echo),
      .next (.error ⟨.unterminatedTag, 4⟩), .token (some .echo), .span ⟨3, 4⟩, .mode .text,
      .next (.ok .eof), .span ⟨4, 4⟩] := by
  cbv

end Lexer

end TagTemplate
