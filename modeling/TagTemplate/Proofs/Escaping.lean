import TagTemplate.Proofs.Concatenation
import TagTemplate.Proofs.Stream

/-!
# Escaped text in front of a source

`Escaped.escape` writes a text so that nothing of it can pair with a character behind it. This
module says what that means for a source: put in front of any source at all, one that begins with a
dollar sign, a brace or a backslash included, an escaped text does no more than join the run of text
that the source begins with, and where the source does not begin with text it is a run of its own.
Everything else that the lexer hands out of the source stays what it is, moved along by as many
bytes as the escaped text is long.

The lemma that carries this is `lex_escape_append`, which holds in front of any input read in text
mode. What is left to be seen is what the joined reading hands out (`Lexing.outcomes_joinRun_text`
and its two companions, one for each thing that a reading in text mode can begin with), and the
stream of a source is what its reading hands out.

## Main results

* `lex_text_cases`: what a reading in text mode begins with.
* `stream_escape_append`: the streams with and without the escaped text.
* `escape_joins`: escaped text does not interact with what follows it.
-/

namespace TagTemplate

/-- A span, as it is in a source that begins so many bytes earlier. -/
def Span.shift (n : Nat) (s : Span) : Span := ⟨n + s.start, n + s.stop⟩

/-- What a source hands out, as it is in a source that begins so many bytes earlier. -/
def shiftEntry (n : Nat) : Except LexError (Token × Span) → Except LexError (Token × Span)
  | .ok (t, s) => .ok (t, s.shift n)
  | .error e => .error (e.shift n)

/-- Nothing moves by no bytes. -/
theorem shiftEntry_zero (entry : Except LexError (Token × Span)) : shiftEntry 0 entry = entry := by
  cases entry <;> simp [shiftEntry, Span.shift, LexError.shift]

/-! ### What a reading in text mode begins with -/

/-- **A reading in text mode begins** with a run of text, or where text ends, or it is a fault. -/
theorem lex_text_cases (cs : List Char) :
    (∃ chars u ls, (lex .text cs).lexemes = ⟨[], chars, .text u⟩ :: ls) ∨ Escaped.Ends cs ∨
      ∃ passed fault, lex .text cs = { lexemes := [], fault := some (passed, fault) } := by
  cases hstep : step .text cs with
  | finished => exact Or.inr (Or.inl (Or.inl (eq_nil_of_step_finished hstep).2))
  | fault passed fault => exact Or.inr (Or.inr ⟨passed, fault, lex_of_fault hstep⟩)
  | token l mode' rest =>
      rcases textStep_cases hstep with ⟨hopen, -, -⟩ | ⟨value, -, hl, -⟩
      · exact Or.inr (Or.inl (Or.inr ⟨rest, hopen⟩))
      · refine Or.inl ⟨l.chars, String.ofList value, (lex mode' rest).lexemes, ?_⟩
        rw [lex_of_token hstep, ← hl]

/-! ### What a joined reading hands out -/

namespace Lexing

/-- Spans move along with the offset at which the lexemes begin. -/
theorem spansFrom_add (n offset : Nat) (ls : List Lexeme) :
    spansFrom (n + offset) ls =
      (spansFrom offset ls).map fun entry => (entry.1, entry.2.shift n) := by
  induction ls generalizing offset with
  | nil => rfl
  | cons l ls ih => simp [spansFrom, Span.shift, Nat.add_assoc, ih]

/-- Tokens and an error that have moved along. -/
theorem map_shiftEntry (n offset : Nat) (ls : List Lexeme) (e : Option LexError) :
    ((spansFrom offset ls).map Except.ok ++ e.toList.map Except.error).map (shiftEntry n) =
      (spansFrom (n + offset) ls).map .ok ++ (e.map (LexError.shift n)).toList.map .error := by
  cases e <;> simp [spansFrom_add, shiftEntry, Function.comp_def]

variable (l : Lexing) (cs : List Char) (value : String)

/-- A run in front of a run of text is one run with it. -/
theorem outcomes_joinRun_text {chars : List Char} {u : String} {ls : List Lexeme}
    (h : l.lexemes = ⟨[], chars, .text u⟩ :: ls) :
    (l.joinRun cs value).outcomes =
      .ok (.text (value ++ u), ⟨0, byteLength cs + byteLength chars⟩) ::
        l.outcomes.tail.map (shiftEntry (byteLength cs)) := by
  have htail : l.outcomes.tail =
      (spansFrom (byteLength chars) ls).map .ok ++ l.error?.toList.map .error := by
    simp [outcomes, spans, h, spansFrom, byteLength]
  have hspans : (l.joinRun cs value).spans =
      (.text (value ++ u), ⟨0, byteLength cs + byteLength chars⟩) ::
        spansFrom (byteLength cs + byteLength chars) ls := by
    obtain ⟨lexemes, fault⟩ := l
    obtain rfl : lexemes = _ := h
    simp [joinRun, spans, spansFrom, byteLength, byteLength_append]
  rw [outcomes, hspans, error?_joinRun, htail, map_shiftEntry]
  rfl

/-- In front of anything else a run of text is a run of its own. -/
theorem outcomes_joinRun_of_eq
    (h : l.joinRun cs value = { l with lexemes := ⟨[], cs, .text value⟩ :: l.lexemes }) :
    (l.joinRun cs value).outcomes =
      .ok (.text value, ⟨0, byteLength cs⟩) :: l.outcomes.map (shiftEntry (byteLength cs)) := by
  have hspans : (l.joinRun cs value).spans =
      (.text value, ⟨0, byteLength cs⟩) :: spansFrom (byteLength cs) l.lexemes := by
    rw [h]
    simp [spans, spansFrom, byteLength]
  rw [outcomes, hspans, error?_joinRun, outcomes, spans, map_shiftEntry]
  rfl

/-- A run of text in front of a fault in text is passed over together with what was passed over. -/
theorem outcomes_joinRun_fault {passed : List Char} {fault : LexFault}
    (h : l = { lexemes := [], fault := some (passed, fault) }) :
    (l.joinRun cs value).outcomes = l.outcomes.map (shiftEntry (byteLength cs)) := by
  have hspans : (l.joinRun cs value).spans = [] := by
    rw [h]
    rfl
  rw [outcomes, hspans, error?_joinRun, outcomes, spans, map_shiftEntry, h]
  rfl

/-- Where text ends a run of text in front is a run of its own. -/
theorem joinRun_of_ends {rest : List Char} (h : Escaped.Ends rest) :
    (lex .text rest).joinRun cs value =
      { lex .text rest with lexemes := ⟨[], cs, .text value⟩ :: (lex .text rest).lexemes } := by
  rcases h with rfl | ⟨r, rfl⟩
  · rw [lex_of_finished rfl]
    rfl
  · rw [lex_of_token rfl]
    rfl

end Lexing

/-! ### Streams -/

/-- The characters of an escaped text. -/
theorem Escaped.toList_escape (t : String) :
    (escape t).toList = t.toList.flatMap escapeChar := by
  rw [escape, String.toList_ofList]

/-- An escaped text takes as many bytes as its characters. -/
theorem Escaped.byteLength_flatMap_escapeChar (t : String) :
    byteLength (t.toList.flatMap escapeChar) = (escape t).utf8ByteSize := by
  rw [← toList_escape, byteLength_toList]

/-- The empty text has nothing to escape. -/
theorem Escaped.escape_empty : escape "" = "" := rfl

namespace Lexer

/-- The end of a source behind another one has moved along. -/
theorem endOf_append (s r : String) :
    (.ok (endOf (s ++ r)) : Except LexError (Token × Span)) =
      shiftEntry s.utf8ByteSize (.ok (endOf r)) := by
  simp [endOf, shiftEntry, Span.shift]

/-- **A source with an escaped text in front of it** hands out what the joined reading does. -/
theorem stream_escape_append {t : String} (ht : t ≠ "") (r : String) (k : Nat) :
    stream (Escaped.escape t ++ r) k =
      ((Lexing.ofSource r).joinRun (t.toList.flatMap Escaped.escapeChar) t).outcomes.getD k
        (shiftEntry (Escaped.escape t).utf8ByteSize (.ok (endOf r))) := by
  have htext : t.toList ≠ [] := by simpa using ht
  rw [stream, endOf_append, Lexing.ofSource, String.toList_append, Escaped.toList_escape,
    lex_escape_append htext, Lexing.prepend_eq_joinRun, String.ofList_toList, Lexing.ofSource]

/-- A stream begins with text where its reading does. -/
theorem stream_zero_of_lexemes {r u : String} {chars : List Char} {ls : List Lexeme}
    (h : (Lexing.ofSource r).lexemes = ⟨[], chars, .text u⟩ :: ls) :
    stream r 0 = .ok (.text u, ⟨0, byteLength chars⟩) := by
  have hlexemes : (Lexing.ofSource r).lexemes = [] ++ ⟨[], chars, .text u⟩ :: ls := h
  simpa [Lexeme.spanFrom, byteLength, Lexing.charsOf] using stream_of_lexemes_eq hlexemes

/-- A stream does not begin with text where text ends. -/
theorem stream_zero_of_ends {r : String} (h : Escaped.Ends r.toList) :
    ∃ t s, stream r 0 = .ok (t, s) ∧ t.isText = false := by
  rcases h with hnil | ⟨rest, hopener⟩
  · obtain rfl : r = "" := by simpa using hnil
    have hlex : Lexing.ofSource "" = { lexemes := [], fault := none } := lex_of_finished rfl
    refine ⟨.eof, (endOf "").2, ?_, rfl⟩
    rw [stream, hlex]
    rfl
  · have hlex : (Lexing.ofSource r).lexemes =
        [] ++ ⟨[], ['{', '$'], .tagOpen⟩ :: (lex .tag rest).lexemes := by
      rw [Lexing.ofSource, hopener, lex_of_token rfl]
      rfl
    exact ⟨.tagOpen, _, stream_of_lexemes_eq hlex, rfl⟩

/-- A stream begins with a fault where its reading is one. -/
theorem stream_zero_of_fault {r : String} {passed : List Char} {fault : LexFault}
    (h : Lexing.ofSource r = { lexemes := [], fault := some (passed, fault) }) :
    stream r 0 = .error ⟨fault, byteLength passed⟩ := by
  simp [stream, Lexing.outcomes, h, Lexing.spans, Lexing.spansFrom, Lexing.error?, Lexing.charsOf]

section Joined

variable {t r : String} (ht : t ≠ "")

include ht

/-- Text at the beginning of a source is joined by an escaped text in front of it. -/
theorem stream_escape_append_text {u : String} {s : Span} (h : stream r 0 = .ok (.text u, s)) :
    stream (Escaped.escape t ++ r) 0 =
        .ok (.text (t ++ u), ⟨s.start, (Escaped.escape t).utf8ByteSize + s.stop⟩) ∧
      ∀ k, stream (Escaped.escape t ++ r) (k + 1) =
        shiftEntry (Escaped.escape t).utf8ByteSize (stream r (k + 1)) := by
  rcases lex_text_cases r.toList with ⟨chars, v, ls, hlex⟩ | hends | ⟨passed, fault, hlex⟩
  · have hzero := stream_zero_of_lexemes hlex
    rw [h] at hzero
    cases hzero
    have hjoined := Lexing.outcomes_joinRun_text (Lexing.ofSource r)
      (t.toList.flatMap Escaped.escapeChar) t hlex
    simp only [stream_escape_append ht, hjoined, Escaped.byteLength_flatMap_escapeChar]
    refine ⟨rfl, fun k => ?_⟩
    rw [List.getD_cons_succ, List.getD_map, stream]
    simp [List.getD_eq_getElem?_getD]
  · obtain ⟨v, s', hv, hnot⟩ := stream_zero_of_ends hends
    rw [h] at hv
    cases hv
    cases hnot
  · rw [stream_zero_of_fault hlex] at h
    cases h

/-- In front of an opener or the end of a source an escaped text is a run of its own. -/
theorem stream_escape_append_alone (hends : Escaped.Ends r.toList) :
    stream (Escaped.escape t ++ r) 0 = .ok (.text t, ⟨0, (Escaped.escape t).utf8ByteSize⟩) ∧
      ∀ k, stream (Escaped.escape t ++ r) (k + 1) =
        shiftEntry (Escaped.escape t).utf8ByteSize (stream r k) := by
  have hjoined := Lexing.outcomes_joinRun_of_eq (Lexing.ofSource r) _ t
    (Lexing.joinRun_of_ends (t.toList.flatMap Escaped.escapeChar) t hends)
  simp only [stream_escape_append ht, hjoined, Escaped.byteLength_flatMap_escapeChar]
  refine ⟨rfl, fun k => ?_⟩
  rw [List.getD_cons_succ, List.getD_map, stream]

/-- A fault at the beginning of a source is the same fault behind an escaped text. -/
theorem stream_escape_append_error {e : LexError} (h : stream r 0 = .error e) (k : Nat) :
    stream (Escaped.escape t ++ r) k =
      shiftEntry (Escaped.escape t).utf8ByteSize (stream r k) := by
  rcases lex_text_cases r.toList with ⟨chars, v, ls, hlex⟩ | hends | ⟨passed, fault, hlex⟩
  · rw [stream_zero_of_lexemes hlex] at h
    cases h
  · obtain ⟨v, s', hv, -⟩ := stream_zero_of_ends hends
    rw [h] at hv
    cases hv
  · rw [stream_escape_append ht, Lexing.ofSource, Lexing.outcomes_joinRun_fault _ _ _ hlex,
      Escaped.byteLength_flatMap_escapeChar, List.getD_map, stream, Lexing.ofSource]

end Joined

end Lexer

/-! ### All that is known -/

open Lexer

/-- **A text that joins what follows it** when it is written as a template writes it. -/
structure JoinsRun (t r : String) : Prop where
  /-- The source begins with text, or with an opener or its end, or with an error. -/
  cases : (∃ u s, stream r 0 = .ok (.text u, s)) ∨ Escaped.Ends r.toList ∨
    ∃ e, stream r 0 = .error e
  /-- Text at its beginning is joined by the text in front, and the rest moves along. -/
  text : ∀ u s, stream r 0 = .ok (.text u, s) →
    stream ((Node.text t).source ++ r) 0 =
        .ok (.text (t ++ u), ⟨s.start, (Node.text t).source.utf8ByteSize + s.stop⟩) ∧
      ∀ k, stream ((Node.text t).source ++ r) (k + 1) =
        shiftEntry (Node.text t).source.utf8ByteSize (stream r (k + 1))
  /-- In front of an opener or the end the text is a run of its own, and all of the source moves
  along. -/
  alone : Escaped.Ends r.toList → t ≠ "" →
    stream ((Node.text t).source ++ r) 0 =
        .ok (.text t, ⟨0, (Node.text t).source.utf8ByteSize⟩) ∧
      ∀ k, stream ((Node.text t).source ++ r) (k + 1) =
        shiftEntry (Node.text t).source.utf8ByteSize (stream r k)
  /-- An error at its beginning is the same error, moved along. -/
  error : ∀ e, stream r 0 = .error e → ∀ k, stream ((Node.text t).source ++ r) k =
    shiftEntry (Node.text t).source.utf8ByteSize (stream r k)
  /-- Wherever in a source it is read in text mode, the text joins the reading of what follows. -/
  reading : t ≠ "" → lex .text ((Node.text t).source ++ r).toList =
    (lex .text r.toList).joinRun (Node.text t).source.toList t

/-- **Escaped text never interacts with what follows it.** -/
theorem escape_joins (t r : String) : JoinsRun t r where
  cases := by
    rcases lex_text_cases r.toList with ⟨chars, u, ls, h⟩ | hends | ⟨passed, fault, h⟩
    · exact Or.inl ⟨u, _, Lexer.stream_zero_of_lexemes h⟩
    · exact Or.inr (Or.inl hends)
    · exact Or.inr (Or.inr ⟨_, Lexer.stream_zero_of_fault h⟩)
  text u s h := by
    rw [Node.source]
    by_cases ht : t = ""
    · -- nothing is written of the empty text, and nothing moves
      subst ht
      simp [Escaped.escape_empty, shiftEntry_zero, h]
    · exact Lexer.stream_escape_append_text ht h
  alone hends ht := by
    rw [Node.source]
    exact Lexer.stream_escape_append_alone ht hends
  error e h k := by
    rw [Node.source]
    by_cases ht : t = ""
    · subst ht
      simp [Escaped.escape_empty, shiftEntry_zero]
    · exact Lexer.stream_escape_append_error ht h k
  reading ht := by
    rw [Node.source, String.toList_append, Escaped.toList_escape,
      lex_escape_append (by simpa using ht), Lexing.prepend_eq_joinRun, String.ofList_toList]

/-- A brace at the end of a text joins a dollar sign behind it, stays apart from an opener, and
moves an error along. -/
theorem escape_joins_brace :
    stream ((Node.text "é\x7b").source ++ "$\x7d \x7b$=") 0 = .ok (.text "é\x7b$\x7d ", ⟨0, 7⟩) ∧
      stream ((Node.text "é\x7b").source ++ "\x7b$=") 0 = .ok (.text "é\x7b", ⟨0, 4⟩) ∧
      stream ((Node.text "é\x7b").source ++ "$\\q") 0 = .error ⟨.invalidEscape, 5⟩ := by
  have htext : stream "$\x7d \x7b$=" 0 = .ok (.text "$\x7d ", ⟨0, 3⟩) := by cbv
  have herror : stream "$\\q" 0 = .error ⟨.invalidEscape, 1⟩ := by cbv
  refine ⟨((escape_joins _ _).text _ _ htext).1, ?_, ?_⟩
  · exact ((escape_joins _ _).alone (Or.inr ⟨['='], rfl⟩) (by decide)).1
  · rw [(escape_joins _ _).error _ herror, herror]
    rfl

end TagTemplate
