import TagTemplate.Proofs.Lexeme
import TagTemplate.Proofs.Shape

/-!
# Spans tile the source

The spans of the tokens of a source cover it from its first byte to its last, in order and without
overlap, and what they leave out are blanks inside of tags. No span cuts through a character, and
the slice of the source under a span is the token's own spelling: read on its own it gives the token
back.

All of this follows from one fact, that the lexemes of a source spell out the source. A span is then
a place in the list of lexemes (`exists_step_of_mem_spans`), bytes under it are the bytes of the
characters of that lexeme (`Span.bytes_eq`), and the blanks in front of a lexeme are there only
where the run of the lexer up to it has ended in tag mode (`gap_of_step`).

## Main results

* `charsOf_lexemes`: the lexemes of a source without a fault spell out the source.
* `exists_cut_of_spans_eq`: a cut through the spans is a cut through the lexemes.
* `tiles_of_tokenizeWithSpans`: spans tile the source.
-/

namespace TagTemplate

/-! ### Bytes -/

/-- The bytes of a source under a span. -/
def Span.bytes (s : Span) (source : String) : ByteArray :=
  source.toByteArray.extract s.start s.stop

/-- The bytes of the blanks of a tag: space, tab, carriage return and line feed. -/
def IsBlankByte (b : UInt8) : Prop := b = 0x20 ∨ b = 0x09 ∨ b = 0x0D ∨ b = 0x0A

/-- The bytes under a span are those of the characters in its place. -/
theorem Span.bytes_eq {source : String} {before chars rest : List Char}
    (h : before ++ chars ++ rest = source.toList) :
    Span.bytes ⟨byteLength before, byteLength before + byteLength chars⟩ source =
      (String.ofList chars).toByteArray := by
  have hsource : source = String.ofList before ++ (String.ofList chars ++ String.ofList rest) := by
    rw [← String.ofList_append, ← String.ofList_append, ← List.append_assoc, h,
      String.ofList_toList]
  have hbefore := utf8ByteSize_ofList before
  have hchars := utf8ByteSize_ofList chars
  rw [Span.bytes, hsource, String.toByteArray_append, String.toByteArray_append, ← hbefore,
    ← hchars, ← String.size_toByteArray, ← String.size_toByteArray,
    ← Nat.add_zero (String.ofList before).toByteArray.size, Nat.add_assoc,
    ByteArray.extract_append_size_add, Nat.zero_add]
  exact ByteArray.extract_append_eq_left rfl

/-- Between characters there is a character boundary. -/
theorem isValid_byteLength {source : String} {before rest : List Char}
    (h : before ++ rest = source.toList) :
    String.Pos.Raw.IsValid source ⟨byteLength before⟩ := by
  rw [String.Pos.Raw.isValid_iff_exists_append]
  refine ⟨String.ofList before, String.ofList rest, ?_, ?_⟩
  · rw [← String.ofList_append, h, String.ofList_toList]
  · rw [String.rawEndPos, utf8ByteSize_ofList]

/-- Blanks are written with the bytes of blanks. -/
theorem isBlankByte_of_mem {gap : List Char} (h : ∀ c ∈ gap, isBlank c = true) :
    ∀ b ∈ (String.ofList gap).toByteArray.data, IsBlankByte b := by
  intro b hb
  rw [String.toByteArray_ofList, List.utf8Encode, List.data_toByteArray, List.mem_toArray,
    List.mem_flatMap] at hb
  obtain ⟨c, hc, hb⟩ := hb
  have hblank := h c hc
  simp only [isBlank, Bool.or_eq_true, beq_iff_eq] at hblank
  rcases hblank with ((rfl | rfl) | rfl) | rfl
  · exact Or.inl (List.mem_singleton.mp hb)
  · exact Or.inr (Or.inl (List.mem_singleton.mp hb))
  · exact Or.inr (Or.inr (Or.inl (List.mem_singleton.mp hb)))
  · exact Or.inr (Or.inr (Or.inr (List.mem_singleton.mp hb)))

/-! ### Lexemes spell out the source -/

/-- The lexemes of a source without an error spell out the source. -/
theorem charsOf_lexemes {source : String} (h : (Lexing.ofSource source).error? = none) :
    Lexing.charsOf (Lexing.ofSource source).lexemes = source.toList := by
  obtain ⟨last, rest, -, hchars, hlast⟩ := exists_steps_lex .text source.toList
  have hfault : (lex .text source.toList).fault = none := Option.map_eq_none_iff.mp h
  obtain ⟨-, rfl⟩ := hlast hfault
  rwa [List.append_nil] at hchars

/-- A cut through the spans is a cut through the lexemes. -/
theorem Lexing.exists_cut_of_spansFrom_eq {offset : Nat} {ls : List Lexeme}
    {xs ys : List (Token × Span)} (h : spansFrom offset ls = xs ++ ys) :
    ∃ before after, ls = before ++ after ∧ xs = spansFrom offset before ∧
      ys = spansFrom (offset + byteLength (charsOf before)) after := by
  have hcut : ls.take xs.length ++ ls.drop xs.length = ls := List.take_append_drop ..
  have hlength := congrArg List.length h
  rw [length_spansFrom, List.length_append] at hlength
  rw [← hcut, spansFrom_append] at h
  obtain ⟨hxs, hys⟩ := List.append_inj h (by simp; omega)
  exact ⟨_, _, hcut.symm, hxs.symm, hys.symm⟩

/-- What stands at a place among the spans: the lexeme at that place. -/
theorem Lexing.exists_cut_of_spans_eq {l : Lexing} {xs ys : List (Token × Span)} {t : Token}
    {s : Span} (h : l.spans = xs ++ (t, s) :: ys) :
    ∃ before lexeme after, l.lexemes = before ++ lexeme :: after ∧
      xs = spansFrom 0 before ∧ t = lexeme.token ∧
      s = lexeme.spanFrom (byteLength (charsOf before)) ∧ ys = spansFrom s.stop after := by
  obtain ⟨before, more, hlexemes, hxs, hys⟩ := exists_cut_of_spansFrom_eq h
  rw [Nat.zero_add] at hys
  cases more with
  | nil => cases hys
  | cons lexeme after =>
      obtain ⟨hhead, htail⟩ := List.cons.inj hys
      cases hhead
      exact ⟨before, lexeme, after, hlexemes, hxs, rfl, rfl, htail⟩

/-- The mode in which a token is read. -/
def Token.mode (t : Token) : Mode := if t.isTagContent then .tag else .text

/-- Where a lexeme stands among the others: the run up to it, and the step that hands it out. -/
theorem exists_step_of_lexemes_eq {source : String} {before after : List Lexeme} {l : Lexeme}
    (h : (Lexing.ofSource source).lexemes = before ++ l :: after) :
    ∃ mode cs mode' rest, Steps .text source.toList (before.map Lexeme.token) mode cs ∧
      step mode cs = .token l mode' rest ∧
      Lexing.charsOf before ++ l.gap ++ l.chars ++ rest = source.toList := by
  obtain ⟨mode, cs, hsteps, hlex, hchars⟩ := exists_steps_of_lexemes_eq_append h
  obtain ⟨mode', rest, hstep, -⟩ :=
    exists_step_of_lexemes_eq_cons (congrArg Lexing.lexemes hlex)
  obtain ⟨-, hcs⟩ := step_eq_append hstep
  refine ⟨mode, cs, mode', rest, hsteps, hstep, ?_⟩
  rw [← hchars, ← hcs]
  simp

/-- What is known of a lexeme from the step that hands it out: the mode is that of its token, and
the characters in front of it are blanks, of which there are none in text mode. -/
theorem gap_of_step {mode mode' : Mode} {cs rest : List Char} {l : Lexeme}
    (h : step mode cs = .token l mode' rest) :
    mode = l.token.mode ∧ (∀ c ∈ l.gap, isBlank c = true) ∧ (mode = .text → l.gap = []) := by
  cases mode with
  | tag =>
      rcases token_cases_of_step h with ⟨hmode, -⟩ | ⟨hmode, -⟩ | ⟨-, -, hcontent, -⟩
      · cases hmode
      · cases hmode
      · refine ⟨by simp [Token.mode, hcontent], ?_, nofun⟩
        obtain ⟨f, -, rfl, -, -⟩ := exists_found_of_step h
        exact fun c hc => List.mem_takeWhile_imp hc
  | text =>
      have hgap : l.gap = [] := by
        simp only [step] at h
        rw [textStep.eq_def] at h
        split at h
        · cases h
        · cases h; rfl
        · split at h
          · cases h; rfl
          · cases h
      refine ⟨?_, by simp [hgap], fun _ => hgap⟩
      rcases token_cases_of_step h with ⟨-, -, ht⟩ | ⟨-, -, -, content, ht, -⟩ | ⟨hmode, -⟩
      · rw [ht]; rfl
      · rw [ht]; rfl
      · cases hmode

/-- Every lexeme takes up input. -/
theorem length_lexemes_le (mode : Mode) (cs : List Char) :
    (lex mode cs).lexemes.length ≤ cs.length := by
  fun_induction lex mode cs with
  | case1 | case2 => simp
  | case3 mode cs l mode' rest hstep more ih =>
      have hlt := length_rest_lt hstep
      have hmore : more.lexemes.length ≤ rest.length := ih
      simp only [List.length_cons]
      omega

/-! ### Spans -/

namespace Lexing

/-- Spans begin no earlier than the first of them may. -/
theorem le_start_of_mem_spansFrom {offset : Nat} {ls : List Lexeme} {a : Token × Span}
    (h : a ∈ spansFrom offset ls) : offset ≤ a.2.start := by
  induction ls generalizing offset with
  | nil => cases h
  | cons l ls ih =>
      rcases List.mem_cons.mp h with rfl | hmem
      · exact Nat.le_add_right ..
      · have hle := ih hmem
        omega

/-- Spans are in order and do not overlap. -/
theorem pairwise_spansFrom (offset : Nat) (ls : List Lexeme) :
    (spansFrom offset ls).Pairwise fun a b => a.2.stop ≤ b.2.start := by
  induction ls generalizing offset with
  | nil => exact List.Pairwise.nil
  | cons l ls ih => exact List.Pairwise.cons (fun b hb => le_start_of_mem_spansFrom hb) (ih _)

/-- The last span ends where the lexemes end. -/
theorem stop_of_spansFrom_eq_concat {ls : List Lexeme} {xs : List (Token × Span)}
    {a : Token × Span} (h : spansFrom 0 ls = xs ++ [a]) : a.2.stop = byteLength (charsOf ls) := by
  obtain ⟨before, after, rfl, -, hafter⟩ := exists_cut_of_spansFrom_eq h
  have hlength := congrArg List.length hafter
  rw [length_spansFrom] at hlength
  obtain ⟨l, rfl⟩ := List.length_eq_one_iff.mp hlength.symm
  rw [byteLength_charsOf_concat, List.singleton_inj.mp hafter, Nat.zero_add]
  rfl

end Lexing

/-- A lexeme on its own is all that is read of it. -/
theorem lexemes_lex_chars {mode mode' : Mode} {cs rest : List Char} {l : Lexeme}
    (h : step mode cs = .token l mode' rest) :
    (lex mode l.chars).lexemes = [⟨[], l.chars, l.token⟩] := by
  have hnothing : (lex mode' []).lexemes = [] := by
    cases mode' with
    | text => rw [lex_of_finished rfl]
    | tag => rw [lex_of_fault rfl]
  rw [lex_of_token (step_chars h), hnothing]

/-- A token with its span has its place in the source: a lexeme, the step that hands it out, and
the characters before and behind it. -/
theorem exists_step_of_mem_spans {source : String} {t : Token} {s : Span}
    (h : (t, s) ∈ (Lexing.ofSource source).spans) :
    ∃ before l mode cs mode' rest, step mode cs = .token l mode' rest ∧ t = l.token ∧
      s = l.spanFrom (byteLength (Lexing.charsOf before)) ∧
      Lexing.charsOf before ++ l.gap ++ l.chars ++ rest = source.toList := by
  obtain ⟨xs, ys, hspans⟩ := List.append_of_mem h
  obtain ⟨before, l, after, hlexemes, -, ht, hs, -⟩ := Lexing.exists_cut_of_spans_eq hspans
  obtain ⟨mode, cs, mode', rest, -, hstep, hchars⟩ := exists_step_of_lexemes_eq hlexemes
  exact ⟨before, l, mode, cs, mode', rest, hstep, ht, hs, hchars⟩

/-- The first span begins where the source does, since there are no blanks to skip in text mode. -/
theorem start_of_spans_eq_cons {source : String} {a : Token × Span} {ys : List (Token × Span)}
    (h : (Lexing.ofSource source).spans = a :: ys) : a.2.start = 0 := by
  cases hlexemes : (Lexing.ofSource source).lexemes with
  | nil => simp [Lexing.spans, hlexemes, Lexing.spansFrom] at h
  | cons l after =>
      obtain ⟨mode', rest, hstep, -⟩ := exists_step_of_lexemes_eq_cons hlexemes
      obtain ⟨-, -, hgap⟩ := gap_of_step hstep
      rw [Lexing.spans, hlexemes, Lexing.spansFrom] at h
      rw [← (List.cons.inj h).1]
      simp [hgap rfl, byteLength]

/-- The characters between neighbours are the blanks in front of the second, and they are there only
where the tokens so far end inside a tag. -/
theorem exists_gap_of_spans_eq {source : String} {xs ys : List (Token × Span)}
    {a b : Token × Span} (h : (Lexing.ofSource source).spans = xs ++ a :: b :: ys) :
    ∃ before gap rest, before ++ gap ++ rest = source.toList ∧ (∀ c ∈ gap, isBlank c = true) ∧
      a.2.stop = byteLength before ∧ b.2.start = byteLength before + byteLength gap ∧
      (gap ≠ [] → InsideTag ((xs ++ [a]).map Prod.fst)) := by
  have hcut : (Lexing.ofSource source).spans = (xs ++ [a]) ++ b :: ys := by simp [h]
  obtain ⟨before, l, after, hlexemes, hxs, -, hb, -⟩ := Lexing.exists_cut_of_spans_eq hcut
  obtain ⟨mode, cs, mode', rest, hsteps, hstep, hchars⟩ := exists_step_of_lexemes_eq hlexemes
  obtain ⟨-, hblank, htext⟩ := gap_of_step hstep
  refine ⟨Lexing.charsOf before, l.gap, l.chars ++ rest, ?_, hblank, ?_, ?_, fun hne => ?_⟩
  · rw [← hchars, List.append_assoc _ l.chars]
  · exact Lexing.stop_of_spansFrom_eq_concat hxs.symm
  · rw [hb]
    rfl
  · -- blanks are skipped in tag mode only, and that is the mode in which the run up to here ends
    rw [hxs, Lexing.map_fst_spansFrom, hsteps.insideTag_iff]
    cases mode with
    | tag => rfl
    | text => exact absurd (htext rfl) hne

/-! ### The tiling -/

/-- **Spans that tile a source.** -/
structure Tiles (source : String) (ts : List (Token × Span)) : Prop where
  /-- No span is empty. -/
  nonempty : ∀ t s, (t, s) ∈ ts → s.start < s.stop
  /-- No span reaches over the end of the source. -/
  within : ∀ t s, (t, s) ∈ ts → s.stop ≤ source.utf8ByteSize
  /-- No span cuts through a character. -/
  boundary : ∀ t s, (t, s) ∈ ts →
    String.Pos.Raw.IsValid source ⟨s.start⟩ ∧ String.Pos.Raw.IsValid source ⟨s.stop⟩
  /-- They are in order and do not overlap. -/
  ordered : ts.Pairwise fun a b => a.2.stop ≤ b.2.start
  /-- The first one begins where the source begins. -/
  first : ∀ a ∈ ts.head?, a.2.start = 0
  /-- The last one ends where the source ends. -/
  last : ∀ a ∈ ts.getLast?, a.2.stop = source.utf8ByteSize
  /-- Only the empty source has none. -/
  eq_empty : ts = [] → source = ""
  /-- Between neighbours there are blanks. -/
  blank : ∀ before a b after, ts = before ++ a :: b :: after →
    ∀ byte ∈ (Span.bytes ⟨a.2.stop, b.2.start⟩ source).data, IsBlankByte byte
  /-- And these are inside of a tag. -/
  inside : ∀ before a b after, ts = before ++ a :: b :: after → a.2.stop < b.2.start →
    InsideTag ((before ++ [a]).map Prod.fst)
  /-- There are no more of them than bytes. -/
  length_le : ts.length ≤ source.utf8ByteSize
  /-- What stands under a span is text, and read on its own, in the mode of the token, it is that
  token and nothing else. -/
  reread : ∀ t s, (t, s) ∈ ts → ∃ piece : String, piece.toByteArray = s.bytes source ∧
    (lex t.mode piece.toList).lexemes = [⟨[], piece.toList, t⟩]

/-- **Spans tile the source.** -/
theorem tiles_of_tokenizeWithSpans {source : String} {ts : List (Token × Span)}
    (h : tokenizeWithSpans source = .ok ts) : Tiles source ts := by
  obtain ⟨herror, rfl⟩ := tokenizeWithSpans_eq_ok_iff.mp h
  have hsource := charsOf_lexemes herror
  constructor
  case nonempty =>
    intro t s hmem
    obtain ⟨before, l, mode, cs, mode', rest, hstep, -, rfl, -⟩ := exists_step_of_mem_spans hmem
    have hpos := List.length_pos_iff.mpr (step_eq_append hstep).1
    have hle := length_le_byteLength l.chars
    simp only [Lexeme.spanFrom]
    omega
  case within =>
    intro t s hmem
    obtain ⟨before, l, mode, cs, mode', rest, -, -, rfl, hchars⟩ := exists_step_of_mem_spans hmem
    rw [← byteLength_toList, ← hchars]
    simp only [Lexeme.spanFrom, byteLength_append]
    omega
  case boundary =>
    intro t s hmem
    obtain ⟨before, l, mode, cs, mode', rest, -, -, rfl, hchars⟩ := exists_step_of_mem_spans hmem
    have hstart : Lexing.charsOf before ++ l.gap ++ (l.chars ++ rest) = source.toList := by
      rw [← hchars, List.append_assoc _ l.chars]
    simp only [Lexeme.spanFrom, ← byteLength_append]
    exact ⟨isValid_byteLength hstart, isValid_byteLength hchars⟩
  case ordered => exact Lexing.pairwise_spansFrom ..
  case first =>
    intro a hhead
    obtain ⟨ys, hspans⟩ := List.head?_eq_some_iff.mp hhead
    exact start_of_spans_eq_cons hspans
  case last =>
    intro a hlast
    obtain ⟨xs, hspans⟩ := List.getLast?_eq_some_iff.mp hlast
    rw [Lexing.stop_of_spansFrom_eq_concat hspans, hsource, byteLength_toList]
  case eq_empty =>
    intro hnil
    have hlexemes : (Lexing.ofSource source).lexemes = [] := by
      rw [← List.length_eq_zero_iff, ← Lexing.length_spansFrom 0, ← Lexing.spans, hnil,
        List.length_nil]
    rw [hlexemes] at hsource
    exact String.toList_eq_nil_iff.mp hsource.symm
  case blank =>
    intro xs a b ys hspans
    obtain ⟨before, gap, rest, hchars, hblank, ha, hb, -⟩ := exists_gap_of_spans_eq hspans
    rw [ha, hb, Span.bytes_eq hchars]
    exact isBlankByte_of_mem hblank
  case inside =>
    intro xs a b ys hspans hlt
    obtain ⟨before, gap, rest, -, -, ha, hb, hinside⟩ := exists_gap_of_spans_eq hspans
    refine hinside ?_
    rintro rfl
    simp only [ha, hb, byteLength] at hlt
    omega
  case length_le =>
    calc (Lexing.ofSource source).spans.length
        = (Lexing.ofSource source).lexemes.length := Lexing.length_spansFrom ..
      _ ≤ source.toList.length := length_lexemes_le ..
      _ ≤ byteLength source.toList := length_le_byteLength _
      _ = source.utf8ByteSize := byteLength_toList source
  case reread =>
    intro t s hmem
    obtain ⟨before, l, mode, cs, mode', rest, hstep, rfl, rfl, hchars⟩ :=
      exists_step_of_mem_spans hmem
    obtain ⟨rfl, -⟩ := gap_of_step hstep
    refine ⟨String.ofList l.chars, ?_, ?_⟩
    · rw [Lexeme.spanFrom, ← byteLength_append, Span.bytes_eq hchars]
    · rw [String.toList_ofList]
      exact lexemes_lex_chars hstep

/-- Text of more than one byte a character, a string of such text, and blanks inside a tag. -/
theorem tiles_of_accents : Tiles "é\x7b$= \"ü\" $\x7d"
    [(.text "é", ⟨0, 2⟩), (.tagOpen, ⟨2, 4⟩), (.echo, ⟨4, 5⟩), (.string "ü", ⟨6, 10⟩),
      (.tagClose, ⟨11, 13⟩)] :=
  tiles_of_tokenizeWithSpans (by cbv)

end TagTemplate
