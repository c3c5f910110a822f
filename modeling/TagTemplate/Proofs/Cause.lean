import TagTemplate.Proofs.Numeral
import TagTemplate.Proofs.Quoted
import TagTemplate.Proofs.Tiling

/-!
# Errors point at their cause

Where a source is refused, its error says what is wrong and where. The place is the offset of some
character, or the end of the source, and what stands there is the cause (`Cause`): it is said by
the input from there on and by the mode alone, without the reader. A backslash in text escapes
nothing, a string goes wrong behind its opening quote, digits and points are no number, a character
begins nothing that a tag can hold, or the source ends inside of a tag.

One step is refused exactly in front of a cause, behind blanks or behind a run of text
(`step_eq_fault_iff`), so there is one cause at most. A source with an error is a run that hands out
its tokens, and one step more that is refused (`exists_steps_of_fault`). The run says which tokens
there are in front of the cause, and whether they end inside a tag.

## Main results

* `noMatch_tag_iff`: where no pattern of a tag fits.
* `step_eq_fault_iff`: which steps are refused.
* `points_at_cause`: what stands at the offset of an error.
-/

namespace TagTemplate

/-! ### Causes -/

/-- **A character that begins nothing** a tag can hold, in front of some input. -/
structure BeginsNothing (c : Char) (rest : List Char) : Prop where
  /-- It begins no name. -/
  letter : ¬ IsLetter c
  /-- It begins no number with a digit. -/
  digit : ¬ IsDigit c
  /-- It is no point, no mark of its own and no operator. -/
  mark : c ∉ ['.', '=', '"', '+', '-', '*', '/', '^']
  /-- If it is a dollar sign, it does not close the tag. -/
  close : c = '$' → rest.head? ≠ some '}'
  /-- If it is an at sign, there is no name behind it. -/
  function : c = '@' → ∀ d ∈ rest.head?, ¬ IsLetter d

/-- **What is wrong where an error points**, by the mode and the input from there on. -/
inductive Cause : Mode → List Char → LexFault → Prop
  /-- In text, a backslash in front of neither a backslash nor an opening brace. -/
  | escape {rest : List Char} : rest.head? ≠ some '\\' → rest.head? ≠ some '{' →
      Cause .text ('\\' :: rest) .invalidEscape
  /-- In a tag, the opening quote of a body that goes wrong. -/
  | string {text body rest : List Char} {fault : LexFault} : Quoted.Spells text body →
      Quoted.Stops rest fault → Cause .tag ('"' :: (body ++ rest)) fault
  /-- A number lexeme that does not go on and is no number. -/
  | number {lexeme rest : List Char} : Numeral.IsLexeme lexeme →
      (∀ d ∈ rest.head?, Numeral.isPart d = false) → ¬ Numeral.IsNumber lexeme →
      Cause .tag (lexeme ++ rest) .malformedNumber
  /-- A character that is no blank and begins nothing. -/
  | unexpected {c : Char} {rest : List Char} : isBlank c = false → BeginsNothing c rest →
      Cause .tag (c :: rest) .unexpectedCharacter
  /-- The end of the source. -/
  | ended : Cause .tag [] .unterminatedTag

/-- **What is passed over** on the way to a fault: blanks in a tag, and a run of text in text. -/
def Passes : Mode → List Char → List Char → Prop
  | .tag, passed, _ => ∀ c ∈ passed, isBlank c = true
  | .text, passed, rest => ∃ value, TextRun (passed ++ rest) value passed rest

/-! ### Steps that are refused -/

/-- **Where no pattern of a tag fits** there is a character that begins nothing. -/
theorem noMatch_tag_iff {c : Char} {rest : List Char} :
    NoMatch TagPattern.language (c :: rest) ↔ BeginsNothing c rest := by
  constructor
  · intro h
    have hone (p : TagPattern) : [c] ∉ p.language := h p [c] (by simp) ⟨rest, rfl⟩
    have htwo (p : TagPattern) {d : Char} (hd : d ∈ rest.head?) : [c, d] ∉ p.language := by
      obtain ⟨more, rfl⟩ := List.head?_eq_some_iff.mp hd
      exact h p [c, d] (by simp) ⟨more, rfl⟩
    have hword {d : Char} (hd : IsLetter d) : [d] ∈ wordPattern :=
      mem_oneOf_mul_kstar.mpr ⟨d, [], rfl, hd, by simp⟩
    constructor
    case letter => exact fun hc => hone .name (hword hc)
    case digit =>
      exact fun hc => hone .digits (mem_numberPattern_iff.mpr ⟨false, c, [], rfl, hc, by simp⟩)
    case mark =>
      intro hc
      simp only [List.mem_cons, List.not_mem_nil, or_false] at hc
      rcases hc with rfl | rfl | rfl | hop
      · exact hone .point (mem_numberPattern_iff.mpr ⟨false, '.', [], rfl, rfl, by simp⟩)
      · exact hone .echo rfl
      · exact hone .quote rfl
      · exact hone .operator ⟨c, by simpa using hop, rfl⟩
    case close =>
      rintro rfl hclose
      exact htwo .close hclose rfl
    case function =>
      rintro rfl d hd hletter
      exact htwo .function hd
        (mem_function_iff.mpr ⟨[d], rfl, mem_wordPattern_iff.mp (hword hletter)⟩)
  · rintro h p w hne ⟨more, happend⟩ hmem
    cases p with
    | close =>
        obtain rfl := hmem
        obtain ⟨rfl, rfl⟩ := List.cons.inj happend
        exact h.close rfl rfl
    | echo | quote =>
        obtain rfl := hmem
        obtain ⟨rfl, -⟩ := List.cons.inj happend
        exact h.mark (by simp)
    | name =>
        obtain ⟨d, ds, rfl, hd, -⟩ := mem_oneOf_mul_kstar.mp hmem
        obtain ⟨rfl, -⟩ := List.cons.inj happend
        exact h.letter hd
    | function =>
        obtain ⟨v, rfl, hname⟩ := mem_function_iff.mp hmem
        obtain ⟨d, ds, rfl, hd, -⟩ := mem_oneOf_mul_kstar.mp (mem_wordPattern_iff.mpr hname)
        obtain ⟨rfl, rfl⟩ := List.cons.inj happend
        exact h.function rfl d rfl hd
    | digits =>
        obtain ⟨negative, d, ds, rfl, hd, -⟩ := mem_numberPattern_iff.mp hmem
        cases negative with
        | true =>
            obtain ⟨rfl, -⟩ := List.cons.inj happend
            exact h.mark (by simp)
        | false =>
            obtain ⟨rfl, -⟩ := List.cons.inj happend
            exact h.digit hd
    | point =>
        obtain ⟨negative, d, ds, rfl, rfl, -⟩ := mem_numberPattern_iff.mp hmem
        cases negative <;>
        · obtain ⟨rfl, -⟩ := List.cons.inj happend
          exact h.mark (by simp)
    | operator =>
        obtain ⟨d, hd, rfl⟩ := hmem
        obtain ⟨rfl, -⟩ := List.cons.inj happend
        exact h.mark (by simp [hd])

/-- A number lexeme does not begin with a blank. -/
theorem Numeral.IsLexeme.isBlank_head {lexeme : List Char} (h : IsLexeme lexeme)
    (rest : List Char) : ∀ c ∈ (lexeme ++ rest).head?, isBlank c = false := by
  obtain ⟨negative, d, ds, rfl, hall⟩ := isLexeme_iff.mp h
  intro c hc
  rw [Bool.eq_false_iff]
  intro hblank
  cases negative with
  | true =>
      cases hc
      cases hblank
  | false =>
      cases hc
      have hpart := isPart_of_isBlank hblank
      rw [hall d (by simp)] at hpart
      cases hpart

/-- A cause does not begin with a blank. -/
theorem Cause.isBlank_head {rest : List Char} {fault : LexFault} (h : Cause .tag rest fault) :
    ∀ c ∈ rest.head?, isBlank c = false := by
  cases h with
  | string =>
      intro c hc
      cases hc
      rfl
  | number hlexeme => exact hlexeme.isBlank_head _
  | unexpected hblank =>
      intro c hc
      cases hc
      exact hblank
  | ended => simp

/-- Scanning in front of a cause is refused. -/
theorem Cause.scanTag_eq {rest : List Char} {fault : LexFault} (h : Cause .tag rest fault) :
    scanTag rest = .error fault := by
  cases h with
  | string hspells hstops =>
      simp [scanTag, hspells.scan_append_of_stops hstops, Except.map]
  | number hlexeme hends hnumber =>
      rw [hlexeme.scanTag_append hends, Numeral.read?_eq_none_iff.mpr hnumber]
      rfl
  | unexpected _ hnothing => exact scanTag_of_noMatch (by simp) (noMatch_tag_iff.mpr hnothing)
  | ended => rfl

/-- **A step is refused in front of a cause.** -/
theorem Cause.step_eq {mode : Mode} {passed rest : List Char} {fault : LexFault}
    (h : Cause mode rest fault) (hpasses : Passes mode passed rest) :
    step mode (passed ++ rest) = .fault passed fault := by
  cases mode with
  | tag => exact step_tag_of_scanTag_eq_error hpasses h.isBlank_head h.scanTag_eq
  | text =>
      obtain ⟨value, hrun⟩ := hpasses
      cases h with
      | escape hback hbrace =>
          have hnone := (noMatch_text_iff (by simp)).mpr ⟨_, rfl, hback, hbrace⟩
          exact (PatternStep.invalid hrun (by simp) hnone).step_eq

/-- What is refused at a longest match in a tag has its cause there. -/
theorem TagPattern.Yields.cause {cs lexeme rest : List Char} {p : TagPattern} {fault : LexFault}
    (h : p.Yields rest lexeme (.error fault))
    (hmatch : LongestMatch TagPattern.language cs p lexeme rest) : Cause .tag cs fault := by
  have hmem := hmatch.mem
  rw [← hmatch.append]
  cases h with
  | malformed hp hread =>
      refine .number ?_ (hmatch.isPart_of_number hp) (Numeral.read?_eq_none_iff.mp hread)
      rcases hp with rfl | rfl
      · exact Or.inl hmem
      · exact Or.inr hmem
  | badString hs =>
      obtain rfl := hmem
      obtain ⟨text, body, rest, hspells, hstops, rfl⟩ := Quoted.scan_eq_error_iff.mp hs
      rw [List.singleton_append]
      exact .string hspells hstops

/-- **Which steps are refused**: those in front of a cause. -/
theorem step_eq_fault_iff {mode : Mode} {cs passed : List Char} {fault : LexFault} :
    step mode cs = .fault passed fault ↔
      ∃ rest, cs = passed ++ rest ∧ Passes mode passed rest ∧ Cause mode rest fault := by
  constructor
  · intro h
    obtain ⟨s, hs⟩ := exists_patternStep mode cs
    obtain rfl : s = .fault passed fault := hs.step_eq.symm.trans h
    have hsplit := (List.takeWhile_append_dropWhile (p := (· ∈ blanks)) (l := cs)).symm
    have hblanks : ∀ c ∈ cs.takeWhile (· ∈ blanks), isBlank c = true := by
      intro c hc
      simpa [isBlank_eq] using List.mem_takeWhile_imp hc
    cases hs with
    | refused hmatch hyields => exact ⟨_, hsplit, hblanks, hyields.cause hmatch⟩
    | unterminated hnil =>
        rw [hnil] at hsplit
        exact ⟨[], hsplit, hblanks, .ended⟩
    | unexpected hne hnone =>
        obtain ⟨c, rest, hrest⟩ := List.exists_cons_of_ne_nil hne
        have hblank : isBlank c = false := by
          rw [isBlank_eq]
          exact eq_false_of_mem_head?_dropWhile (by rw [hrest]; rfl)
        rw [hrest] at hsplit hnone
        exact ⟨c :: rest, hsplit, hblanks, .unexpected hblank (noMatch_tag_iff.mp hnone)⟩
    | @invalid _ value _ rest hrun hne hnone =>
        obtain ⟨more, rfl, hback, hbrace⟩ := (noMatch_text_iff hne).mp hnone
        refine ⟨_, hrun.append.symm, ⟨value, ?_⟩, .escape hback hbrace⟩
        rwa [hrun.append]
  · rintro ⟨rest, rfl, hpasses, hcause⟩
    exact hcause.step_eq hpasses

/-- One input has one cause at most. -/
theorem Cause.unique {mode : Mode} {rest : List Char} {fault fault' : LexFault}
    (h : Cause mode rest fault) (h' : Cause mode rest fault') : fault = fault' := by
  have hpasses : Passes mode [] rest := by
    cases mode with
    | tag => simp [Passes]
    | text => exact ⟨[], .nil⟩
  have hstep := h.step_eq hpasses
  rw [h'.step_eq hpasses] at hstep
  cases hstep
  rfl

/-! ### Sources -/

/-- The error of a reading is its fault, at the offset of what stands behind the characters passed
over. -/
theorem Lexing.exists_fault_of_error? {l : Lexing} {e : LexError} (h : l.error? = some e) :
    ∃ passed, l.fault = some (passed, e.fault) ∧
      e.offset = byteLength (charsOf l.lexemes ++ passed) := by
  obtain ⟨⟨passed, fault⟩, hfault, rfl⟩ := Option.map_eq_some_iff.mp h
  exact ⟨passed, hfault, rfl⟩

/-- A reading with a fault is a run that hands out its tokens, and a step that is refused. -/
theorem exists_steps_of_fault {mode : Mode} {cs passed : List Char} {fault : LexFault}
    (h : (lex mode cs).fault = some (passed, fault)) :
    ∃ last rest, Steps mode cs (lex mode cs).tokens last rest ∧
      Lexing.charsOf (lex mode cs).lexemes ++ rest = cs ∧
      step last rest = .fault passed fault := by
  obtain ⟨last, rest, hsteps, hlex, hchars⟩ :=
    exists_steps_of_lexemes_eq_append (List.append_nil (lex mode cs).lexemes).symm
  refine ⟨last, rest, hsteps, hchars, ?_⟩
  rcases step_of_lexemes_eq_nil (congrArg Lexing.lexemes hlex) with
    ⟨-, -, -, hnone⟩ | ⟨passed', fault', hstep, hsome⟩
  · rw [hlex, h] at hnone
    cases hnone
  · rw [hlex, h] at hsome
    cases hsome
    exact hstep

/-- The lexer hands out the tokens of a source one after the other, and none of them reaches beyond
the lexemes. -/
theorem Lexer.next_after_of_lt {source : String} {k : ℕ}
    (hk : k < (Lexing.ofSource source).tokens.length) :
    (after source k).next.1 = .ok (Lexing.ofSource source).tokens[k] ∧
      (after source (k + 1)).span.stop ≤
        byteLength (Lexing.charsOf (Lexing.ofSource source).lexemes) := by
  set ls := (Lexing.ofSource source).lexemes with hls
  have hk' : k < ls.length := by rwa [Lexing.tokens, List.length_map] at hk
  have hsplit : ls = ls.take k ++ ls[k] :: ls.drop (k + 1) := by simp
  have hstream := stream_of_lexemes_eq (hls.symm.trans hsplit)
  rw [List.length_take, Nat.min_eq_left hk'.le] at hstream
  refine ⟨?_, ?_⟩
  · rw [next_after_eq, hstream]
    simp [Except.map, Lexing.tokens, hls]
  · obtain ⟨⟨-, hspan⟩, -, -⟩ := after_succ_of_stream_eq_ok hstream
    have hchars : Lexing.charsOf ls =
        Lexing.charsOf (ls.take k ++ [ls[k]]) ++ Lexing.charsOf (ls.drop (k + 1)) := by
      rw [← Lexing.charsOf_append, List.append_assoc, List.singleton_append, ← hsplit]
    rw [hspan, ← Lexing.byteLength_charsOf_concat, hchars, byteLength_append]
    exact Nat.le_add_right _ _

/-- Behind the tokens the lexer hands out the error. -/
theorem Lexer.next_after_eq_error {source : String} {e : LexError}
    (h : (Lexing.ofSource source).error? = some e) :
    (after source (Lexing.ofSource source).tokens.length).next.1 = .error e := by
  have hcount : (Lexing.ofSource source).tokens.length = tokenCount source := List.length_map _
  rw [next_after_eq, hcount, stream_tokenCount, h]
  rfl

/-- **An error that points at its cause.** The source consists of what the tokens `ts` were read
from, of what was passed over in the mode behind them, and of the rest, at which the error points. -/
structure PointsAtCause (source : String) (e : LexError) (ts : List Token) (mode : Mode)
    (front passed rest : List Char) : Prop where
  /-- These are the parts of the source. -/
  append : front ++ passed ++ rest = source.toList
  /-- The error points behind what was passed over. -/
  offset : e.offset = byteLength (front ++ passed)
  /-- The tokens are handed out one after the other, and end in front of what was passed over. -/
  tokens : ∀ k (h : k < ts.length), (Lexer.after source k).next.1 = .ok ts[k] ∧
    (Lexer.after source (k + 1)).span.stop ≤ byteLength front
  /-- Then the error is handed out. -/
  error : (Lexer.after source ts.length).next.1 = .error e
  /-- The mode is that of tags if the tokens end inside a tag. -/
  insideTag_iff : InsideTag ts ↔ mode = .tag
  /-- Passed over are blanks or text. -/
  passes : Passes mode passed rest
  /-- There is the cause of this fault and of no other. -/
  cause_iff : ∀ fault, Cause mode rest fault ↔ fault = e.fault

/-- **Errors point at their cause.** -/
theorem points_at_cause {source : String} {e : LexError} (h : tokenize source = .error e) :
    e.offset ≤ source.utf8ByteSize ∧ String.Pos.Raw.IsValid source ⟨e.offset⟩ ∧
      ∃ ts mode front passed rest, PointsAtCause source e ts mode front passed rest := by
  have herror := tokenize_eq_error_iff.mp h
  obtain ⟨passed, hfault, hoffset⟩ := Lexing.exists_fault_of_error? herror
  obtain ⟨last, cs, hsteps, hchars, hstep⟩ := exists_steps_of_fault hfault
  obtain ⟨rest, rfl, hpasses, hcause⟩ := step_eq_fault_iff.mp hstep
  rw [← List.append_assoc] at hchars
  refine ⟨?_, ?_, (Lexing.ofSource source).tokens, last,
    Lexing.charsOf (Lexing.ofSource source).lexemes, passed, rest, ?_⟩
  · rw [hoffset, ← byteLength_toList, ← hchars, byteLength_append _ rest]
    exact Nat.le_add_right _ _
  · rw [hoffset]
    exact isValid_byteLength hchars
  · constructor
    case append => exact hchars
    case offset => exact hoffset
    case tokens => exact fun k hk => Lexer.next_after_of_lt hk
    case error => exact Lexer.next_after_eq_error herror
    case insideTag_iff => exact hsteps.insideTag_iff
    case passes => exact hpasses
    case cause_iff =>
      intro fault'
      constructor
      · intro hcause'
        exact hcause'.unique hcause
      · rintro rfl
        exact hcause

/-- A string with a bad escape, behind characters of more than one byte. -/
theorem points_at_cause_accents :
    tokenize "é\x7b$= \"ü\\q" = .error ⟨.invalidEscape, 6⟩ ∧
      ∃ ts mode front passed rest,
        PointsAtCause "é\x7b$= \"ü\\q" ⟨.invalidEscape, 6⟩ ts mode front passed rest := by
  have h : tokenize "é\x7b$= \"ü\\q" = .error ⟨.invalidEscape, 6⟩ := by cbv
  exact ⟨h, (points_at_cause h).2.2⟩

end TagTemplate
