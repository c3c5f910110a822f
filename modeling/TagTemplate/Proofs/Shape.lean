import TagTemplate.Proofs.Stream
import Mathlib.Computability.Language
import Mathlib.Tactic

/-!
# The shape of token streams

The tokens of a template alternate between two modes: a run of text or none, a tag from its opener
to its closing mark, and so on, with a run of text or none at the end. `templateShape` says so as a
regular language. That tokens have this shape is what allows a parser to take text for text and tags
for tags without looking back.

The proof follows the steps of the lexer. What is read from text mode has the shape itself, what is
read from tag mode has the shape of the rest of a tag and something behind it (`shapeFrom`), and a
run that has not come to its end lacks at most the closing mark (`Steps.mem_shapeFrom`). Where a
step takes a run of text, the next one does not, since text is read up to where it ends.

## Main results

* `Steps.insideTag_iff`: a run ends in tag mode exactly if its tokens end inside a tag.
* `Steps.mem_shapeFrom`: the shape of runs.
* `tokens_shape`: the shape of the tokens of a source, and of those in front of an error.
-/

open Computability

namespace TagTemplate

/-! ### Inside of tags -/

/-- Tokens that end inside a tag: behind an opener, and not behind the mark that closes it. -/
def InsideTag (ts : List Token) : Prop :=
  ∃ before inside, ts = before ++ .tagOpen :: inside ∧ .tagClose ∉ inside

/-- One token more: an opener leads into a tag, a closing mark leads out of it, and nothing else
leads anywhere. -/
theorem insideTag_concat {ts : List Token} {t : Token} :
    InsideTag (ts ++ [t]) ↔ t = .tagOpen ∨ (t ≠ .tagClose ∧ InsideTag ts) := by
  constructor
  · rintro ⟨before, inside, heq, hclose⟩
    rcases List.eq_nil_or_concat' inside with rfl | ⟨inside, u, rfl⟩
    · obtain ⟨-, ht⟩ := List.append_inj' heq rfl
      exact Or.inl (List.singleton_inj.mp ht)
    · rw [← List.cons_append, ← List.append_assoc] at heq
      obtain ⟨rfl, ht⟩ := List.append_inj' heq rfl
      obtain rfl := List.singleton_inj.mp ht
      simp only [List.mem_append, List.mem_singleton, not_or] at hclose
      exact Or.inr ⟨fun h => hclose.2 h.symm, before, inside, rfl, hclose.1⟩
  · rintro (rfl | ⟨hne, before, inside, rfl, hclose⟩)
    · exact ⟨ts, [], rfl, by simp⟩
    · refine ⟨before, inside ++ [t], by simp, ?_⟩
      simp [hclose, hne.symm]

/-- A run that begins inside a tag or outside, as its mode says, ends so. -/
theorem Steps.insideTag_append_iff {mode last : Mode} {cs final : List Char} {ts : List Token}
    (h : Steps mode cs ts last final) {before : List Token}
    (hbefore : InsideTag before ↔ mode = .tag) : InsideTag (before ++ ts) ↔ last = .tag := by
  induction h generalizing before with
  | refl => simpa using hbefore
  | @token mode mode' last cs rest final l ts hstep _ ih =>
      have hmode' : InsideTag (before ++ [l.token]) ↔ mode' = .tag := by
        rw [insideTag_concat, hbefore]
        rcases token_cases_of_step hstep with
          ⟨rfl, rfl, ht⟩ | ⟨rfl, rfl, -, content, ht, -⟩ | ⟨rfl, rfl, ht, -⟩
        · simp [ht]
        · simp [ht]
        · cases hl : l.token <;> simp_all [modeAfter, Token.isTagContent]
      have hrun := ih hmode'
      rwa [List.append_assoc, List.singleton_append] at hrun

/-- **Runs end inside a tag exactly if they end in tag mode.** -/
theorem Steps.insideTag_iff {last : Mode} {cs final : List Char} {ts : List Token}
    (h : Steps .text cs ts last final) : InsideTag ts ↔ last = .tag := by
  have hbefore : InsideTag [] ↔ Mode.text = .tag := by simp [InsideTag]
  simpa using h.insideTag_append_iff hbefore

/-! ### The shape -/

/-- A run of text, which is not empty. -/
def textRun : Language Token := {w | ∃ content, content ≠ "" ∧ w = [.text content]}

/-- Something inside a tag, the closing mark excepted. -/
def tagInside : Language Token := {w | ∃ t, t.isTagContent = true ∧ t ≠ .tagClose ∧ w = [t]}

/-- The rest of a tag, from inside of it up to its closing mark. -/
def tagRest : Language Token := tagInside∗ * {[.tagClose]}

/-- A tag from its opener to its closing mark. -/
def tagShape : Language Token := {[.tagOpen]} * tagRest

/-- **The shape of templates**: tags with text in front of them or without, and text or nothing at
the end. -/
def templateShape : Language Token := ((1 + textRun) * tagShape)∗ * (1 + textRun)

/-- The shape of what is read from a mode on. -/
def shapeFrom : Mode → Language Token
  | .text => templateShape
  | .tag => tagRest * templateShape

/-- What is missing at the end of tokens that end in a mode. -/
def closing : Mode → List Token
  | .text => []
  | .tag => [.tagClose]

/-- Nothing is a template. -/
theorem nil_mem_templateShape : [] ∈ templateShape :=
  Language.mem_mul.mpr ⟨[], Language.nil_mem_kstar _, [], Or.inl rfl, rfl⟩

/-- One word more in front of words of a language. -/
theorem append_mem_kstar {L : Language Token} {u w : List Token} (hu : u ∈ L) (hw : w ∈ L∗) :
    u ++ w ∈ L∗ := by
  have hle : L * L∗ ≤ L∗ := mul_kstar_le_kstar
  exact hle (Language.append_mem_mul hu hw)

/-- A tag in front of a template, with text in front of it or not. -/
theorem append_mem_templateShape {u w : List Token} (hu : u ∈ 1 + textRun)
    (hw : w ∈ tagShape * templateShape) : u ++ w ∈ templateShape := by
  obtain ⟨tag, htag, more, hmore, rfl⟩ := Language.mem_mul.mp hw
  obtain ⟨tags, htags, text, htext, rfl⟩ := Language.mem_mul.mp hmore
  have htagged : u ++ tag ∈ (1 + textRun) * tagShape := Language.append_mem_mul hu htag
  have hshape := Language.append_mem_mul (append_mem_kstar htagged htags) htext
  rwa [List.append_assoc, List.append_assoc] at hshape

/-- A tag in front of a template. -/
theorem mem_templateShape_of_tag {w : List Token} (h : w ∈ tagShape * templateShape) :
    w ∈ templateShape :=
  append_mem_templateShape (Or.inl rfl) h

/-- A run of text in front of a tag and more, or in front of nothing. -/
theorem text_cons_mem_templateShape {content : String} (hne : content ≠ "") {w : List Token}
    (h : w ∈ 1 + tagShape * templateShape) : .text content :: w ∈ templateShape := by
  have htext : [.text content] ∈ 1 + textRun := Or.inr ⟨content, hne, rfl⟩
  rcases h with hnil | hmore
  · obtain rfl : w = [] := hnil
    exact Language.append_mem_mul (Language.nil_mem_kstar _) htext
  · exact append_mem_templateShape htext hmore

/-- The opener of a tag in front of the rest of the tag. -/
theorem tagOpen_cons_mem {w : List Token} (h : w ∈ tagRest * templateShape) :
    .tagOpen :: w ∈ tagShape * templateShape := by
  rw [tagShape, mul_assoc]
  exact Language.append_mem_mul (show [.tagOpen] ∈ ({[.tagOpen]} : Language Token) from rfl) h

/-- The closing mark in front of a template. -/
theorem tagClose_cons_mem {w : List Token} (h : w ∈ templateShape) :
    .tagClose :: w ∈ tagRest * templateShape := by
  have hclose : [] ++ [.tagClose] ∈ tagRest :=
    Language.append_mem_mul (Language.nil_mem_kstar _) rfl
  exact Language.append_mem_mul hclose h

/-- Something in a tag in front of the rest of the tag. -/
theorem inside_cons_mem {t : Token} (ht : t.isTagContent = true) (hne : t ≠ .tagClose)
    {w : List Token} (h : w ∈ tagRest * templateShape) : t :: w ∈ tagRest * templateShape := by
  obtain ⟨rest, hrest, more, hmore, rfl⟩ := Language.mem_mul.mp h
  obtain ⟨inside, hinside, closer, hcloser, rfl⟩ := Language.mem_mul.mp hrest
  have hfirst : [t] ∈ tagInside := ⟨t, ht, hne, rfl⟩
  have hlonger := Language.append_mem_mul (append_mem_kstar hfirst hinside) hcloser
  exact Language.append_mem_mul hlonger hmore

/-! ### The shape of runs -/

/-- **The shape of runs.** What a run hands out, with the closing mark that it may lack, has the
shape that belongs to its mode; from where text ends it does not begin with text. -/
theorem Steps.mem_shapeFrom {mode last : Mode} {cs final : List Char} {ts : List Token}
    (h : Steps mode cs ts last final) :
    ts ++ closing last ∈ shapeFrom mode ∧
      (mode = .text → Escaped.Ends cs → ts ++ closing last ∈ 1 + tagShape * templateShape) := by
  induction h with
  | @refl mode cs =>
      cases mode with
      | text => exact ⟨nil_mem_templateShape, fun _ _ => Or.inl rfl⟩
      | tag => exact ⟨tagClose_cons_mem nil_mem_templateShape, nofun⟩
  | @token mode mode' last cs rest final l ts hstep _ ih =>
      rcases token_cases_of_step hstep with
        ⟨rfl, rfl, ht⟩ | ⟨rfl, rfl, hends, content, ht, hne⟩ | ⟨rfl, rfl, ht, -⟩
      · -- a tag begins
        have htag := tagOpen_cons_mem ih.1
        rw [ht]
        exact ⟨mem_templateShape_of_tag htag, fun _ _ => Or.inr htag⟩
      · -- text, behind which no text follows; it does not begin where text ends
        rw [ht]
        refine ⟨text_cons_mem_templateShape hne (ih.2 rfl hends), fun _ hcs => ?_⟩
        rcases hcs with rfl | ⟨r, rfl⟩ <;> cases hstep
      · refine ⟨?_, nofun⟩
        by_cases hclose : l.token = .tagClose
        · rw [hclose] at ih ⊢
          exact tagClose_cons_mem ih.1
        · have hmode : modeAfter l.token = .tag := by
            cases hl : l.token <;> simp_all [modeAfter]
          rw [hmode] at ih
          exact inside_cons_mem ht hclose ih.1

/-! ### Marks -/

/-- Whether a token is one of the marks around a tag. -/
def Token.isMark : Token → Bool
  | .tagOpen | .tagClose => true
  | _ => false

/-- There are no marks in text. -/
theorem filter_isMark_of_mem_text {w : List Token} (h : w ∈ 1 + textRun) :
    w.filter Token.isMark = [] := by
  rcases h with hnil | ⟨content, -, rfl⟩
  · obtain rfl : w = [] := hnil
    rfl
  · rfl

/-- There are no marks inside a tag. -/
theorem filter_isMark_of_mem_inside {w : List Token} (h : w ∈ tagInside∗) :
    w.filter Token.isMark = [] := by
  obtain ⟨parts, rfl, hparts⟩ := Language.mem_kstar.mp h
  rw [List.filter_eq_nil_iff]
  intro t ht
  obtain ⟨part, hpart, hmem⟩ := List.mem_flatten.mp ht
  obtain ⟨u, hu, hclose, rfl⟩ := hparts part hpart
  obtain rfl := List.mem_singleton.mp hmem
  cases t <;> simp_all [Token.isTagContent, Token.isMark]

/-- Around a tag there are two marks. -/
theorem filter_isMark_of_mem_tag {w : List Token} (h : w ∈ (1 + textRun) * tagShape) :
    w.filter Token.isMark = [.tagOpen, .tagClose] := by
  obtain ⟨text, htext, tag, htag, rfl⟩ := Language.mem_mul.mp h
  obtain ⟨opener, hopen, rest, hrest, rfl⟩ := Language.mem_mul.mp htag
  obtain ⟨inside, hinside, closer, hclose, rfl⟩ := Language.mem_mul.mp hrest
  obtain rfl : opener = [.tagOpen] := hopen
  obtain rfl : closer = [.tagClose] := hclose
  simp only [List.filter_append, filter_isMark_of_mem_text htext,
    filter_isMark_of_mem_inside hinside]
  rfl

/-- **The marks of a template alternate**, beginning with an opener and ending with a closing
mark. -/
theorem exists_filter_isMark_eq {w : List Token} (h : w ∈ templateShape) :
    ∃ n, w.filter Token.isMark = (List.replicate n [.tagOpen, .tagClose]).flatten := by
  obtain ⟨tags, htags, text, htext, rfl⟩ := Language.mem_mul.mp h
  obtain ⟨parts, rfl, hparts⟩ := Language.mem_kstar.mp htags
  refine ⟨parts.length, ?_⟩
  have hmarks : parts.map (List.filter Token.isMark) =
      List.replicate parts.length [.tagOpen, .tagClose] := by
    rw [List.eq_replicate_iff]
    refine ⟨List.length_map .., fun w hw => ?_⟩
    obtain ⟨part, hpart, rfl⟩ := List.mem_map.mp hw
    exact filter_isMark_of_mem_tag (hparts part hpart)
  rw [List.filter_append, filter_isMark_of_mem_text htext, List.append_nil, List.filter_flatten,
    hmarks]

/-! ### Whole sources -/

/-- A source with tokens has the shape of a template. -/
theorem Reads.mem_templateShape {source : String} {ts : List Token}
    (h : Reads .text source.toList ts) : ts ∈ templateShape ∧ ¬ InsideTag ts := by
  obtain ⟨rfl, hfault⟩ := h
  obtain ⟨last, rest, hsteps, -, hlast⟩ := exists_steps_lex .text source.toList
  obtain ⟨rfl, -⟩ := hlast hfault
  have hshape := hsteps.mem_shapeFrom.1
  rw [closing, List.append_nil] at hshape
  exact ⟨hshape, by simp [hsteps.insideTag_iff]⟩

/-- **The shape of tokens.** The tokens of a source have the shape of a template: no two runs of text
are neighbours, the marks of tags alternate, and no tag is left open. If there is an error, what a
lexer hands out in front of it is the beginning of a template. -/
theorem tokens_shape (source : String) :
    (∀ ts, tokenize source = .ok ts →
      ts ∈ templateShape ∧ .eof ∉ ts ∧ ts.IsChain Token.Apart ∧
      (∃ n, ts.filter Token.isMark = (List.replicate n [.tagOpen, .tagClose]).flatten) ∧
      ¬ InsideTag ts) ∧
    ∀ e, tokenize source = .error e → ∃ ts more,
      ((Lexer.ofSource source).run (List.replicate (ts.length + 1) .next)).1 =
        ts.map (fun t => .next (.ok t)) ++ [.next (.error e)] ∧
      ts ++ more ∈ templateShape ∧ .eof ∉ ts ∧ ts.IsChain Token.Apart := by
  refine ⟨fun ts h => ?_, fun e h => ?_⟩
  · have hreads := tokenize_eq_ok_iff.mp h
    obtain ⟨hshape, hinside⟩ := hreads.mem_templateShape
    obtain ⟨rfl, -⟩ := hreads
    exact ⟨hshape, eof_notMem_tokens_lex _ _, isChain_tokens_lex _ _,
      exists_filter_isMark_eq hshape, hinside⟩
  · obtain ⟨last, rest, hsteps, -, -⟩ := exists_steps_lex .text source.toList
    exact ⟨(Lexing.ofSource source).tokens, closing last,
      Lexer.run_of_error (tokenize_eq_error_iff.mp h), hsteps.mem_shapeFrom.1,
      eof_notMem_tokens_lex _ _, isChain_tokens_lex _ _⟩

/-- Text and a tag, and the same with the tag left open. -/
theorem tokens_shape_of_echo :
    [.text "a", .tagOpen, .echo, .tagClose] ∈ templateShape ∧
    ∃ ts more,
      ((Lexer.ofSource "a\x7b$=").run (List.replicate (ts.length + 1) .next)).1 =
        ts.map (fun t => .next (.ok t)) ++ [.next (.error ⟨.unterminatedTag, 4⟩)] ∧
      ts ++ more ∈ templateShape ∧ .eof ∉ ts ∧ ts.IsChain Token.Apart := by
  have hclosed := (tokens_shape "a\x7b$=$\x7d").1 _ (by cbv)
  exact ⟨hclosed.1, (tokens_shape "a\x7b$=").2 _ (by cbv)⟩

end TagTemplate
