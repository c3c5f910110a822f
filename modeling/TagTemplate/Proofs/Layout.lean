import TagTemplate.Proofs.Concatenation
import TagTemplate.Proofs.Lockstep

/-!
# The layout of tags

Between the tokens of a tag there may be any blanks, and the names of the tags of a loop may be
written in letters of either case. Neither matters: a source that is laid out otherwise has the same
tokens up to the case of these names, and the same document or the same error.

Blanks can be put between any two tokens of a tag, since none of the tokens goes on over one. They
must not be taken away altogether where there were some, since the tokens might then grow together.
What ends a lexeme in the new layout is thus a blank, or the same character as before
(`Layout.endsLike`), and the lexeme is found again in front of that (`step_gap_append`). Only the
head of a tag may begin with another character than before, but in front of it there is an opener,
which brings its own end along.

## Main results

* `step_gap_append`, `step_recased`: one step in the new layout.
* `Layout.exists_reads`: the tokens in the new layout.
* `Alike.resume`: what a parser makes of them.
* `layout_irrelevant`: sources that differ in layout.
-/

namespace TagTemplate

/-! ### Layouts -/

/-- The name of a tag of a loop, in letters of either case. -/
def Token.IsLoopWord (t : Token) : Prop :=
  ∃ name, t = .name name ∧ (name.matchesWord "FOR" = true ∨ name.matchesWord "END" = true)

/-- What may stand in front of a lexeme in place of its gap: blanks, of which there is at least one
where there has been one, and none where the lexeme does not stand in a tag. -/
structure Lexeme.AdmitsGap (l : Lexeme) (gap : List Char) : Prop where
  /-- It consists of blanks. -/
  isBlank : ∀ c ∈ gap, isBlank c = true
  /-- It is there where there has been a gap. -/
  ne_nil : l.gap ≠ [] → gap ≠ []
  /-- It is in a tag. -/
  eq_nil : l.token.isTagContent = false → gap = []

/-- What a lexeme may be written as: as it is, or, right behind an opener, with the letters of the
name of a loop's tag in either case. -/
inductive Lexeme.Spelling (l : Lexeme) : Bool → List Char → Prop
  | same {opened : Bool} : l.Spelling opened l.chars
  | recased {chars : List Char} : l.token.IsLoopWord →
      chars.map Char.toUpper = l.chars.map Char.toUpper → l.Spelling true chars

/-- **The layouts of lexemes**: the characters that they may be written with. The flag says whether
there is an opener right in front of them. -/
inductive Layout : Bool → List Lexeme → List Char → Prop
  | nil {opened : Bool} : Layout opened [] []
  | cons {opened : Bool} {l : Lexeme} {ls : List Lexeme} (gap chars : List Char) {cs : List Char} :
      l.AdmitsGap gap → l.Spelling opened chars → Layout (l.token == .tagOpen) ls cs →
      Layout opened (l :: ls) (gap ++ chars ++ cs)

/-- **Another layout of a source**: its lexemes are written with other gaps in its tags, and with
the names of the tags of loops in letters of another case. -/
def Relaid (s s' : String) : Prop := Layout false (Lexing.ofSource s).lexemes s'.toList

/-- The same tokens, but for the case of the letters in the names of the tags of loops. The flag
says whether there is an opener right in front of them. -/
inductive Alike : Bool → List Token → List Token → Prop
  | nil {opened : Bool} : Alike opened [] []
  | same {opened : Bool} (t : Token) {ts us : List Token} :
      Alike (t == .tagOpen) ts us → Alike opened (t :: ts) (t :: us)
  | recased {name name' : Identifier} {ts us : List Token} :
      (Token.name name).IsLoopWord →
      name'.text.toList.map Char.toUpper = name.text.toList.map Char.toUpper →
      Alike false ts us → Alike true (.name name :: ts) (.name name' :: us)

/-! ### Letters of either case -/

/-- The number of a letter in upper case. -/
theorem toNat_toUpper (c : Char) :
    c.toUpper.toNat = if 97 ≤ c.toNat ∧ c.toNat ≤ 122 then c.toNat - 32 else c.toNat := by
  have hval : c.val.toNat = c.toNat := rfl
  rw [Char.toUpper]
  split
  · rename_i h
    simp only [UInt32.le_iff_toNat_le, hval] at h
    have hlower : 97 ≤ c.toNat ∧ c.toNat ≤ 122 := h
    have hsum : (c.val + ('A'.val - 'a'.val)).toNat = c.toNat - 32 := by
      rw [UInt32.toNat_add, hval, show ('A'.val - 'a'.val).toNat = 2 ^ 32 - 32 from rfl]
      omega
    rw [if_pos hlower]
    exact hsum
  · rename_i h
    simp only [UInt32.le_iff_toNat_le, hval] at h
    have hlower : ¬ (97 ≤ c.toNat ∧ c.toNat ≤ 122) := h
    rw [if_neg hlower]

/-- Letters are letters in either case. -/
theorem isNameStart_toUpper (c : Char) : isNameStart c.toUpper = isNameStart c := by
  rw [Bool.eq_iff_iff, isNameStart, isNameStart, isAlpha_iff, isAlpha_iff, toNat_toUpper]
  split <;> omega

/-- The characters of names are so in either case. -/
theorem isNamePart_toUpper (c : Char) : isNamePart c.toUpper = isNamePart c := by
  have halpha : c.toUpper.isAlpha = c.isAlpha := isNameStart_toUpper c
  have hdigit : c.toUpper.isDigit = c.isDigit := by
    rw [Bool.eq_iff_iff, isDigit_iff, isDigit_iff, toNat_toUpper]
    split <;> omega
  have hline : (c.toUpper == '_') = (c == '_') := by
    rw [Bool.eq_iff_iff, beq_iff_eq, beq_iff_eq, ← Char.toNat_inj, ← Char.toNat_inj,
      toNat_toUpper, show '_'.toNat = 95 from rfl]
    split <;> omega
  rw [isNamePart, isNamePart, Char.isAlphanum, Char.isAlphanum, halpha, hdigit, hline]

/-- Names are names in either case. -/
theorem isName_map_toUpper (cs : List Char) : isName (cs.map Char.toUpper) = isName cs := by
  cases cs with
  | nil => rfl
  | cons c cs =>
      have hall : (cs.map Char.toUpper).all isNamePart = cs.all isNamePart := by
        rw [List.all_map]
        congr 1
        funext d
        exact isNamePart_toUpper d
      rw [List.map_cons, isName, isName, isNameStart_toUpper, hall]

/-- A name in letters of another case. -/
theorem Identifier.exists_recased (name : Identifier) {chars : List Char}
    (h : chars.map Char.toUpper = name.text.toList.map Char.toUpper) :
    ∃ name' : Identifier, name'.text.toList = chars := by
  have hname : isName chars = true := by
    rw [← isName_map_toUpper, h, isName_map_toUpper]
    exact name.isName_text
  exact ⟨⟨String.ofList chars, by rwa [String.toList_ofList]⟩, String.toList_ofList⟩

/-- Whether a name is a certain word is not a matter of case. -/
theorem Identifier.matchesWord_congr {name name' : Identifier}
    (h : name'.text.toList.map Char.toUpper = name.text.toList.map Char.toUpper) (word : String) :
    name'.matchesWord word = name.matchesWord word := by
  rw [Identifier.matchesWord, Identifier.matchesWord, h]

/-- Which tag a name is the name of is not a matter of case. -/
theorem Tag.ofHead?_congr {name name' : Identifier}
    (h : name'.text.toList.map Char.toUpper = name.text.toList.map Char.toUpper) :
    Tag.ofHead? (.name name') = Tag.ofHead? (.name name) := by
  simp only [Tag.ofHead?, Identifier.matchesWord_congr h]

/-! ### One step in another layout -/

/-- A name that is found in a tag is found up to what cannot go on in it. -/
theorem name_of_scanTag {cs : List Char} {f : Found} {name : Identifier}
    (h : scanTag cs = .ok f) (ht : f.token = .name name) :
    f.chars = name.text.toList ∧ ∀ c ∈ f.rest.head?, isNamePart c = false := by
  cases scansTag_of_eq h with
  | name hname =>
      cases ht
      exact ⟨rfl, Identifier.isNamePart_of_scan? hname⟩
  | @number _ _ _ v => cases v <;> cases ht
  | close | echo | string | function | operator => cases ht

/-- **A lexeme behind another gap** and in front of another input that ends it. -/
theorem step_gap_append {mode mode' : Mode} {cs rest rest' gap : List Char} {l : Lexeme}
    (h : step mode cs = .token l mode' rest) (hgap : l.AdmitsGap gap)
    (hrest : l.token.endsItself = true ∨ EndsLike rest rest')
    (htext : l.token.isText = true → Escaped.Ends rest') :
    step mode (gap ++ l.chars ++ rest') = .token ⟨gap, l.chars, l.token⟩ mode' rest' := by
  cases mode with
  | tag =>
      obtain ⟨f, hf, rfl, rfl, rfl⟩ := exists_found_of_step h
      rw [List.append_assoc]
      exact step_tag_of_scanTag hgap.isBlank (scanTag_chars_append hf hrest)
  | text =>
      have hne := (step_eq_append h).1
      rcases textStep_cases h with ⟨rfl, rfl, rfl⟩ | ⟨value, hscan, hl, rfl⟩
      · rw [hgap.eq_nil rfl]
        rfl
      · rw [hl] at htext hgap
        rw [hgap.eq_nil rfl, hl]
        exact textStep_chars_append hne hscan (htext rfl)

/-- **The head of a tag in letters of another case.** -/
theorem step_recased {mode mode' : Mode} {cs rest rest' gap chars : List Char} {l : Lexeme}
    {name : Identifier} (h : step mode cs = .token l mode' rest) (hgap : l.AdmitsGap gap)
    (ht : l.token = .name name) (hupper : chars.map Char.toUpper = l.chars.map Char.toUpper)
    (hrest : EndsLike rest rest') :
    ∃ name' : Identifier,
      name'.text.toList.map Char.toUpper = name.text.toList.map Char.toUpper ∧
      step mode (gap ++ chars ++ rest') = .token ⟨gap, chars, .name name'⟩ mode' rest' := by
  cases mode with
  | text =>
      have hcontent := (gap_of_step h).1
      rw [ht] at hcontent
      cases hcontent
  | tag =>
      obtain ⟨f, hf, rfl, rfl, rfl⟩ := exists_found_of_step h
      obtain ⟨hchars, hpart⟩ := name_of_scanTag hf ht
      replace ht : f.token = .name name := ht
      replace hupper : chars.map Char.toUpper = name.text.toList.map Char.toUpper := by
        rw [hupper, hchars]
      obtain ⟨name', rfl⟩ := name.exists_recased hupper
      have hscan := scanTag_name_append name'
        (hrest.not_part (fun _ => isNamePart_of_isBlank) hpart)
      refine ⟨name', hupper, ?_⟩
      rw [List.append_assoc, step_tag_of_scanTag hgap.isBlank hscan, ht]
      rfl

/-! ### Whole sources in another layout -/

section Readings

variable {mode : Mode} {ls : List Lexeme} {cs cs' : List Char}

/-- **What ends a lexeme** in another layout is a blank, or what it begins with itself. -/
theorem Layout.endsLike (h : Layout false ls cs')
    (hlex : lex mode cs = { lexemes := ls, fault := none }) : EndsLike cs cs' := by
  intro d hd
  cases h with
  | nil => cases hd
  | @cons _ l ls gap chars cs'' hgap hspelling _ =>
      obtain ⟨mode', rest, hstep, -⟩ :=
        exists_step_of_lexemes_eq_cons (congrArg Lexing.lexemes hlex)
      obtain ⟨hne, rfl⟩ := step_eq_append hstep
      cases hspelling
      cases gap with
      | cons c gap =>
          cases hd
          exact Or.inr (hgap.isBlank d (by simp))
      | nil =>
          have hnil : l.gap = [] := by
            by_contra hgap'
            exact hgap.ne_nil hgap' rfl
          rw [List.nil_append, List.head?_append_of_ne_nil _ hne] at hd
          rw [hnil, List.nil_append, List.head?_append_of_ne_nil _ hne]
          exact Or.inl hd

/-- Where text ends it does so in another layout. -/
theorem Layout.ends (h : Layout false ls cs')
    (hlex : lex .text cs = { lexemes := ls, fault := none }) (hends : Escaped.Ends cs) :
    Escaped.Ends cs' := by
  rcases hends with rfl | ⟨r, rfl⟩
  · rw [lex_of_finished rfl] at hlex
    cases hlex
    cases h
    exact Or.inl rfl
  · rw [lex_of_token rfl] at hlex
    obtain rfl : _ :: (lex .tag r).lexemes = ls := congrArg Lexing.lexemes hlex
    cases h with
    | cons gap chars hgap hspelling _ =>
        cases hspelling
        rw [hgap.eq_nil rfl]
        exact Or.inr ⟨_, rfl⟩

/-- **The tokens in another layout** are the same, but for the case of the names of the tags of
loops. The induction is on the lexemes, with what is left of the two sources in front of each. -/
theorem Layout.exists_reads {opened : Bool} (h : Layout opened ls cs')
    (hlex : lex mode cs = { lexemes := ls, fault := none }) :
    ∃ us, Reads mode cs' us ∧ Alike opened (ls.map Lexeme.token) us := by
  induction h generalizing mode cs with
  | nil =>
      rcases step_of_lexemes_eq_nil (congrArg Lexing.lexemes hlex) with
        ⟨rfl, -, -, -⟩ | ⟨passed, fault, -, hfault⟩
      · exact ⟨[], ⟨by rw [lex_of_finished rfl]; rfl, by rw [lex_of_finished rfl]⟩, .nil⟩
      · rw [hlex] at hfault
        cases hfault
  | @cons opened l ls gap chars cs'' hgap hspelling hlayout ih =>
      obtain ⟨mode', rest, hstep, hrest⟩ :=
        exists_step_of_lexemes_eq_cons (congrArg Lexing.lexemes hlex)
      rw [hlex] at hrest
      obtain ⟨us, hreads, halike⟩ := ih hrest
      have hends : l.token.endsItself = true ∨ EndsLike rest cs'' := by
        by_cases hopen : l.token = .tagOpen
        · exact Or.inl (by rw [hopen]; rfl)
        · rw [beq_false_of_ne hopen] at hlayout
          exact Or.inr (hlayout.endsLike hrest)
      cases hspelling with
      | same =>
          have htext : l.token.isText = true → Escaped.Ends cs'' := by
            intro htext
            rcases token_cases_of_step hstep with
              ⟨-, -, ht⟩ | ⟨-, rfl, hrest', content, ht, -⟩ | ⟨-, -, hcontent, -⟩
            · rw [ht] at htext
              cases htext
            · rw [ht] at hlayout
              exact hlayout.ends hrest hrest'
            · cases ht : l.token <;> simp_all [Token.isText, Token.isTagContent]
          have hnew := step_gap_append hstep hgap hends htext
          exact ⟨l.token :: us, (Steps.token hnew .refl).reads hreads, halike.same⟩
      | recased hword hupper =>
          obtain ⟨name, ht, hmatches⟩ := hword
          replace hends : EndsLike rest cs'' := hends.resolve_left (by simp [ht, Token.endsItself])
          obtain ⟨name', hname', hnew⟩ := step_recased hstep hgap ht hupper hends
          rw [ht] at halike
          refine ⟨.name name' :: us, (Steps.token hnew .refl).reads hreads, ?_⟩
          rw [List.map_cons, ht]
          exact halike.recased ⟨name, rfl, hmatches⟩ hname'

end Readings

/-! ### The parser -/

/-- Where a parser is right behind an opener. -/
theorem Control.eq_head_of_receive_tagOpen {c c' : Control} {b b' : Builder}
    (h : c.receive b .tagOpen = .more (c', b')) : c' = .head := by
  cases c with
  | outside =>
      cases h
      rfl
  | head | elements => cases h

/-- **Tokens that are alike** make no difference to a parser, which is at the head of a tag whenever
there is an opener right in front of them. -/
theorem Alike.resume {opened : Bool} {ts us : List Token} (h : Alike opened ts us) {c : Control}
    (hc : opened = true → c = .head) (b : Builder) (stop : Option LexError)
    (heof : .eof ∉ ts) : c.resume b stop us = c.resume b stop ts := by
  induction h generalizing c b with
  | nil => rfl
  | @same opened t ts us _ ih =>
      obtain ⟨ht, hts⟩ : t ≠ .eof ∧ .eof ∉ ts := by
        simpa [eq_comm] using heof
      rw [Control.resume_cons _ _ _ ht, Control.resume_cons _ _ _ ht]
      cases hreceive : c.receive b t with
      | done result => rfl
      | more next =>
          obtain ⟨c', b'⟩ := next
          refine ih (fun hopen => ?_) b' hts
          obtain rfl : t = .tagOpen := beq_iff_eq.mp hopen
          exact Control.eq_head_of_receive_tagOpen hreceive
  | @recased name name' ts us hword hupper _ ih =>
      obtain rfl := hc rfl
      have hts : .eof ∉ ts := fun hmem => heof (List.mem_cons_of_mem _ hmem)
      have hreceive :
          Control.head.receive b (.name name') = Control.head.receive b (.name name) := by
        rw [Control.receive, Control.receive, Tag.ofHead?_congr hupper]
        obtain ⟨_, ht, hmatches⟩ := hword
        cases ht
        rcases hmatches with henter | hleave
        · rw [Tag.ofHead?_enter henter]
        · rw [Tag.ofHead?_leave hleave]
      rw [Control.resume_cons _ _ _ (by simp), Control.resume_cons _ _ _ (by simp), hreceive]
      cases Control.head.receive b (.name name) with
      | done result => rfl
      | more next =>
          obtain ⟨c', b'⟩ := next
          exact ih (fun hopen => by cases hopen) b' hts

/-- **Layout does not matter**: a source that can be read and one that is laid out otherwise have
the same tokens, up to the case of the names of the tags of loops, and the same document or the same
error. -/
theorem layout_irrelevant (s s' : String) (ts : List (Token × Span))
    (h : tokenizeWithSpans s = .ok ts) (hlayout : Relaid s s') :
    (∃ us, tokenize s' = .ok us ∧ Alike false (ts.map Prod.fst) us) ∧ parse s' = parse s := by
  obtain ⟨herror, rfl⟩ := tokenizeWithSpans_eq_ok_iff.mp h
  have hlex : lex .text s.toList = { lexemes := (Lexing.ofSource s).lexemes, fault := none } := by
    have hfault : (lex .text s.toList).fault = none := Option.map_eq_none_iff.mp herror
    rw [← hfault]
    rfl
  obtain ⟨us, hreads, halike⟩ := Layout.exists_reads hlayout hlex
  have htokenize : tokenize s' = .ok us := tokenize_eq_ok_iff.mpr hreads
  refine ⟨⟨us, htokenize, ?_⟩, ?_⟩
  · rwa [Lexing.spans, Lexing.map_fst_spansFrom]
  · have heof : .eof ∉ (Lexing.ofSource s).tokens := eof_notMem_tokens_lex .text s.toList
    have herror' : (Lexing.ofSource s').error? = none := Option.map_eq_none_iff.mpr hreads.2
    have htokens : (Lexing.ofSource s').tokens = us := hreads.1
    have hresume := Alike.resume halike (c := .outside) (by simp) Builder.empty none heof
    simp only [parse, herror, herror', htokens, parseTokens_eq_parseFrom]
    exact hresume

/-- A sign that belongs to no number is set apart from one that does, in a tag with a bad
header. -/
theorem layout_irrelevant_signs :
    ∃ ts us, tokenizeWithSpans "a b\x7b$FOR i--5$\x7d" = .ok ts ∧
      tokenize "a b\x7b$\nfOr\ti - \r-5 $\x7d" = .ok us ∧ Alike false (ts.map Prod.fst) us ∧
      parse "a b\x7b$\nfOr\ti - \r-5 $\x7d" = parse "a b\x7b$FOR i--5$\x7d" := by
  have htokens : (tokenizeWithSpans "a b\x7b$FOR i--5$\x7d").isOk = true := by cbv
  have hlexemes : (Lexing.ofSource "a b\x7b$FOR i--5$\x7d").lexemes =
      [⟨[], "a b".toList, .text "a b"⟩, ⟨[], ['{', '$'], .tagOpen⟩,
        ⟨[], "FOR".toList, .name ⟨"FOR", by decide⟩⟩, ⟨[' '], ['i'], .name ⟨"i", by decide⟩⟩,
        ⟨[], ['-'], .operator .subtract⟩, ⟨[], "-5".toList, .integer (-5)⟩,
        ⟨[], ['$', '}'], .tagClose⟩] := by cbv
  have hrelaid : Relaid "a b\x7b$FOR i--5$\x7d" "a b\x7b$\nfOr\ti - \r-5 $\x7d" := by
    rw [Relaid, hlexemes]
    refine .cons [] "a b".toList ?_ .same (.cons [] ['{', '$'] ?_ .same
      (.cons ['\n'] "fOr".toList ?_ (.recased ⟨_, rfl, Or.inl (by decide)⟩ (by decide))
      (.cons ['\t'] ['i'] ?_ .same (.cons [' '] ['-'] ?_ .same
      (.cons [' ', '\r'] "-5".toList ?_ .same (.cons [' '] ['$', '}'] ?_ .same .nil))))))
    all_goals exact ⟨by simp [isBlank], by simp, by simp [Token.isTagContent]⟩
  obtain ⟨ts, hts⟩ : ∃ ts, tokenizeWithSpans "a b\x7b$FOR i--5$\x7d" = .ok ts := by
    cases h : tokenizeWithSpans "a b\x7b$FOR i--5$\x7d" with
    | error e =>
        rw [h] at htokens
        cases htokens
    | ok ts => exact ⟨ts, rfl⟩
  obtain ⟨⟨us, hus, halike⟩, hparse⟩ := layout_irrelevant _ _ ts hts hrelaid
  exact ⟨ts, us, hts, hus, halike, hparse⟩

end TagTemplate
