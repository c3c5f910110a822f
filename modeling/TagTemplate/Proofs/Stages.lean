import TagTemplate.Proofs.Grammar
import TagTemplate.View

/-!
# Stages agree on what is wrong

The tokens of a source are made all at once, or one after the other while its tree is put together.
In the second way a parser may stop at a tag that is wrong before the lexer comes to a fault further
on. Which of two faults is reported is a matter of their order in the source alone: an error of the
parser is either due where the tokens end, and then it is the fault of the lexer if there is one, or
it is found in the tokens, and then it stands whatever follows them
(`Builder.parseFrom_error_cases`).

Views are made from one stage or the other, and fail with the error of their stage and with no
other.

## Main results

* `Builder.parseFrom_error_cases`: where errors come from.
* `View.mem_available_of_ofName`: only views that there are have names.
* `stages_agree`: stages agree on what is wrong, and views with their stages.
-/

namespace TagTemplate

/-! ### Where errors come from -/

/-- An error that is due where the tokens end: the fault of the lexer, or else something that is
wrong with the end of the source. -/
def IsDue (stop : Option LexError) (e : ParseError) : Prop :=
  ∃ atEnd : ParseError, atEnd.isLexical = false ∧ e = errorAtEnd stop atEnd

/-- Where the lexer has stopped, its fault is due and nothing else. -/
theorem IsDue.eq_lexical {le : LexError} {e : ParseError} (h : IsDue (some le) e) :
    e = .lexical le := by
  obtain ⟨atEnd, -, rfl⟩ := h
  rfl

/-- Only where the lexer has stopped a fault of the lexer is due. -/
theorem IsDue.exists_stop_eq {stop : Option LexError} {e : ParseError} (h : IsDue stop e)
    (hlexical : e.isLexical = true) : ∃ le, stop = some le ∧ e = .lexical le := by
  cases stop with
  | some le => exact ⟨le, rfl, h.eq_lexical⟩
  | none =>
      obtain ⟨atEnd, hatEnd, heq⟩ := h
      have hfalse : e.isLexical = false := heq ▸ hatEnd
      rw [hlexical] at hfalse
      cases hfalse

/-- What is wrong among the elements of a tag is due at their end, or it stands whatever follows. -/
theorem readArguments_error_cases {stop : Option LexError} {tag : Tag} {ts : List Token}
    {i : Interruption} (h : readArguments stop tag ts = .error i) :
    IsDue stop i.error ∨ (i.error.isLexical = false ∧ ∀ stop' more,
      readArguments stop' tag (ts ++ more) = .error ⟨i.error, i.unread ++ more⟩) := by
  fun_induction readArguments stop tag ts with
  | case1 =>
      cases h
      exact Or.inl ⟨_, rfl, rfl⟩
  | case2 => cases h
  | case3 t ts hclose hnone =>
      cases h
      refine Or.inr ⟨rfl, fun stop' more => ?_⟩
      simp [readArguments, hnone]
  | case4 => cases h
  | case5 t ts hclose e he i' hrec ih =>
      cases h
      rcases ih hrec with hdue | ⟨hlexical, hmore⟩
      · exact Or.inl hdue
      · refine Or.inr ⟨hlexical, fun stop' more => ?_⟩
        simp [readArguments, he, hmore]

/-- The elements of a tag are read alike whatever follows. -/
theorem readArguments_append {stop : Option LexError} {tag : Tag} {ts rest : List Token}
    {es : List Element} (h : readArguments stop tag ts = .ok (es, rest)) (stop' : Option LexError)
    (more : List Token) : readArguments stop' tag (ts ++ more) = .ok (es, rest ++ more) := by
  rw [eq_map_token_of_readArguments h, List.append_assoc, List.cons_append,
    readArguments_map_token]

/-- What is wrong with the elements of a tag is their number or their sort. -/
theorem Tag.kind_of_piece_eq_error {tag : Tag} {es : List Element} {e : ParseError}
    (h : tag.piece es = .error e) : e.kind = .invalidArguments := by
  have hheader : ∀ v a b c, ((LoopHeader.ofElements v a b c).mapError ParseError.loopHeader).map
      Piece.enter = .error e → e.kind = .invalidArguments := by
    intro v a b c hmake
    cases hof : LoopHeader.ofElements v a b c with
    | ok header => simp [hof, Except.map, Except.mapError] at hmake
    | error f =>
        rw [hof] at hmake
        cases hmake
        rfl
  cases tag with
  | echo =>
      cases es with
      | nil => cases h; rfl
      | cons e es => cases h
  | leave =>
      cases es with
      | nil => cases h
      | cons e es => cases h; rfl
  | enter =>
      simp only [Tag.piece] at h
      rw [enterPiece.eq_def] at h
      split at h
      · exact hheader _ _ _ _ h
      · exact hheader _ _ _ _ h
      · cases h; rfl

/-- What is wrong with the elements of a tag is not its characters. -/
theorem Tag.isLexical_of_piece_eq_error {tag : Tag} {es : List Element} {e : ParseError}
    (h : tag.piece es = .error e) : e.isLexical = false := by
  have hkind := Tag.kind_of_piece_eq_error h
  cases e with
  | lexical e => cases hkind
  | _ => rfl

/-- What is wrong with a tag is due at the end of the tokens, or it stands whatever follows. -/
theorem readTag_error_cases {stop : Option LexError} {ts : List Token} {i : Interruption}
    (h : readTag stop ts = .error i) :
    IsDue stop i.error ∨ (i.error.isLexical = false ∧ ∀ stop' more,
      readTag stop' (ts ++ more) = .error ⟨i.error, i.unread ++ more⟩) := by
  cases ts with
  | nil =>
      cases h
      exact Or.inl ⟨_, rfl, rfl⟩
  | cons head ts =>
      simp only [readTag] at h
      cases hhead : Tag.ofHead? head with
      | none =>
          simp only [hhead] at h
          cases h
          refine Or.inr ⟨rfl, fun stop' more => ?_⟩
          simp [readTag, hhead]
      | some tag =>
          simp only [hhead] at h
          cases hargs : readArguments stop tag ts with
          | error i' =>
              simp only [hargs] at h
              cases h
              rcases readArguments_error_cases hargs with hdue | ⟨hlexical, hmore⟩
              · exact Or.inl hdue
              · refine Or.inr ⟨hlexical, fun stop' more => ?_⟩
                simp [readTag, hhead, hmore]
          | ok read =>
              obtain ⟨es, rest⟩ := read
              cases hpiece : tag.piece es with
              | ok p => simp [hargs, hpiece] at h
              | error e =>
                  simp only [hargs, hpiece] at h
                  cases h
                  refine Or.inr ⟨Tag.isLexical_of_piece_eq_error hpiece, fun stop' more => ?_⟩
                  simp [readTag, hhead, readArguments_append hargs, hpiece]

/-- What is wrong with a piece is due at the end of the tokens, or it stands whatever follows. -/
theorem readPiece_error_cases {stop : Option LexError} {t : Token} {ts : List Token}
    {i : Interruption} (h : readPiece stop t ts = .error i) :
    IsDue stop i.error ∨ (i.error.isLexical = false ∧ ∀ stop' more,
      readPiece stop' t (ts ++ more) = .error ⟨i.error, i.unread ++ more⟩) := by
  cases t with
  | text content => cases h
  | tagOpen => exact readTag_error_cases h
  | _ =>
      cases h
      exact Or.inr ⟨rfl, fun _ _ => rfl⟩

/-- The only piece that may not fit is the end of a loop. -/
theorem Builder.eq_unmatchedLeave_of_add {b : Builder} {p : Piece} {e : ParseError}
    (h : b.add p = .error e) : e = .unmatchedLeave := by
  cases p with
  | text | echo | enter => cases h
  | leave =>
      simp only [Builder.add] at h
      split at h
      · cases h; rfl
      · cases h

/-- Where the tokens end only that is wrong which is due. -/
theorem Builder.isDue_of_parseFrom_nil {b : Builder} {stop : Option LexError} {e : ParseError}
    (h : b.parseFrom stop [] = .error e) : IsDue stop e := by
  cases stop with
  | some le =>
      simp only [Builder.parseFrom, readPieces, Builder.addAll, Option.map_some] at h
      cases h
      exact ⟨.missingInput, rfl, rfl⟩
  | none =>
      rw [Builder.parseFrom_nil, Builder.finish] at h
      split at h
      · cases h
      · cases h
        exact ⟨_, rfl, rfl⟩

/-- **Where errors come from.** An error of the parser is due at the end of the tokens, or it stands
whatever follows them. -/
theorem Builder.parseFrom_error_cases {b : Builder} {stop : Option LexError} {ts : List Token}
    {e : ParseError} (h : b.parseFrom stop ts = .error e) :
    IsDue stop e ∨ (e.isLexical = false ∧ ∀ stop' more,
      b.parseFrom stop' (ts ++ more) = .error e) := by
  induction hn : ts.length using Nat.strong_induction_on generalizing ts b with
  | _ n ih =>
      cases ts with
      | nil => exact Or.inl (Builder.isDue_of_parseFrom_nil h)
      | cons t ts =>
          cases hread : readPiece stop t ts with
          | error i =>
              rw [Builder.parseFrom_of_readPiece_eq_error hread] at h
              cases h
              rcases readPiece_error_cases hread with hdue | ⟨hlexical, hmore⟩
              · exact Or.inl hdue
              · refine Or.inr ⟨hlexical, fun stop' more => ?_⟩
                exact Builder.parseFrom_of_readPiece_eq_error (hmore stop' more) b
          | ok read =>
              obtain ⟨p, rest⟩ := read
              obtain ⟨us, hp, hts⟩ := readPiece_eq_ok_iff.mp hread
              have hlt := length_rest_readPiece hread
              -- the piece is read alike whatever follows, so all depends on what it is added to
              rw [hts, Builder.parseFrom_append hp] at h
              simp only [hts, List.append_assoc, Builder.parseFrom_append hp]
              cases hadd : b.add p with
              | error f =>
                  rw [hadd] at h
                  cases h
                  refine Or.inr ⟨?_, fun _ _ => rfl⟩
                  rw [Builder.eq_unmatchedLeave_of_add hadd]
                  rfl
              | ok b' =>
                  rw [hadd] at h
                  exact ih rest.length (hn ▸ hlt) h rfl

/-! ### Views -/

namespace View

/-- The template itself is no stage that a name begins with. -/
theorem ne_source_of_stageOf {name : String} {stage : Stage} (h : stageOf name = .ok stage) :
    stage ≠ .source := by
  rw [stageOf.eq_def] at h
  split at h
  · cases h; nofun
  · cases h; nofun
  · cases h

/-- A format is found only for a stage that has it. -/
theorem mem_available_of_formatOf {stage : Stage} {name : String} {format : Format}
    (hstage : stage ≠ .source) (h : formatOf stage name = .ok format) :
    ⟨stage, format⟩ ∈ available := by
  rw [formatOf.eq_def] at h
  split at h
  · cases h; decide
  · cases h
    cases stage with
    | source => exact absurd rfl hstage
    | token => decide
    | tree => decide
  all_goals cases h
  all_goals decide

/-- **Only views that there are have names.** -/
theorem mem_available_of_ofName {name : String} {v : View} (h : ofName name = .ok v) :
    v ∈ available := by
  rw [ofName] at h
  split at h
  · cases h
    decide
  split at h
  · cases h
  · obtain ⟨stage, hstage, hmore⟩ := bind_eq_ok_iff.mp h
    obtain ⟨format, hformat, hv⟩ := bind_eq_ok_iff.mp hmore
    cases hv
    exact mem_available_of_formatOf (ne_source_of_stageOf hstage) hformat

/-- The views of tokens have a format in which tokens can be written. -/
theorem exists_renderTokens_eq {v : View} (h : v ∈ available) (htoken : v.stage = .token)
    (ts : List Token) : ∃ text, renderTokens v.format ts = .ok text := by
  have hformat : ∀ v ∈ available, v.stage = .token → v.format = .simple ∨ v.format = .json := by
    decide
  rcases hformat v h htoken with hv | hv
  · exact ⟨_, by rw [hv, renderTokens]⟩
  · exact ⟨_, by rw [hv, renderTokens]⟩

/-- The views of trees have a format in which trees can be written. -/
theorem exists_renderDocument_eq {v : View} (h : v ∈ available) (htree : v.stage = .tree)
    (d : Document) : ∃ text, renderDocument v.format d = .ok text := by
  have hformat : ∀ v ∈ available, v.stage = .tree →
      v.format = .markup ∨ v.format = .outline ∨ v.format = .json ∨ v.format = .yaml := by
    decide
  rcases hformat v h htree with hv | hv | hv | hv
  · exact ⟨_, by rw [hv, renderDocument]⟩
  · exact ⟨_, by rw [hv, renderDocument]⟩
  · exact ⟨_, by rw [hv, renderDocument]⟩
  · exact ⟨_, by rw [hv, renderDocument]⟩

end View

/-- What is shown of a stage: something exactly where the stage has a result, and its error where
it has none. -/
structure Shows {α : Type} (shown : Except Failure String) (stage : Except ParseError α) :
    Prop where
  /-- There is something to show where there is a result. -/
  ok_iff : (∃ text, shown = .ok text) ↔ ∃ a, stage = .ok a
  /-- What goes wrong is what went wrong in the stage, and nothing else. -/
  error_iff : ∀ f, shown = .error f ↔ ∃ e, stage = .error e ∧ f = .parse e

/-- To show a stage is to show something of every result and to fail with every error. -/
theorem Shows.intro {α : Type} {shown : Except Failure String} {stage : Except ParseError α}
    (hok : ∀ a, stage = .ok a → ∃ text, shown = .ok text)
    (herror : ∀ e, stage = .error e → shown = .error (.parse e)) : Shows shown stage := by
  cases stage with
  | ok a =>
      obtain ⟨text, rfl⟩ := hok a rfl
      exact ⟨by simp, by simp⟩
  | error e =>
      rw [herror e rfl]
      exact ⟨by simp, by simp [eq_comm]⟩

/-- A view of tokens shows the tokens. -/
theorem View.shows_tokenize {v : View} (h : v ∈ available) (htoken : v.stage = .token)
    (source : String) :
    Shows (v.render source) ((tokenize source).mapError ParseError.lexical) := by
  cases htokens : tokenize source with
  | error e =>
      refine Shows.intro nofun fun f hf => ?_
      cases hf
      simp only [render, htoken, htokens]
  | ok ts =>
      refine Shows.intro (fun a ha => ?_) nofun
      simp only [render, htoken, htokens]
      exact exists_renderTokens_eq h htoken ts

/-- A view that is not one of tokens shows the tree. -/
theorem View.shows_parse {v : View} (h : v ∈ available) (htoken : v.stage ≠ .token)
    (source : String) : Shows (v.render source) (parse source) := by
  cases hstage : v.stage with
  | token => exact absurd hstage htoken
  | source =>
      refine Shows.intro (fun d hd => ?_) fun e he => ?_
      · exact ⟨d.source, by simp only [render, hstage, hd]⟩
      · simp only [render, hstage, he]
  | tree =>
      refine Shows.intro (fun d hd => ?_) fun e he => ?_
      · simp only [render, hstage, hd]
        exact exists_renderDocument_eq h hstage d
      · simp only [render, hstage, he]

/-! ### Agreement -/

/-- **Stages that agree on what is wrong with a source**, and views that agree with their stages. -/
structure StagesAgree (source : String) : Prop where
  /-- What has a tree has tokens. -/
  tokenize_ok : ∀ d, parse source = .ok d → ∃ ts, tokenize source = .ok ts
  /-- A fault of the lexer that keeps a source from having a tree keeps it from having tokens. -/
  tokenize_error : ∀ e fault, parse source = .error e → e.kind = .lexical fault →
    ∃ le, tokenize source = .error le ∧ e = .lexical le ∧ le.fault = fault ∧
      e.message = le.message
  /-- What has no tokens has no tree, because of the fault of the lexer, or because of something
  wrong with the tokens in front of the fault, whatever follows them. -/
  parse_error : ∀ le, tokenize source = .error le → ∃ e, parse source = .error e ∧
    (e = .lexical le ∨ (e.isLexical = false ∧ ∀ stop more,
      parseTokens stop ((Lexing.ofSource source).tokens ++ more) = .error e))
  /-- Views with a name show the tokens or the tree, and fail for no reason of their own. -/
  views : ∀ name v, View.ofName name = .ok v →
    (v.stage = .token → Shows (v.render source) ((tokenize source).mapError .lexical)) ∧
    (v.stage ≠ .token → Shows (v.render source) (parse source))

/-- **Stages agree on what is wrong.** -/
theorem stages_agree (source : String) : StagesAgree source := by
  constructor
  case tokenize_ok =>
    intro d hd
    obtain ⟨ts, hts, -⟩ := parse_eq_ok_iff_parseTokens.mp hd
    exact ⟨ts, hts⟩
  case tokenize_error =>
    intro e fault he hkind
    have hlexical : e.isLexical = true := by
      cases e <;> first | rfl | cases hkind
    rcases Builder.parseFrom_error_cases he with hdue | ⟨hnot, -⟩
    · obtain ⟨le, hstop, rfl⟩ := hdue.exists_stop_eq hlexical
      cases hkind
      exact ⟨le, tokenize_eq_error_iff.mpr hstop, rfl, rfl, rfl⟩
    · rw [hlexical] at hnot
      cases hnot
  case parse_error =>
    intro le hle
    have hstop := tokenize_eq_error_iff.mp hle
    cases he : parse source with
    | ok d =>
        obtain ⟨ts, hts, -⟩ := parse_eq_ok_iff_parseTokens.mp he
        rw [hle] at hts
        cases hts
    | error e =>
        refine ⟨e, rfl, ?_⟩
        rcases Builder.parseFrom_error_cases he with hdue | hstands
        · rw [hstop] at hdue
          exact Or.inl hdue.eq_lexical
        · exact Or.inr hstands
  case views =>
    intro name v hv
    have hmem := View.mem_available_of_ofName hv
    exact ⟨fun htoken => View.shows_tokenize hmem htoken source,
      fun htoken => View.shows_parse hmem htoken source⟩

/-- Of two faults the first counts: an echo tag without elements, in front of an escape that does
not exist. -/
theorem stages_agree_emptyEcho :
    parse "\x7b$=$\x7d\\n" = .error .emptyEcho ∧
    tokenize "\x7b$=$\x7d\\n" = .error ⟨.invalidEscape, 5⟩ ∧
    ∀ stop more, parseTokens stop ((Lexing.ofSource "\x7b$=$\x7d\\n").tokens ++ more) =
      .error .emptyEcho := by
  have hparse : parse "\x7b$=$\x7d\\n" = .error .emptyEcho := by cbv
  have htokens : tokenize "\x7b$=$\x7d\\n" = .error ⟨.invalidEscape, 5⟩ := by cbv
  obtain ⟨e, he, hcases⟩ := (stages_agree "\x7b$=$\x7d\\n").parse_error _ htokens
  rw [hparse] at he
  cases he
  rcases hcases with hlexical | ⟨-, hstands⟩
  · cases hlexical
  · exact ⟨hparse, htokens, hstands⟩

end TagTemplate
