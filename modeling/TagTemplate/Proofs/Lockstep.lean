import TagTemplate.Proofs.Stages
import TagTemplate.Proofs.Stream

/-!
# Lexer and parser in step

`parse` looks at the tokens of a source when all of them are there. Here the parser is taken apart
into single calls: it is at some point of its work, asks a `Lexer` for one token, and is at the next
point or done. Outside of tags it has a use for text, an opener or the end, and in a tag it has one
for what tags hold. The lexer has two modes and is not told which one is wanted, so that nothing but
the tokens themselves keeps the two together.

The step lemma `Parser.InStep.turn` carries everything. At every point the lexer is midway through
the source, in the mode that belongs to the point (`Control.mode`), and the tokens still to come
make of the point what `parse` makes of the source (`Control.resume`). From there each call for a
token leads to a point where this holds again, with less of the input left, or to the result of
`parse`.

## Main results

* `Control.resume_cons`: one token, in the list or asked for.
* `Parser.InStep.turn`: one call for a token.
* `Parser.ends_iff`: the run of the parser has the result of `parse`.
* `lockstep`: what is asked where, and what is never seen.
-/

namespace TagTemplate

/-! ### A parser that asks for tokens -/

/-- Where a parser is when it asks for a token. -/
inductive Control where
  /-- Outside of tags. -/
  | outside
  /-- Behind the opener of a tag. -/
  | head
  /-- Behind the name of a tag and some elements. -/
  | elements (tag : Tag) (soFar : List Element)

/-- What comes of a token: there is more to ask, or the parser is done. -/
inductive Turn (α : Type) where
  | more (next : α)
  | done (result : Except ParseError Document)

/-- What a token does, by where the parser is. -/
def Control.receive (b : Builder) : Control → Token → Turn (Control × Builder)
  | .outside, .text content => .more (.outside, b.push (.text content))
  | .outside, .tagOpen => .more (.head, b)
  | .outside, .eof => .done b.finish
  | .outside, t => .done (.error (.unexpectedOutside t))
  | .head, t =>
    match Tag.ofHead? t with
    | none => .done (.error (.unsupportedTag t))
    | some tag => .more (.elements tag [], b)
  | .elements tag es, .tagClose =>
    match tag.piece es with
    | .error e => .done (.error e)
    | .ok piece =>
      match b.add piece with
      | .error e => .done (.error e)
      | .ok b' => .more (.outside, b')
  | .elements tag es, t =>
    match t.element? with
    | none => .done (.error (.unexpectedInTag t tag))
    | some e => .more (.elements tag (es ++ [e]), b)

/-- A parser at work. -/
structure Parser where
  /-- Where it is. -/
  control : Control
  /-- What it has put together. -/
  builder : Builder
  /-- Whom it asks. -/
  lexer : Lexer

namespace Parser

/-- A parser that has asked for nothing. -/
def ofSource (source : String) : Parser := ⟨.outside, Builder.empty, Lexer.ofSource source⟩

/-- Asks for one token. -/
def turn (p : Parser) : Turn Parser :=
  match p.lexer.next with
  | (.error e, _) => .done (.error (.lexical e))
  | (.ok t, lexer) =>
    match p.control.receive p.builder t with
    | .done result => .done result
    | .more (control, builder) => .more ⟨control, builder, lexer⟩

/-- **The points of a run**: where the parser of a source asks for a token. -/
inductive Asks (source : String) : Parser → Prop
  | start : Asks source (ofSource source)
  | more {p q : Parser} : Asks source p → p.turn = .more q → Asks source q

/-- The run of the parser of a source comes to an end with that result. -/
def Ends (source : String) (result : Except ParseError Document) : Prop :=
  ∃ p, Asks source p ∧ p.turn = .done result

end Parser

/-! ### Tokens in a list and tokens asked for -/

/-- What a builder makes of a piece that was read and the tokens behind it, or of the fault in its
place. -/
def Builder.goOn (b : Builder) (stop : Option LexError) :
    Except Interruption (Piece × List Token) → Except ParseError Document
  | .error i => .error i.error
  | .ok (piece, rest) => (b.add piece).bind fun b' => b'.parseFrom stop rest

/-- The piece in front of the tokens comes first. -/
theorem Builder.parseFrom_cons (b : Builder) (stop : Option LexError) (t : Token)
    (ts : List Token) : b.parseFrom stop (t :: ts) = b.goOn stop (readPiece stop t ts) := by
  cases hread : readPiece stop t ts with
  | error i => exact Builder.parseFrom_of_readPiece_eq_error hread b
  | ok read =>
      obtain ⟨p, rest⟩ := read
      obtain ⟨us, hspelled, hus⟩ := exists_spelled_of_readPiece hread
      rw [hus, Builder.parseFrom_append hspelled]
      rfl

/-- What `parse` makes of the tokens still to come from a point on. -/
def Control.resume (b : Builder) (stop : Option LexError) (ts : List Token) :
    Control → Except ParseError Document
  | .outside => b.parseFrom stop ts
  | .head => b.goOn stop (readTag stop ts)
  | .elements tag es =>
    match readArguments stop tag ts with
    | .error i => .error i.error
    | .ok (more, rest) =>
      match tag.piece (es ++ more) with
      | .error e => .error e
      | .ok piece => b.goOn stop (.ok (piece, rest))

/-- What `parse` makes of the tokens still to come behind a token. -/
def Turn.resume (stop : Option LexError) (ts : List Token) :
    Turn (Control × Builder) → Except ParseError Document
  | .more (control, builder) => control.resume builder stop ts
  | .done result => result

/-- **One token**, in the list or asked for. -/
theorem Control.resume_cons (c : Control) (b : Builder) (stop : Option LexError) {t : Token}
    (ht : t ≠ .eof) (ts : List Token) :
    c.resume b stop (t :: ts) = (c.receive b t).resume stop ts := by
  cases c with
  | outside =>
      rw [Control.resume, Builder.parseFrom_cons]
      cases t with
      | eof => exact absurd rfl ht
      | _ => rfl
  | head =>
      simp only [Control.resume, Control.receive, readTag]
      cases Tag.ofHead? t with
      | none => rfl
      | some tag =>
          simp only [Turn.resume, Control.resume, List.nil_append]
          cases readArguments stop tag ts with
          | error i => rfl
          | ok read => cases hpiece : tag.piece read.1 <;> simp only [hpiece, Builder.goOn]
  | elements tag es =>
      cases t with
      | eof => exact absurd rfl ht
      | text _ | tagOpen | echo => rfl
      | tagClose =>
          simp only [Control.resume, Control.receive, readArguments, List.append_nil]
          cases tag.piece es with
          | error e => rfl
          | ok piece => cases hadd : b.add piece <;> simp only [Builder.goOn, hadd] <;> rfl
      | name _ | function _ | integer _ | double _ | string _ | operator _ =>
          simp only [Control.resume, Control.receive, readArguments, Token.element?, Turn.resume]
          cases readArguments stop tag ts with
          | error i => rfl
          | ok read => simp only [List.append_assoc, List.singleton_append]

/-- Where the tokens end the end is asked for. -/
theorem Control.receive_eof (c : Control) (b : Builder) :
    c.receive b .eof = .done (c.resume b none []) := by
  cases c with
  | outside => rw [Control.resume, Builder.parseFrom_nil]; rfl
  | head => rfl
  | elements tag es => rfl

/-- Where the lexer stops its fault is the error. -/
theorem Control.resume_some_nil (c : Control) (b : Builder) (e : LexError) :
    c.resume b (some e) [] = .error (.lexical e) := by
  cases c with
  | outside => simp [Control.resume, Builder.parseFrom, readPieces, Builder.addAll]
  | head => rfl
  | elements tag es => rfl

/-! ### Where the modes belong -/

/-- The mode in which a lexer has to be for a parser at that point. -/
def Control.mode : Control → Mode
  | .outside => .text
  | .head | .elements _ _ => .tag

/-- **The modes change together**: a token that leads the parser on leads the lexer into the mode
that belongs to the next point. -/
theorem Control.mode_of_receive {c c' : Control} {b b' : Builder} {mode' : Mode}
    {cs rest : List Char} {l : Lexeme} (hstep : step c.mode cs = .token l mode' rest)
    (h : c.receive b l.token = .more (c', b')) : mode' = c'.mode := by
  rcases token_cases_of_step hstep with
    ⟨hmode, rfl, ht⟩ | ⟨hmode, rfl, -, content, ht, -⟩ | ⟨hmode, rfl, hcontent, -⟩
  · -- an opener is found outside of tags only
    cases c with
    | outside =>
        rw [ht] at h
        cases h
        rfl
    | head | elements => cases hmode
  · cases c with
    | outside =>
        rw [ht] at h
        cases h
        rfl
    | head | elements => cases hmode
  · cases c with
    | outside => cases hmode
    | head =>
        simp only [Control.receive] at h
        split at h
        · cases h
        · rename_i tag htag
          cases h
          rcases Tag.cases_of_ofHead? htag with
            ⟨ht, -⟩ | ⟨name, ht, -⟩ | ⟨name, ht, -⟩ <;> rw [ht] <;> rfl
    | elements tag es =>
        cases ht : l.token with
        | tagClose =>
            simp only [ht, Control.receive] at h
            split at h
            · cases h
            · split at h
              · cases h
              · cases h
                rfl
        | text _ | tagOpen | echo | eof =>
            rw [ht] at h
            cases h
        | name _ | function _ | integer _ | double _ | string _ | operator _ =>
            rw [ht] at h
            cases h
            rfl

/-- **Only equals signs are unexpected**, where the parser is given tokens of the right mode. -/
theorem Control.unexpected_of_receive {c : Control} {b : Builder} {t : Token} {e : ParseError}
    (ht : t.isTagContent = true ↔ c.mode = .tag) (h : c.receive b t = .done (.error e))
    (hkind : e.kind = .unexpectedToken) : ∃ tag, e = .unexpectedInTag .echo tag := by
  cases c with
  | outside =>
      have hoff : t.isTagContent = false := by simpa [Control.mode] using ht
      cases t with
      | text _ | tagOpen => cases h
      | eof =>
          simp only [Control.receive, Builder.finish, Turn.done.injEq] at h
          split at h
          · cases h
          · cases h
            cases hkind
      | _ => cases hoff
  | head =>
      simp only [Control.receive] at h
      split at h
      · cases h
        cases hkind
      · cases h
  | elements tag es =>
      have hon : t.isTagContent = true := ht.mpr rfl
      cases t with
      | echo =>
          cases h
          exact ⟨tag, rfl⟩
      | tagClose =>
          simp only [Control.receive] at h
          split at h
          · rename_i f hpiece
            cases h
            rw [Tag.kind_of_piece_eq_error hpiece] at hkind
            cases hkind
          · split at h
            · rename_i f hadd
              cases h
              rw [Builder.eq_unmatchedLeave_of_add hadd] at hkind
              cases hkind
            · cases h
      | text _ | tagOpen | eof => cases hon
      | name _ | function _ | integer _ | double _ | string _ | operator _ => cases h

/-! ### What a lexer hands out in a mode -/

section Answers

variable {l : Lexer} {cs : List Char}

/-- In text mode: text, an opener, the end, or an escape that is none. -/
theorem Lexer.next_cases_text (h : l.input = some (.text, cs)) :
    (∃ content, l.next.1 = .ok (.text content)) ∨ l.next.1 = .ok .tagOpen ∨
      l.next.1 = .ok .eof ∨ ∃ offset, l.next.1 = .error ⟨.invalidEscape, offset⟩ := by
  cases hstep : step .text cs with
  | finished => exact Or.inr (Or.inr (Or.inl (by rw [Lexer.next_of_finished h hstep])))
  | token lexeme mode' rest =>
      rw [Lexer.next_of_token h hstep]
      rcases token_cases_of_step hstep with ⟨-, -, ht⟩ | ⟨-, -, -, content, ht, -⟩ | ⟨hmode, -⟩
      · exact Or.inr (Or.inl (by rw [ht]))
      · exact Or.inl ⟨content, by rw [ht]⟩
      · cases hmode
  | fault passed fault =>
      rw [Lexer.next_of_fault h hstep]
      have hfault : fault = .invalidEscape := by
        by_cases hends : Escaped.Ends cs
        · rcases hends with rfl | ⟨r, rfl⟩ <;> cases hstep
        · cases hscan : Escaped.scan cs with
          | ok s =>
              rw [step_of_scan_eq_ok hends hscan] at hstep
              cases hstep
          | error passed' =>
              rw [step_of_scan_eq_error hends hscan] at hstep
              cases hstep
              rfl
      exact Or.inr (Or.inr (Or.inr ⟨_, by rw [hfault]⟩))

/-- In tag mode: what tags hold, or what is wrong with the characters of the tag. -/
theorem Lexer.next_cases_tag (h : l.input = some (.tag, cs)) :
    (∃ t, l.next.1 = .ok t ∧ t.isTagContent = true) ∨
      ∃ passed fault offset, step .tag cs = .fault passed fault ∧
        l.next.1 = .error ⟨fault, offset⟩ := by
  cases hstep : step .tag cs with
  | finished =>
      obtain ⟨hmode, -⟩ := eq_nil_of_step_finished hstep
      cases hmode
  | token lexeme mode' rest =>
      rw [Lexer.next_of_token h hstep]
      rcases token_cases_of_step hstep with ⟨hmode, -⟩ | ⟨hmode, -⟩ | ⟨-, -, hcontent, -⟩
      · cases hmode
      · cases hmode
      · exact Or.inl ⟨_, rfl, hcontent⟩
  | fault passed fault =>
      rw [Lexer.next_of_fault h hstep]
      exact Or.inr ⟨passed, fault, _, rfl, rfl⟩

/-- What tags hold is handed out in tag mode and in no other. -/
theorem Lexer.isTagContent_iff {mode : Mode} {t : Token} (h : l.input = some (mode, cs))
    (hnext : l.next.1 = .ok t) : t.isTagContent = true ↔ mode = .tag := by
  cases mode with
  | text =>
      rcases Lexer.next_cases_text h with ⟨content, ht⟩ | ht | ht | ⟨offset, ht⟩ <;>
        rw [hnext] at ht <;> cases ht <;> simp [Token.isTagContent]
  | tag =>
      rcases Lexer.next_cases_tag h with ⟨u, hu, hcontent⟩ | ⟨passed, fault, offset, -, ht⟩
      · rw [hnext] at hu
        cases hu
        simp [hcontent]
      · rw [hnext] at ht
        cases ht

end Answers

/-- The mode that a lexer is in is that of its input, unless it has seen the opener there. -/
theorem Lexer.modeBehind_cases {mode mode' : Mode} {cs rest : List Char} {l : Lexeme}
    (h : step mode cs = .token l mode' rest) :
    Lexer.modeBehind l.token mode' rest = mode' ∨
      (mode' = .text ∧ ∃ more, rest = '{' :: '$' :: more) := by
  rcases token_cases_of_step h with
    ⟨-, -, ht⟩ | ⟨-, rfl, hends, content, ht, -⟩ | ⟨-, -, hcontent, -⟩
  · exact Or.inl (by rw [ht]; rfl)
  · rcases hends with rfl | hopener
    · exact Or.inl (by rw [ht]; rfl)
    · exact Or.inr ⟨rfl, hopener⟩
  · refine Or.inl ?_
    cases ht : l.token with
    | text content => simp [ht, Token.isTagContent] at hcontent
    | _ => rfl

/-! ### One call after the other -/

namespace Parser

section Turns

variable {p : Parser} {mode mode' : Mode} {cs rest passed : List Char} {l : Lexeme}

/-- A token after which the parser is done. -/
theorem turn_of_done {result : Except ParseError Document}
    (hinput : p.lexer.input = some (mode, cs)) (hstep : step mode cs = .token l mode' rest)
    (h : p.control.receive p.builder l.token = .done result) : p.turn = .done result := by
  simp only [turn, Lexer.next_of_token hinput hstep, h]

/-- A token after which there is more to ask. -/
theorem turn_of_more {c : Control} {b : Builder} (hinput : p.lexer.input = some (mode, cs))
    (hstep : step mode cs = .token l mode' rest)
    (h : p.control.receive p.builder l.token = .more (c, b)) :
    p.turn = .more ⟨c, b, p.lexer.next.2⟩ := by
  simp only [turn, Lexer.next_of_token hinput hstep, h]

/-- A fault in place of a token. -/
theorem turn_of_fault {fault : LexFault} (hinput : p.lexer.input = some (mode, cs))
    (hstep : step mode cs = .fault passed fault) :
    p.turn = .done (.error (.lexical ⟨fault, p.lexer.offset + byteLength passed⟩)) := by
  simp only [turn, Lexer.next_of_fault hinput hstep]

/-- The end of the input in place of a token. -/
theorem turn_of_finished (hinput : p.lexer.input = some (p.control.mode, cs))
    (hstep : step p.control.mode cs = .finished) : p.turn = .done p.builder.finish := by
  have hcontrol : p.control = .outside := by
    obtain ⟨hmode, -⟩ := eq_nil_of_step_finished hstep
    cases hc : p.control with
    | outside => rfl
    | head | elements => simp [hc, Control.mode] at hmode
  simp only [turn, Lexer.next_of_finished hinput hstep, hcontrol, Control.receive]

end Turns

/-- **Lexer and parser in step**, in front of the input `cs` of a source. -/
structure InStep (source : String) (done : List Lexeme) (cs : List Char) (p : Parser) :
    Prop where
  /-- The lexer is midway, in the mode that belongs to where the parser is. -/
  midway : p.lexer.Midway source done p.control.mode cs
  /-- What the tokens still to come make of this is what `parse` makes of the source. -/
  resume : p.control.resume p.builder (Lexing.ofSource source).error?
    (lex p.control.mode cs).tokens = parse source
  /-- The mode of the lexer goes ahead only to an opener that it has seen. -/
  ahead : p.lexer.mode = p.control.mode ∨
    (p.control.mode = .text ∧ ∃ rest, cs = '{' :: '$' :: rest)

variable {source : String} {done : List Lexeme} {cs : List Char} {p : Parser}

/-- At the beginning they are in step. -/
theorem inStep_ofSource (source : String) : InStep source [] source.toList (ofSource source) :=
  ⟨Lexer.midway_ofSource source, rfl, Or.inl rfl⟩

/-- **One call for a token** leads to the result of `parse`, or to a point where both are in step
again and less of the input is left. -/
theorem InStep.turn (h : InStep source done cs p) :
    p.turn = .done (parse source) ∨
    ∃ q l rest, p.turn = .more q ∧ rest.length < cs.length ∧
      InStep source (done ++ [l]) rest q := by
  have hresume := h.resume
  cases hlexemes : (lex p.control.mode cs).lexemes with
  | nil =>
      rw [Lexing.tokens, hlexemes, List.map_nil] at hresume
      refine Or.inl ?_
      obtain ⟨⟨herror, hnext⟩ | ⟨e, herror, hnext⟩, -⟩ := h.midway.next_of_lexemes_eq_nil hlexemes
      · rw [herror] at hresume
        simp only [Parser.turn, hnext, Control.receive_eof, hresume]
      · rw [herror, Control.resume_some_nil] at hresume
        simp only [Parser.turn, hnext, hresume]
  | cons l ls =>
      obtain ⟨mode', rest, hstep, hlex⟩ := exists_step_of_lexemes_eq_cons hlexemes
      have htokens : (lex p.control.mode cs).tokens = l.token :: (lex mode' rest).tokens := by
        rw [Lexing.tokens, hlexemes, hlex]
        rfl
      rw [htokens, Control.resume_cons _ _ _ (token_ne_eof_of_step hstep)] at hresume
      cases hreceive : p.control.receive p.builder l.token with
      | done result =>
          rw [hreceive, Turn.resume] at hresume
          rw [← hresume]
          exact Or.inl (turn_of_done h.midway.input hstep hreceive)
      | more next =>
          obtain ⟨control, builder⟩ := next
          obtain rfl := Control.mode_of_receive hstep hreceive
          rw [hreceive] at hresume
          refine Or.inr ⟨_, l, rest, turn_of_more h.midway.input hstep hreceive,
            length_rest_lt hstep, h.midway.next_of_token hstep, hresume, ?_⟩
          rw [Lexer.next_of_token h.midway.input hstep]
          exact Lexer.modeBehind_cases hstep

/-- **At every point** of a run they are in step. -/
theorem Asks.exists_inStep (h : Asks source p) : ∃ done cs, InStep source done cs p := by
  induction h with
  | start => exact ⟨[], source.toList, inStep_ofSource source⟩
  | more _ hturn ih =>
      obtain ⟨done, cs, hstep⟩ := ih
      rcases hstep.turn with hdone | ⟨q, l, rest, hmore, -, hq⟩
      · rw [hturn] at hdone
        cases hdone
      · rw [hturn] at hmore
        cases hmore
        exact ⟨_, rest, hq⟩

/-- From every point a run comes to its end, since less and less of the input is left. -/
theorem InStep.ends (h : InStep source done cs p) (hasks : Asks source p) :
    Ends source (parse source) := by
  induction hn : cs.length using Nat.strong_induction_on generalizing done cs p with
  | _ n ih =>
      subst hn
      rcases h.turn with hdone | ⟨q, l, rest, hmore, hlt, hq⟩
      · exact ⟨p, hasks, hdone⟩
      · exact ih rest.length hlt hq (hasks.more hmore) rfl

/-- **The run of the parser** comes to an end, with the result of `parse` and no other. -/
theorem ends_iff (source : String) (result : Except ParseError Document) :
    Ends source result ↔ result = parse source := by
  constructor
  · rintro ⟨p, hasks, hdone⟩
    obtain ⟨done, cs, hstep⟩ := hasks.exists_inStep
    rcases hstep.turn with hparse | ⟨q, l, rest, hmore, -, -⟩
    · rw [hdone] at hparse
      cases hparse
      rfl
    · rw [hdone] at hmore
      cases hmore
  · rintro rfl
    exact (inStep_ofSource source).ends .start

/-- What is unexpected to a parser in step with its lexer is an equals sign in a tag. -/
theorem InStep.unexpected {e : ParseError} (h : InStep source done cs p)
    (hturn : p.turn = .done (.error e)) (hkind : e.kind = .unexpectedToken) :
    ∃ tag, e = .unexpectedInTag .echo tag := by
  simp only [Parser.turn] at hturn
  split at hturn
  · cases hturn
    cases hkind
  · rename_i t lexer hnext
    split at hturn
    · rename_i result hreceive
      cases hturn
      have ht := Lexer.isTagContent_iff h.midway.input (congrArg Prod.fst hnext)
      exact Control.unexpected_of_receive ht hreceive hkind
    · cases hturn

end Parser

/-! ### All that is known -/

/-- **A lexer that is read outside of tags.** -/
structure Lexer.ReadsText (l : Lexer) : Prop where
  /-- Its input is read in text mode. -/
  input : ∃ cs, l.input = some (.text, cs)
  /-- If its own mode is that of tags already, it has seen an opener, which comes next. -/
  held : l.mode = .tag → l.next.1 = .ok .tagOpen
  /-- All that there can be is text, an opener, the end or a bad escape. -/
  answer : (∃ content, l.next.1 = .ok (.text content)) ∨ l.next.1 = .ok .tagOpen ∨
    l.next.1 = .ok .eof ∨ ∃ offset, l.next.1 = .error ⟨.invalidEscape, offset⟩

/-- **A lexer that is read in a tag.** -/
structure Lexer.ReadsTag (l : Lexer) : Prop where
  /-- Its mode is that of tags. -/
  mode : l.mode = .tag
  /-- Its input is read in that mode, and all that there can be is what tags hold, or a fault that
  is met in that mode. -/
  answer : ∃ cs, l.input = some (.tag, cs) ∧
    ((∃ t, l.next.1 = .ok t ∧ t.isTagContent = true) ∨
      ∃ passed fault offset, step .tag cs = .fault passed fault ∧
        l.next.1 = .error ⟨fault, offset⟩)

/-- Where the parser is outside of tags it asks a lexer that is, too. -/
theorem Parser.Asks.readsText {source : String} {p : Parser} (h : Parser.Asks source p)
    (hcontrol : p.control = .outside) : p.lexer.ReadsText := by
  obtain ⟨done, cs, hmidway, -, hahead⟩ := h.exists_inStep
  rw [hcontrol] at hmidway hahead
  have hinput : p.lexer.input = some (.text, cs) := hmidway.input
  refine ⟨⟨cs, hinput⟩, fun hmode => ?_, Lexer.next_cases_text hinput⟩
  rcases hahead with htext | ⟨-, rest, rfl⟩
  · rw [hmode] at htext
    cases htext
  · rw [Lexer.next_of_token hinput rfl]

/-- Where the parser is in a tag it asks a lexer that is, too. -/
theorem Parser.Asks.readsTag {source : String} {p : Parser} (h : Parser.Asks source p)
    (hcontrol : p.control ≠ .outside) : p.lexer.ReadsTag := by
  obtain ⟨done, cs, hmidway, -, hahead⟩ := h.exists_inStep
  have hmode : p.control.mode = .tag := by
    cases hc : p.control with
    | outside => exact absurd hc hcontrol
    | head | elements => rfl
  rw [hmode] at hmidway hahead
  exact ⟨hahead.resolve_right (by simp), cs, hmidway.input, Lexer.next_cases_tag hmidway.input⟩

/-- What is unexpected in a source is an equals sign in a tag. -/
theorem exists_tag_of_unexpected {source : String} {e : ParseError} (h : parse source = .error e)
    (hkind : e.kind = .unexpectedToken) : ∃ tag, e = .unexpectedInTag .echo tag := by
  obtain ⟨p, hasks, hdone⟩ := (Parser.ends_iff source (.error e)).mpr h.symm
  obtain ⟨done, cs, hstep⟩ := hasks.exists_inStep
  exact hstep.unexpected hdone hkind

/-- **Lexer and parser in lockstep**: what the parser of a source asks for where, and what it never
sees. -/
structure Lockstep (source : String) : Prop where
  /-- The run of the parser has the result of `parse`. -/
  ends_iff : ∀ result, Parser.Ends source result ↔ result = parse source
  /-- Outside of tags it asks for what stands there. -/
  outside : ∀ p, Parser.Asks source p → p.control = .outside → p.lexer.ReadsText
  /-- In a tag it asks for what stands in tags. -/
  inside : ∀ p, Parser.Asks source p → p.control ≠ .outside → p.lexer.ReadsTag
  /-- Nothing is unexpected outside of tags. -/
  outside_expected : ∀ t, parse source ≠ .error (.unexpectedOutside t)
  /-- Only equals signs are unexpected, in the tag they are in. -/
  message : ∀ e, parse source = .error e → e.kind = .unexpectedToken →
    e.message = "unexpected <echo> in = tag" ∨ e.message = "unexpected <echo> in FOR tag" ∨
      e.message = "unexpected <echo> in END tag"

/-- **Modes never drift apart**, whatever the source. -/
theorem lockstep (source : String) : Lockstep source where
  ends_iff := Parser.ends_iff source
  outside p hasks hcontrol := hasks.readsText hcontrol
  inside p hasks hcontrol := hasks.readsTag hcontrol
  outside_expected t h := by
    obtain ⟨tag, htag⟩ := exists_tag_of_unexpected h rfl
    cases htag
  message e h hkind := by
    obtain ⟨tag, rfl⟩ := exists_tag_of_unexpected h hkind
    cases tag with
    | echo => exact Or.inl (by decide)
    | enter => exact Or.inr (Or.inl (by decide))
    | leave => exact Or.inr (Or.inr (by decide))

/-- An equals sign among the elements of a tag is unexpected there, and is met before it is known
that the tag has too few of them. -/
example : parse "a\x7b$FOR i =$\x7d" = .error (.unexpectedInTag .echo .enter) := by
  cbv

end TagTemplate
