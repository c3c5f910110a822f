import TagTemplate.Parse
import TagTemplate.Proofs.Element

/-!
# The grammar of templates

`Derives ts ns` says that the tokens `ts` are the nodes `ns` written down: texts, echo tags, loops
around something derived, one after the other. This module shows that putting pieces together
on a stack of open loops recognises this grammar exactly, and gives its trees.

In one direction a derivation is followed by the builder, from any state and in front of any
tokens (`Derives.parseFrom_append`). In the other direction `Open ts b` says what a builder has
understood of the tokens it has seen: a derivation for the document, and for each open loop its
tag and a derivation for its body so far. Every piece keeps that (`Open.add`), and when no loop is
open it is a derivation of all tokens.

## Main results

* `readPiece_eq_ok_iff`: which tokens a piece is read from.
* `parseTokens_eq_ok_iff`: the tokens of a document are those that derive it.
* `Derives.unique`: no tokens derive two lists of nodes.
* `parse_eq_ok_iff_derives`: the grammar of sources.
-/

namespace TagTemplate

/-- **The grammar.** What tokens stand for which nodes. -/
inductive Derives : List Token → List Node → Prop
  | nil : Derives [] []
  | text (content : String) : Derives [.text content] [.text content]
  | echo {es : List Element} :
      es ≠ [] →
      Derives (.tagOpen :: .echo :: es.map Element.token ++ [.tagClose]) [.echo es]
  | loop (header : LoopHeader) {enter leave : Identifier} {ts : List Token} {body : List Node} :
      enter.matchesWord "FOR" = true →
      leave.matchesWord "END" = true →
      Derives ts body →
      Derives (.tagOpen :: .name enter :: header.elements.map Element.token ++ [.tagClose] ++ ts ++
        [.tagOpen, .name leave, .tagClose]) [.loop header body]
  | append {ts us : List Token} {ns ms : List Node} :
      Derives ts ns → Derives us ms → Derives (ts ++ us) (ns ++ ms)

/-! ### Tags -/

/-- What a computation that may fail comes to, part by part. -/
theorem bind_eq_ok_iff {ε α β : Type} {x : Except ε α} {f : α → Except ε β} {b : β} :
    (x >>= f) = .ok b ↔ ∃ a, x = .ok a ∧ f a = .ok b := by
  cases x with
  | error e => simp [bind, Except.bind]
  | ok a => simp [bind, Except.bind]

/-- Bounds are made of elements that can be bounds. -/
theorem Bound.ofElement_eq_ok_iff {e : Element} {b : Bound} :
    Bound.ofElement e = .ok b ↔ e = b.element := by
  rw [Bound.ofElement]
  split
  · rw [Except.ok.injEq]
    exact ⟨fun h => by rw [← h], fun h => by cases b; simp_all⟩
  · rename_i hbound
    simp only [reduceCtorEq, false_iff]
    rintro rfl
    exact hbound b.isBound_element

/-- Loop variables are variables. -/
theorem LoopHeader.variableOf_eq_ok_iff {e : Element} {name : Identifier} :
    LoopHeader.variableOf e = .ok name ↔ e = .var name := by
  cases e <;> simp [LoopHeader.variableOf]

/-- A header is made of its own elements and of no others. -/
theorem LoopHeader.ofElements_eq_ok_iff {v a b : Element} {c : Option Element} {h : LoopHeader} :
    LoopHeader.ofElements v a b c = .ok h ↔ v :: a :: b :: c.toList = h.elements := by
  simp only [LoopHeader.ofElements, bind_eq_ok_iff, LoopHeader.variableOf_eq_ok_iff,
    Bound.ofElement_eq_ok_iff]
  constructor
  · rintro ⟨var, rfl, start, rfl, stop, rfl, hstep⟩
    cases c with
    | none =>
        cases hstep
        rfl
    | some c =>
        obtain ⟨step, hbound, hheader⟩ := bind_eq_ok_iff.mp hstep
        obtain rfl := Bound.ofElement_eq_ok_iff.mp hbound
        cases hheader
        simp [LoopHeader.elements]
  · obtain ⟨var, start, stop, step⟩ := h
    intro h
    simp only [LoopHeader.elements, List.cons_append, List.nil_append, List.cons.injEq] at h
    obtain ⟨rfl, rfl, rfl, hstep⟩ := h
    refine ⟨var, rfl, start, rfl, stop, rfl, ?_⟩
    cases step with
    | none =>
        cases c with
        | none => rfl
        | some c => cases hstep
    | some step =>
        cases c with
        | none => cases hstep
        | some c =>
            cases hstep
            exact bind_eq_ok_iff.mpr ⟨step, Bound.ofElement_eq_ok_iff.mpr rfl, rfl⟩

/-- The elements of a tag are read up to its closing mark. -/
theorem readArguments_map_token (stop : Option LexError) (tag : Tag) (es : List Element)
    (rest : List Token) :
    readArguments stop tag (es.map Element.token ++ .tagClose :: rest) = .ok (es, rest) := by
  induction es with
  | nil => rfl
  | cons e es ih =>
      rw [List.map_cons, List.cons_append]
      cases e <;> simp [readArguments, Element.token, Token.element?, ih]

/-- What was read as the elements of a tag stands for them. -/
theorem eq_map_token_of_readArguments {stop : Option LexError} {tag : Tag} {ts rest : List Token}
    {es : List Element} (h : readArguments stop tag ts = .ok (es, rest)) :
    ts = es.map Element.token ++ .tagClose :: rest := by
  fun_induction readArguments stop tag ts generalizing es with
  | case1 => cases h
  | case2 ts => cases h; rfl
  | case3 => cases h
  | case4 t ts _ e he es' rest' hrec ih =>
      cases h
      rw [ih hrec, Token.element?_eq_some_iff.mp he]
      rfl
  | case5 => cases h

/-! ### Pieces -/

/-- The tokens a piece is written with. -/
inductive Piece.Spelled : Piece → List Token → Prop
  | text (content : String) : Spelled (.text content) [.text content]
  | echo {es : List Element} :
      es ≠ [] →
      Spelled (.echo es) (.tagOpen :: .echo :: es.map Element.token ++ [.tagClose])
  | enter {name : Identifier} (header : LoopHeader) :
      name.matchesWord "FOR" = true →
      Spelled (.enter header)
        (.tagOpen :: .name name :: header.elements.map Element.token ++ [.tagClose])
  | leave {name : Identifier} :
      name.matchesWord "END" = true →
      Spelled .leave [.tagOpen, .name name, .tagClose]

/-- The elements of a loop's first tag make its header. -/
theorem enterPiece_eq_ok_iff {es : List Element} {p : Piece} :
    enterPiece es = .ok p ↔ ∃ header, p = .enter header ∧ es = header.elements := by
  have hmake : ∀ v a b c, ((LoopHeader.ofElements v a b c).mapError ParseError.loopHeader).map
      Piece.enter = .ok p ↔ ∃ header, p = .enter header ∧ v :: a :: b :: c.toList =
        header.elements := by
    intro v a b c
    simp only [← LoopHeader.ofElements_eq_ok_iff]
    cases LoopHeader.ofElements v a b c <;> simp [Except.map, Except.mapError, eq_comm]
  rw [enterPiece.eq_def]
  split
  · exact hmake _ _ _ none
  · exact hmake _ _ _ (some _)
  · rename_i hthree hfour
    simp only [reduceCtorEq, false_iff, not_exists, not_and]
    rintro ⟨var, start, stop, step⟩ -
    cases step with
    | none => exact hthree _ _ _
    | some step => exact hfour _ _ _ _

/-- No name is both the beginning and the end of a loop. -/
theorem matchesWord_enter_of_leave {name : Identifier} (h : name.matchesWord "END" = true) :
    name.matchesWord "FOR" = false := by
  simp only [Identifier.matchesWord, beq_iff_eq] at h
  simp only [Identifier.matchesWord, h]
  decide

/-- No name is both the end and the beginning of a loop. -/
theorem matchesWord_leave_of_enter {name : Identifier} (h : name.matchesWord "FOR" = true) :
    name.matchesWord "END" = false := by
  by_contra hleave
  rw [Bool.not_eq_false] at hleave
  rw [matchesWord_enter_of_leave hleave] at h
  cases h

/-- The name of the tag that begins a loop. -/
theorem Tag.ofHead?_enter {name : Identifier} (h : name.matchesWord "FOR" = true) :
    Tag.ofHead? (.name name) = some .enter := by
  simp [Tag.ofHead?, Tag.text, h]

/-- The name of the tag that ends a loop. -/
theorem Tag.ofHead?_leave {name : Identifier} (h : name.matchesWord "END" = true) :
    Tag.ofHead? (.name name) = some .leave := by
  simp [Tag.ofHead?, Tag.text, h, matchesWord_enter_of_leave h]

/-- Only these name a tag. -/
theorem Tag.cases_of_ofHead? {t : Token} {tag : Tag} (h : Tag.ofHead? t = some tag) :
    (t = .echo ∧ tag = .echo) ∨
    (∃ name, t = .name name ∧ name.matchesWord "FOR" = true ∧ tag = .enter) ∨
    (∃ name, t = .name name ∧ name.matchesWord "END" = true ∧ tag = .leave) := by
  rw [Tag.ofHead?.eq_def] at h
  split at h
  · cases h
    exact Or.inl ⟨rfl, rfl⟩
  · rename_i name
    split at h
    · rename_i hname
      cases h
      exact Or.inr (Or.inl ⟨name, rfl, hname, rfl⟩)
    split at h
    · rename_i hname
      cases h
      exact Or.inr (Or.inr ⟨name, rfl, hname, rfl⟩)
    · cases h
  · cases h

/-- A tag is read from its name, its elements and its closing mark. -/
theorem readTag_eq_ok_iff {stop : Option LexError} {ts rest : List Token} {p : Piece} :
    readTag stop ts = .ok (p, rest) ↔
      ∃ head tag es, ts = head :: (es.map Element.token ++ .tagClose :: rest) ∧
        Tag.ofHead? head = some tag ∧ tag.piece es = .ok p := by
  constructor
  · intro h
    cases ts with
    | nil => cases h
    | cons head ts =>
        simp only [readTag] at h
        cases hhead : Tag.ofHead? head with
        | none => simp [hhead] at h
        | some tag =>
            cases hargs : readArguments stop tag ts with
            | error i => simp [hhead, hargs] at h
            | ok read =>
                obtain ⟨es, rest'⟩ := read
                cases hpiece : tag.piece es with
                | error e => simp [hhead, hargs, hpiece] at h
                | ok p' =>
                    simp only [hhead, hargs, hpiece, Except.ok.injEq, Prod.mk.injEq] at h
                    obtain ⟨rfl, rfl⟩ := h
                    rw [eq_map_token_of_readArguments hargs]
                    exact ⟨head, tag, es, rfl, hhead, hpiece⟩
  · rintro ⟨head, tag, es, rfl, hhead, hpiece⟩
    simp only [readTag, hhead, readArguments_map_token, hpiece]

/-- What a piece was read from spells it. -/
theorem exists_spelled_of_readPiece {stop : Option LexError} {t : Token} {ts rest : List Token}
    {p : Piece} (h : readPiece stop t ts = .ok (p, rest)) :
    ∃ us, p.Spelled us ∧ t :: ts = us ++ rest := by
  rw [readPiece.eq_def] at h
  split at h
  · cases h
    exact ⟨_, .text _, rfl⟩
  · obtain ⟨head, tag, es, rfl, hhead, hpiece⟩ := readTag_eq_ok_iff.mp h
    rcases Tag.cases_of_ofHead? hhead with
      ⟨rfl, rfl⟩ | ⟨name, rfl, hname, rfl⟩ | ⟨name, rfl, hname, rfl⟩
    · cases es with
      | nil => cases hpiece
      | cons e es =>
          cases hpiece
          exact ⟨_, .echo (List.cons_ne_nil e es), by simp⟩
    · obtain ⟨header, rfl, rfl⟩ := enterPiece_eq_ok_iff.mp hpiece
      exact ⟨_, .enter header hname, by simp⟩
    · cases es with
      | nil =>
          cases hpiece
          exact ⟨_, .leave hname, by simp⟩
      | cons e es => cases hpiece
  · cases h

/-- What spells a piece is read as that piece, whatever follows. -/
theorem Piece.Spelled.readPiece_eq {stop : Option LexError} {p : Piece} {us : List Token}
    (h : p.Spelled us) {t : Token} {ts rest : List Token} (heq : t :: ts = us ++ rest) :
    readPiece stop t ts = .ok (p, rest) := by
  cases h with
  | text content =>
      obtain ⟨rfl, rfl⟩ := List.cons.inj heq
      rfl
  | @echo es hne =>
      rw [List.append_assoc] at heq
      obtain ⟨rfl, rfl⟩ := List.cons.inj heq
      refine readTag_eq_ok_iff.mpr ⟨.echo, .echo, es, rfl, rfl, ?_⟩
      obtain ⟨e, es, rfl⟩ := List.exists_cons_of_ne_nil hne
      rfl
  | @enter name header hname =>
      rw [List.append_assoc] at heq
      obtain ⟨rfl, rfl⟩ := List.cons.inj heq
      exact readTag_eq_ok_iff.mpr ⟨.name name, .enter, header.elements, rfl,
        Tag.ofHead?_enter hname, enterPiece_eq_ok_iff.mpr ⟨header, rfl, rfl⟩⟩
  | @leave name hname =>
      simp only [List.cons_append, List.nil_append, List.cons.injEq] at heq
      obtain ⟨rfl, rfl⟩ := heq
      have hread : readTag stop (.name name :: .tagClose :: rest) = .ok (.leave, rest) :=
        readTag_eq_ok_iff.mpr ⟨.name name, .leave, [], rfl, Tag.ofHead?_leave hname, rfl⟩
      exact hread

/-- **Which tokens a piece is read from**: exactly those it is written with. -/
theorem readPiece_eq_ok_iff {stop : Option LexError} {t : Token} {ts rest : List Token}
    {p : Piece} :
    readPiece stop t ts = .ok (p, rest) ↔ ∃ us, p.Spelled us ∧ t :: ts = us ++ rest := by
  constructor
  · exact exists_spelled_of_readPiece
  · rintro ⟨us, hspelled, heq⟩
    exact hspelled.readPiece_eq heq

/-! ### Putting pieces together -/

/-- What a builder makes of the tokens it has not seen yet. -/
def Builder.parseFrom (b : Builder) (stop : Option LexError) (ts : List Token) :
    Except ParseError Document :=
  match b.addAll (readPieces stop ts).pieces with
  | .error e => .error e
  | .ok b' =>
    match (readPieces stop ts).interruption with
    | some i => .error i.error
    | none => b'.finish

/-- Parsing starts from nothing. -/
theorem parseTokens_eq_parseFrom (stop : Option LexError) (ts : List Token) :
    parseTokens stop ts = Builder.empty.parseFrom stop ts := rfl

/-- At the end of the source the document is finished. -/
theorem Builder.parseFrom_nil (b : Builder) : b.parseFrom none [] = b.finish := by
  simp [Builder.parseFrom, readPieces, Builder.addAll]

/-- **One piece at a time**: the tokens of a piece add that piece. -/
theorem Builder.parseFrom_append {p : Piece} {us : List Token} (h : p.Spelled us) (b : Builder)
    (stop : Option LexError) (rest : List Token) :
    b.parseFrom stop (us ++ rest) = (b.add p).bind fun b' => b'.parseFrom stop rest := by
  obtain ⟨t, ts, hts⟩ : ∃ t ts, us ++ rest = t :: ts := by cases h <;> exact ⟨_, _, rfl⟩
  have hread : readPiece stop t ts = .ok (p, rest) := readPiece_eq_ok_iff.mpr ⟨us, h, hts.symm⟩
  have hpieces : readPieces stop (t :: ts) =
      { readPieces stop rest with pieces := p :: (readPieces stop rest).pieces } := by
    rw [readPieces]
    split <;> simp_all
  rw [hts]
  simp only [Builder.parseFrom, hpieces, Builder.addAll]
  cases b.add p <;> rfl

/-- A piece that is wrong on its own ends the reading. -/
theorem Builder.parseFrom_of_readPiece_eq_error {stop : Option LexError} {t : Token}
    {ts : List Token} {i : Interruption} (h : readPiece stop t ts = .error i) (b : Builder) :
    b.parseFrom stop (t :: ts) = .error i.error := by
  have hpieces : readPieces stop (t :: ts) = { pieces := [], interruption := some i } := by
    rw [readPieces]
    split <;> simp_all
  simp only [Builder.parseFrom, hpieces, Builder.addAll]

/-- Tokens that are read at all begin with those of a piece. -/
theorem Builder.exists_spelled_of_parseFrom {b : Builder} {stop : Option LexError} {t : Token}
    {ts : List Token} {d : Document} (h : b.parseFrom stop (t :: ts) = .ok d) :
    ∃ p us rest, Piece.Spelled p us ∧ t :: ts = us ++ rest := by
  cases hread : readPiece stop t ts with
  | ok read =>
      obtain ⟨p, rest⟩ := read
      obtain ⟨us, hus, hts⟩ := readPiece_eq_ok_iff.mp hread
      exact ⟨p, us, rest, hus, hts⟩
  | error i =>
      rw [Builder.parseFrom_of_readPiece_eq_error hread] at h
      cases h

/-! ### Derivations are followed -/

/-- A builder with more nodes collected. -/
def Builder.extend (b : Builder) (ns : List Node) : Builder :=
  { b with nodes := ns.reverse ++ b.nodes }

/-- **The builder follows derivations**: from any state, and whatever comes behind, the tokens of
nodes add these nodes. -/
theorem Derives.parseFrom_append {ts : List Token} {ns : List Node} (h : Derives ts ns)
    (b : Builder) (stop : Option LexError) (rest : List Token) :
    b.parseFrom stop (ts ++ rest) = (b.extend ns).parseFrom stop rest := by
  induction h generalizing b rest with
  | nil => rfl
  | text content => exact Builder.parseFrom_append (.text content) b stop rest
  | echo hne => exact Builder.parseFrom_append (.echo hne) b stop rest
  | @loop header enter leave ts body henter hleave _ ih =>
      have hopen := Builder.parseFrom_append (.enter header henter) b stop
        (ts ++ ([.tagOpen, .name leave, .tagClose] ++ rest))
      have hbody := ih { nodes := [], loops := (header, b.nodes) :: b.loops }
        ([.tagOpen, .name leave, .tagClose] ++ rest)
      have hclose := Builder.parseFrom_append (.leave hleave)
        { nodes := body.reverse, loops := (header, b.nodes) :: b.loops } stop rest
      rw [List.append_assoc, List.append_assoc, hopen]
      simp only [Builder.add, Except.bind]
      rw [hbody]
      simp only [Builder.extend, List.append_nil]
      rw [hclose]
      simp [Builder.add, Except.bind]
  | @append ts us ns ms _ _ ih₁ ih₂ =>
      rw [List.append_assoc, ih₁, ih₂]
      simp [Builder.extend]

/-! ### Builders hold derivations -/

/-- What a builder has understood of the tokens it has seen: nodes derived for the document, and
for each open loop its first tag and nodes derived for its body. -/
inductive Open : List Token → Builder → Prop
  | document {ts : List Token} {ns : List Node} :
      Derives ts ns → Open ts { nodes := ns.reverse, loops := [] }
  | loop (header : LoopHeader) {ts us : List Token} {ns : List Node} {b : Builder}
      {enter : Identifier} :
      Open ts b →
      enter.matchesWord "FOR" = true →
      Derives us ns →
      Open (ts ++ (.tagOpen :: .name enter :: header.elements.map Element.token ++ [.tagClose]) ++
        us) { nodes := ns.reverse, loops := (header, b.nodes) :: b.loops }

/-- A node derived from more tokens goes to the innermost open loop. -/
theorem Open.push {ts us : List Token} {b : Builder} {n : Node} (h : Open ts b)
    (hn : Derives us [n]) : Open (ts ++ us) (b.push n) := by
  cases h with
  | document hts =>
      have hmore := Open.document (hts.append hn)
      simpa [Builder.push] using hmore
  | loop header hb henter hts =>
      have hmore := Open.loop header hb henter (hts.append hn)
      simpa [Builder.push, List.append_assoc] using hmore

/-- **Every piece keeps what was understood.** -/
theorem Open.add {ts us : List Token} {b b' : Builder} {p : Piece} (h : Open ts b)
    (hp : p.Spelled us) (hadd : b.add p = .ok b') : Open (ts ++ us) b' := by
  cases hp with
  | text content =>
      cases hadd
      exact h.push (.text content)
  | echo hne =>
      cases hadd
      exact h.push (.echo hne)
  | enter header hname =>
      cases hadd
      have hmore := Open.loop header h hname Derives.nil
      simpa using hmore
  | leave hname =>
      cases h with
      | document hts => cases hadd
      | loop header hb henter hus =>
          cases hadd
          have hmore := hb.push (Derives.loop header henter hname hus)
          simpa [Builder.push, List.append_assoc] using hmore

/-- What a finished document was understood from derives it. -/
theorem Open.derives_of_finish {ts : List Token} {b : Builder} {d : Document} (h : Open ts b)
    (hd : b.finish = .ok d) : Derives ts d.children := by
  cases h with
  | document hts =>
      cases hd
      simpa using hts
  | loop => cases hd

/-- **Only derived tokens are accepted**: what was seen and what is still to come, together, derive
the document. -/
theorem Open.derives_of_parseFrom {ts us : List Token} {b : Builder} {d : Document}
    (h : Open ts b) (hd : b.parseFrom none us = .ok d) : Derives (ts ++ us) d.children := by
  induction hn : us.length using Nat.strong_induction_on generalizing ts us b with
  | _ n ih =>
      cases us with
      | nil =>
          rw [Builder.parseFrom_nil] at hd
          simpa using h.derives_of_finish hd
      | cons t us =>
          obtain ⟨p, vs, rest, hp, hus⟩ := Builder.exists_spelled_of_parseFrom hd
          rw [hus, Builder.parseFrom_append hp] at hd
          cases hadd : b.add p with
          | error e =>
              rw [hadd] at hd
              cases hd
          | ok b' =>
              rw [hadd] at hd
              have hlt : rest.length < n := by
                have hlen := congrArg List.length hus
                have hpos : 0 < vs.length := by cases hp <;> simp
                rw [List.length_append] at hlen
                omega
              have hder := ih rest.length hlt (h.add hp hadd) hd rfl
              rwa [List.append_assoc, ← hus] at hder

/-! ### The grammar of tokens and of sources -/

/-- **The parser recognises the grammar**: the tokens of a document are those that derive it. -/
theorem parseTokens_eq_ok_iff {ts : List Token} {d : Document} :
    parseTokens none ts = .ok d ↔ Derives ts d.children := by
  constructor
  · intro h
    have hder := (Open.document Derives.nil).derives_of_parseFrom h
    simpa using hder
  · intro h
    have hrun := h.parseFrom_append Builder.empty none []
    rw [List.append_nil, Builder.parseFrom_nil] at hrun
    rw [parseTokens_eq_parseFrom, hrun]
    simp [Builder.extend, Builder.empty, Builder.finish]

/-- Reading that was stopped by the lexer is interrupted, if not before. -/
theorem readPieces_interruption_ne_none (e : LexError) (ts : List Token) :
    (readPieces (some e) ts).interruption ≠ none := by
  fun_induction readPieces (some e) ts with
  | case1 => simp
  | case2 => simp
  | case3 t ts piece rest hread more ih => exact ih

/-- A source with a fault in it has no document. -/
theorem parseTokens_some_ne_ok (e : LexError) (ts : List Token) (d : Document) :
    parseTokens (some e) ts ≠ .ok d := by
  intro h
  simp only [parseTokens, Pieces.document] at h
  split at h
  · cases h
  split at h
  · cases h
  · rename_i hnone
    exact readPieces_interruption_ne_none e ts hnone

/-- A source has a document if it has tokens and these have one. -/
theorem parse_eq_ok_iff_parseTokens {source : String} {d : Document} :
    parse source = .ok d ↔ ∃ ts, tokenize source = .ok ts ∧ parseTokens none ts = .ok d := by
  simp only [parse, tokenize]
  cases herror : (Lexing.ofSource source).error? with
  | none => simp
  | some e => simpa using parseTokens_some_ne_ok e _ d

/-- No tokens derive two lists of nodes, since they have at most one document. -/
theorem Derives.unique {ts : List Token} {ns ms : List Node} (hns : Derives ts ns)
    (hms : Derives ts ms) : ns = ms := by
  have h₁ := parseTokens_eq_ok_iff (d := ⟨ns⟩).mpr hns
  have h₂ := parseTokens_eq_ok_iff (d := ⟨ms⟩).mpr hms
  rw [h₁] at h₂
  cases h₂
  rfl

/-- **The grammar of sources.** A source has a document exactly if it has tokens that derive the
document, and no tokens derive two. -/
theorem parse_eq_ok_iff_derives (source : String) (d : Document) :
    (parse source = .ok d ↔ ∃ ts, tokenize source = .ok ts ∧ Derives ts d.children) ∧
      ∀ ts ns ms, Derives ts ns → Derives ts ms → ns = ms := by
  refine ⟨?_, fun _ _ _ hns hms => hns.unique hms⟩
  simp only [parse_eq_ok_iff_parseTokens, parseTokens_eq_ok_iff]

/-- The names of tags in any case: a loop around a text, and no other tree. -/
theorem parse_eq_ok_iff_derives_loop :
    ∃ header ts, tokenize "\x7b$For i 1 k$\x7dx\x7b$end$\x7d" = .ok ts ∧
      ∀ ns, Derives ts ns ↔ ns = [.loop header [.text "x"]] := by
  obtain ⟨header, hparse⟩ : ∃ header, parse "\x7b$For i 1 k$\x7dx\x7b$end$\x7d" =
      .ok { children := [.loop header [.text "x"]] } := by
    refine ⟨⟨⟨"i", by decide⟩, ⟨.integer 1, rfl⟩, ⟨.var ⟨"k", by decide⟩, rfl⟩, none⟩, ?_⟩
    cbv
  obtain ⟨hiff, hunique⟩ := parse_eq_ok_iff_derives "\x7b$For i 1 k$\x7dx\x7b$end$\x7d" _
  obtain ⟨ts, hts, hderives⟩ := hiff.mp hparse
  refine ⟨header, ts, hts, fun ns => ⟨fun h => hunique ts _ _ h hderives, ?_⟩⟩
  rintro rfl
  exact hderives

end TagTemplate
