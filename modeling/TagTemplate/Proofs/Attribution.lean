import TagTemplate.Proofs.Shape
import TagTemplate.Proofs.Stages

/-!
# Which fault is reported

A source that has tokens is no template if one of its tags is wrong, or if its loops do not fit
together. This module says which of several faults is reported, and in terms of the tags in a row
alone. `ownFault` is what is wrong with a tag whatever stands around it; `refusal` adds the end of
a loop where none is open. The first tag that is refused is the error. If none is refused the loops
that are left open are, and if there are none the source has a document, in which loops are as deep
within each other as the excess of beginnings over ends gets among the first tags.

The parser looks at one token after the other, and behind tags that are accepted it has as many
loops open as tags have begun and not ended one (`exists_builder_of_accepted`). One tag more either
is the tag of a piece, and then all depends on whether the piece fits (`Builder.add_of_spelled`), or
it is wrong on its own, and then its error does not depend on anything else
(`exists_error_of_ownFault`). How deep the loops of a document are is read off its derivation.

## Main results

* `exists_spelled_of_ownFault`, `exists_error_of_ownFault`: tags on their own.
* `exists_error_of_refusal`: tags that are refused.
* `exists_builder_of_accepted`: the parser behind tags that are not.
* `Derives.exists_isPeak`: how deep loops are.
* `parse_attribution`: which fault is reported.
-/

namespace TagTemplate

/-! ### Tags in a row -/

/-- The tags among tokens, each as what stands between its opener and the closing mark. -/
def tagsOf : List Token → List (List Token)
  | [] => []
  | .tagOpen :: ts => ts.takeWhile (· != .tagClose) :: tagsOf ts
  | _ :: ts => tagsOf ts

/-- Whether a token is that name, in any case of letters. -/
def Token.names (word : String) : Token → Bool
  | .name n => n.matchesWord word
  | _ => false

/-- Whether a tag is named as the beginning of a loop. -/
def entersLoop (tag : List Token) : Bool := tag.head?.any (Token.names "FOR")

/-- Whether a tag is named as the end of a loop. -/
def leavesLoop (tag : List Token) : Bool := tag.head?.any (Token.names "END")

/-- By how many the beginnings of loops outnumber the ends among tags. -/
def excess (tags : List (List Token)) : Int := tags.countP entersLoop - tags.countP leavesLoop

/-- Tokens that can bound a loop. -/
def Token.isBound : Token → Bool
  | .name _ | .integer _ | .double _ => true
  | _ => false

/-- Tokens that make the header of a loop: a variable, and two or three bounds. -/
def isHeader : List Token → Bool
  | .name _ :: bounds => (bounds.length == 2 || bounds.length == 3) && bounds.all Token.isBound
  | _ => false

/-- Whether elements do not fit behind the name of a tag: an echo tag has some, the beginning of a
loop has a header, the end of a loop has none. -/
def misfits (head : Token) (elements : List Token) : Bool :=
  (head == .echo && elements.isEmpty) || (head.names "FOR" && !isHeader elements) ||
    (head.names "END" && !elements.isEmpty)

/-- **What is wrong with a tag on its own**: its name, or else an equals sign among its elements, or
else their number or sort. -/
def ownFault : List Token → Option ParseErrorKind
  | [] => some .unsupportedTag
  | head :: elements =>
    if head ≠ .echo ∧ head.names "FOR" = false ∧ head.names "END" = false then
      some .unsupportedTag
    else if .echo ∈ elements then some .unexpectedToken
    else if misfits head elements then some .invalidArguments
    else none

/-- What is wrong with a tag where so many loops are open. -/
def refusal (loops : Int) (tag : List Token) : Option ParseErrorKind :=
  match ownFault tag with
  | some kind => some kind
  | none => if leavesLoop tag = true ∧ loops ≤ 0 then some .unmatchedEnd else none

/-- Nothing is wrong with any of the tags, behind those in front of it. -/
def Accepted (tags : List (List Token)) : Prop :=
  ∀ before tag, before ++ [tag] <+: tags → refusal (excess before) tag = none

/-- It is enough to look at each tag once. -/
theorem accepted_iff {tags : List (List Token)} :
    Accepted tags ↔ ∀ i : Fin tags.length, refusal (excess (tags.take i)) tags[i] = none := by
  constructor
  · intro h i
    exact h _ _ (by rw [Fin.getElem_fin, List.take_concat_get']; exact List.take_prefix _ _)
  · rintro h before tag ⟨after, rfl⟩
    have htag := h ⟨before.length, by simp⟩
    simpa using htag

instance (tags : List (List Token)) : Decidable (Accepted tags) :=
  decidable_of_iff _ accepted_iff.symm

/-- Tags in front of tags. -/
theorem excess_append (tags more : List (List Token)) :
    excess (tags ++ more) = excess tags + excess more := by
  simp only [excess, List.countP_append]
  omega

/-- The beginning of a loop counts for one. -/
theorem excess_enter {name : Identifier} (h : name.matchesWord "FOR" = true)
    (elements : List Token) : excess [.name name :: elements] = 1 := by
  simp [excess, entersLoop, leavesLoop, Token.names, h, matchesWord_leave_of_enter h]

/-- The end of a loop counts against one. -/
theorem excess_leave {name : Identifier} (h : name.matchesWord "END" = true)
    (elements : List Token) : excess [.name name :: elements] = -1 := by
  simp [excess, entersLoop, leavesLoop, Token.names, h, matchesWord_enter_of_leave h]

/-- Where tags are accepted the first ones are, and so is the last one behind them. -/
theorem Accepted.of_concat {tags : List (List Token)} {tag : List Token}
    (h : Accepted (tags ++ [tag])) : Accepted tags ∧ refusal (excess tags) tag = none :=
  ⟨fun before t hfirst => h before t (hfirst.trans (List.prefix_append tags [tag])),
    h tags tag (List.prefix_refl _)⟩

/-! ### Tokens cut into tags -/

/-- What can stand in a tag, up to the closing mark. -/
def IsInside (tag : List Token) : Prop := ∀ t ∈ tag, t.isTagContent = true ∧ t ≠ .tagClose

/-- Tokens cut into tags, with texts in front of each and behind the last. -/
inductive Cut : List Token → List (List Token) → Prop
  | texts (contents : List String) : Cut (contents.map .text) []
  | tag (contents : List String) {tag ts : List Token} {tags : List (List Token)} :
      IsInside tag → Cut ts tags →
      Cut (contents.map .text ++ .tagOpen :: (tag ++ .tagClose :: ts)) (tag :: tags)

/-- A tag alone. -/
theorem Cut.single {tag : List Token} (h : IsInside tag) :
    Cut (.tagOpen :: (tag ++ [.tagClose])) [tag] :=
  .tag [] h (.texts [])

/-- Texts in front. -/
theorem Cut.texts_append (contents : List String) {ts : List Token} {tags : List (List Token)}
    (h : Cut ts tags) : Cut (contents.map .text ++ ts) tags := by
  cases h with
  | texts more =>
      rw [← List.map_append]
      exact .texts (contents ++ more)
  | tag more hinside hcut =>
      rw [← List.append_assoc, ← List.map_append]
      exact .tag (contents ++ more) hinside hcut

/-- Tokens in front of tokens have their tags in front of their tags. -/
theorem Cut.append {ts us : List Token} {tags more : List (List Token)} (h : Cut ts tags)
    (hmore : Cut us more) : Cut (ts ++ us) (tags ++ more) := by
  induction h with
  | texts contents => exact hmore.texts_append contents
  | tag contents hinside hcut ih =>
      have htag := Cut.tag contents hinside ih
      simpa using htag

/-- No tag begins inside a tag. -/
theorem tagsOf_append_of_isInside {tag : List Token} (h : IsInside tag) (ts : List Token) :
    tagsOf (tag ++ .tagClose :: ts) = tagsOf ts := by
  induction tag with
  | nil => rfl
  | cons t tag ih =>
      obtain ⟨hcontent, -⟩ := h t (by simp)
      have hrest := ih fun u hu => h u (by simp [hu])
      cases t <;> simp_all [tagsOf, Token.isTagContent]

/-- No tag begins in texts. -/
theorem tagsOf_texts_append (contents : List String) (ts : List Token) :
    tagsOf (contents.map .text ++ ts) = tagsOf ts := by
  induction contents with
  | nil => rfl
  | cons content contents ih => rw [List.map_cons, List.cons_append, tagsOf, ih]; simp

/-- What tokens are cut into are their tags. -/
theorem Cut.tagsOf_eq {ts : List Token} {tags : List (List Token)} (h : Cut ts tags) :
    tagsOf ts = tags := by
  induction h with
  | texts contents =>
      have htexts := tagsOf_texts_append contents []
      rwa [List.append_nil] at htexts
  | @tag contents tag ts tags hinside hcut ih =>
      have hopen : ∀ t ∈ tag, (t != .tagClose) = true := fun t ht => by simp [(hinside t ht).2]
      rw [tagsOf_texts_append, tagsOf, tagsOf_append_of_isInside hinside, ih,
        List.takeWhile_append_of_pos hopen]
      simp

/-- Text or nothing is a list of texts. -/
theorem exists_map_text_of_mem {w : List Token} (h : w ∈ 1 + textRun) :
    ∃ contents : List String, w = contents.map .text := by
  rcases h with hnil | ⟨content, -, rfl⟩
  · exact ⟨[], hnil⟩
  · exact ⟨[content], rfl⟩

/-- A tag with text in front of it or without is cut into one tag. -/
theorem exists_cut_of_mem_tagged {w : List Token} (h : w ∈ (1 + textRun) * tagShape) :
    ∃ tags, Cut w tags := by
  obtain ⟨text, htext, tag, htag, rfl⟩ := Language.mem_mul.mp h
  obtain ⟨opener, hopen, rest, hrest, rfl⟩ := Language.mem_mul.mp htag
  obtain ⟨inside, hinside, closer, hclose, rfl⟩ := Language.mem_mul.mp hrest
  obtain rfl : opener = [.tagOpen] := hopen
  obtain rfl : closer = [.tagClose] := hclose
  obtain ⟨parts, rfl, hparts⟩ := Language.mem_kstar.mp hinside
  obtain ⟨contents, rfl⟩ := exists_map_text_of_mem htext
  have htokens : IsInside parts.flatten := by
    intro t ht
    obtain ⟨part, hpart, hmem⟩ := List.mem_flatten.mp ht
    obtain ⟨u, hcontent, hne, rfl⟩ := hparts part hpart
    obtain rfl := List.mem_singleton.mp hmem
    exact ⟨hcontent, hne⟩
  exact ⟨_, (Cut.single htokens).texts_append contents⟩

/-- **Tokens in the shape of a template are cut into their tags.** -/
theorem cut_tagsOf {ts : List Token} (h : ts ∈ templateShape) : Cut ts (tagsOf ts) := by
  suffices hcut : ∃ tags, Cut ts tags by
    obtain ⟨tags, hcut⟩ := hcut
    rwa [hcut.tagsOf_eq]
  obtain ⟨tagged, htagged, text, htext, rfl⟩ := Language.mem_mul.mp h
  obtain ⟨parts, rfl, hparts⟩ := Language.mem_kstar.mp htagged
  clear htagged h
  induction parts with
  | nil =>
      obtain ⟨contents, rfl⟩ := exists_map_text_of_mem htext
      exact ⟨[], .texts contents⟩
  | cons part parts ih =>
      obtain ⟨tags, htags⟩ := exists_cut_of_mem_tagged (hparts part (by simp))
      obtain ⟨more, hmore⟩ := ih fun w hw => hparts w (by simp [hw])
      rw [List.flatten_cons, List.append_assoc]
      exact ⟨tags ++ more, htags.append hmore⟩

/-! ### Tags on their own -/

/-- Heads that are no names of tags. -/
theorem Tag.ofHead?_eq_none_iff {head : Token} :
    Tag.ofHead? head = none ↔
      head ≠ .echo ∧ head.names "FOR" = false ∧ head.names "END" = false := by
  cases head with
  | name n =>
      cases hfor : n.matchesWord "FOR" <;> cases hend : n.matchesWord "END" <;>
        simp [Tag.ofHead?, Token.names, Tag.text, hfor, hend]
  | _ => simp [Tag.ofHead?, Token.names]

/-- What is in a tag, without an equals sign, stands for elements. -/
theorem IsInside.exists_elements {ts : List Token} (h : IsInside ts) (hecho : .echo ∉ ts) :
    ∃ es : List Element, ts = es.map Element.token := by
  induction ts with
  | nil => exact ⟨[], rfl⟩
  | cons t ts ih =>
      rw [List.mem_cons, not_or] at hecho
      obtain ⟨es, rfl⟩ := ih (fun u hu => h u (by simp [hu])) hecho.2
      obtain ⟨e, he⟩ : ∃ e, t.element? = some e := by
        obtain ⟨hcontent, hne⟩ := h t (by simp)
        cases t <;> simp_all [Token.isTagContent, Token.element?]
      exact ⟨e :: es, by rw [List.map_cons, Token.element?_eq_some_iff.mp he]⟩

/-- An equals sign among the elements of a tag is the first thing that is wrong there. -/
theorem readArguments_of_echo_mem {ts : List Token} (h : IsInside ts) (hecho : .echo ∈ ts)
    (stop : Option LexError) (tag : Tag) (rest : List Token) :
    ∃ unread, readArguments stop tag (ts ++ rest) =
      .error ⟨.unexpectedInTag .echo tag, unread⟩ := by
  induction ts with
  | nil => cases hecho
  | cons t ts ih =>
      by_cases ht : t = .echo
      · subst ht
        exact ⟨ts ++ rest, rfl⟩
      · have hmem : .echo ∈ ts := (List.mem_cons.mp hecho).resolve_left (Ne.symm ht)
        obtain ⟨unread, hread⟩ := ih (fun u hu => h u (by simp [hu])) hmem
        obtain ⟨hcontent, hne⟩ := h t (by simp)
        refine ⟨unread, ?_⟩
        cases t <;> simp_all [readArguments, Token.element?, Token.isTagContent]

/-- Tokens of elements can stand in a tag. -/
theorem isInside_map_token (es : List Element) : IsInside (es.map Element.token) := by
  intro t ht
  obtain ⟨e, -, rfl⟩ := List.mem_map.mp ht
  cases e <;> simp [Element.token, Token.isTagContent]

/-- Tokens behind a variable make a header as their elements do. -/
theorem isHeader_var_cons_iff {v : Identifier} {bounds : List Element} :
    isHeader ((Element.var v :: bounds).map Element.token) = true ↔
      (bounds.length = 2 ∨ bounds.length = 3) ∧ ∀ e ∈ bounds, e.isBound = true := by
  have hbound (e : Element) : e.token.isBound = e.isBound := by cases e <;> rfl
  simp [Element.token.eq_4, isHeader, hbound]

/-- **Headers of loops** are made of a variable, two bounds and maybe a third. -/
theorem isHeader_map_token_iff {es : List Element} :
    isHeader (es.map Element.token) = true ↔ ∃ header : LoopHeader, es = header.elements := by
  constructor
  · intro h
    cases es with
    | nil => cases h
    | cons e es =>
        obtain ⟨v, rfl⟩ : ∃ v, e = .var v := by
          cases e with
          | var v => exact ⟨v, rfl⟩
          | _ => cases h
        obtain ⟨hlength, hbound⟩ := isHeader_var_cons_iff.mp h
        rcases hlength with htwo | hthree
        · obtain ⟨a, b, rfl⟩ := List.length_eq_two.mp htwo
          exact ⟨⟨v, ⟨a, hbound a (by simp)⟩, ⟨b, hbound b (by simp)⟩, none⟩, rfl⟩
        · obtain ⟨a, b, c, rfl⟩ := List.length_eq_three.mp hthree
          exact ⟨⟨v, ⟨a, hbound a (by simp)⟩, ⟨b, hbound b (by simp)⟩,
            some ⟨c, hbound c (by simp)⟩⟩, rfl⟩
  · rintro ⟨⟨var, start, stop, step⟩, rfl⟩
    refine isHeader_var_cons_iff.mpr ?_
    cases step with
    | none => simp [start.isBound_element, stop.isBound_element]
    | some step => simp [start.isBound_element, stop.isBound_element, step.isBound_element]

/-- Elements do not fit behind a name exactly if they make no piece. -/
theorem misfits_map_token_iff {head : Token} {tag : Tag} (h : Tag.ofHead? head = some tag)
    {es : List Element} :
    misfits head (es.map Element.token) = true ↔ ∃ e, tag.piece es = .error e := by
  rcases Tag.cases_of_ofHead? h with
    ⟨rfl, rfl⟩ | ⟨name, rfl, hname, rfl⟩ | ⟨name, rfl, hname, rfl⟩
  · cases es <;> simp [misfits, Token.names, Tag.piece, echoPiece]
  · have hend := matchesWord_leave_of_enter hname
    have hmisfits : misfits (.name name) (es.map Element.token) = true ↔
        ¬ ∃ header : LoopHeader, es = header.elements := by
      rw [← isHeader_map_token_iff]
      simp [misfits, Token.names, hname, hend]
    rw [hmisfits]
    cases hpiece : enterPiece es with
    | ok p =>
        obtain ⟨header, -, hes⟩ := enterPiece_eq_ok_iff.mp hpiece
        simpa [Tag.piece, hpiece] using ⟨header, hes⟩
    | error e =>
        refine iff_of_true ?_ ⟨e, hpiece⟩
        rintro ⟨header, hes⟩
        rw [enterPiece_eq_ok_iff.mpr ⟨header, rfl, hes⟩] at hpiece
        cases hpiece
  · have hfor := matchesWord_enter_of_leave hname
    cases es <;> simp [misfits, Token.names, Tag.piece, leavePiece, hname, hfor]

/-- **Tags that are right on their own** are the tags of pieces. -/
theorem exists_spelled_of_ownFault {tag : List Token} (hinside : IsInside tag)
    (h : ownFault tag = none) :
    ∃ p : Piece, p.Spelled (.tagOpen :: (tag ++ [.tagClose])) := by
  cases tag with
  | nil => cases h
  | cons head elements =>
      simp only [ownFault, ← Tag.ofHead?_eq_none_iff] at h
      split at h
      · cases h
      split at h
      · cases h
      split at h
      · cases h
      rename_i hhead hecho hmisfits
      obtain ⟨name, hname⟩ := Option.ne_none_iff_exists'.mp hhead
      obtain ⟨es, rfl⟩ := IsInside.exists_elements ((List.forall_mem_cons.mp hinside).2) hecho
      rw [misfits_map_token_iff hname] at hmisfits
      cases hpiece : name.piece es with
      | error e => exact absurd ⟨e, hpiece⟩ hmisfits
      | ok p =>
          have hread : readPiece none .tagOpen (head :: (es.map Element.token ++ [.tagClose])) =
              .ok (p, []) := by
            rw [readPiece]
            exact readTag_eq_ok_iff.mpr ⟨head, name, es, rfl, hname, hpiece⟩
          obtain ⟨us, hspelled, hus⟩ := exists_spelled_of_readPiece hread
          rw [List.append_nil] at hus
          exact ⟨p, hus ▸ hspelled⟩

/-- **Tags that are wrong on their own** are refused whatever follows, with an error that is theirs
alone. -/
theorem exists_error_of_ownFault {tag : List Token} {kind : ParseErrorKind}
    (hinside : IsInside tag) (h : ownFault tag = some kind) :
    ∃ e : ParseError, e.kind = kind ∧ ∀ stop rest, ∃ unread,
      readTag stop (tag ++ .tagClose :: rest) = .error ⟨e, unread⟩ := by
  cases tag with
  | nil =>
      cases h
      exact ⟨.unsupportedTag .tagClose, rfl, fun stop rest => ⟨rest, rfl⟩⟩
  | cons head elements =>
      have helements : IsInside elements := (List.forall_mem_cons.mp hinside).2
      simp only [ownFault, ← Tag.ofHead?_eq_none_iff] at h
      cases hhead : Tag.ofHead? head with
      | none =>
          rw [if_pos hhead] at h
          cases h
          refine ⟨.unsupportedTag head, rfl, fun stop rest => ⟨elements ++ .tagClose :: rest, ?_⟩⟩
          simp only [List.cons_append, readTag, hhead]
      | some name =>
          rw [if_neg (by simp [hhead])] at h
          by_cases hecho : .echo ∈ elements
          · rw [if_pos hecho] at h
            cases h
            refine ⟨.unexpectedInTag .echo name, rfl, fun stop rest => ?_⟩
            obtain ⟨unread, hread⟩ :=
              readArguments_of_echo_mem helements hecho stop name (.tagClose :: rest)
            exact ⟨unread, by simp only [List.cons_append, readTag, hhead, hread]⟩
          · obtain ⟨es, rfl⟩ := helements.exists_elements hecho
            rw [if_neg hecho] at h
            split at h
            · rename_i hmisfits
              cases h
              obtain ⟨e, hpiece⟩ := (misfits_map_token_iff hhead).mp hmisfits
              refine ⟨e, Tag.kind_of_piece_eq_error hpiece, fun stop rest => ⟨rest, ?_⟩⟩
              simp only [List.cons_append, readTag, hhead, readArguments_map_token, hpiece]
            · cases h

/-! ### The parser behind tags -/

/-- **One tag more.** The end of a loop where none is open does not fit; any other tag of a piece
does, and changes the number of open loops by what it counts for. -/
theorem Builder.add_of_spelled {p : Piece} {tag : List Token}
    (h : p.Spelled (.tagOpen :: (tag ++ [.tagClose]))) (b : Builder) :
    (leavesLoop tag = true ∧ b.depth = 0 ∧ b.add p = .error .unmatchedLeave) ∨
    (¬ (leavesLoop tag = true ∧ b.depth = 0) ∧
      ∃ b', b.add p = .ok b' ∧ (b'.depth : Int) = b.depth + excess [tag]) := by
  generalize hus : .tagOpen :: (tag ++ [.tagClose]) = us at h
  cases h with
  | text content => cases hus
  | echo hne =>
      obtain rfl := List.append_cancel_right (List.cons.inj hus).2
      exact Or.inr ⟨by simp [leavesLoop, Token.names], _, rfl, (add_zero _).symm⟩
  | @enter name header hname =>
      obtain rfl := List.append_cancel_right (List.cons.inj hus).2
      have hleaves : leavesLoop (.name name :: header.elements.map Element.token) = false :=
        matchesWord_leave_of_enter hname
      rw [excess_enter hname, hleaves]
      exact Or.inr ⟨by simp, _, rfl, by simp [Builder.depth]⟩
  | @leave name hname =>
      have htag : tag ++ [.tagClose] = [.name name] ++ [.tagClose] := (List.cons.inj hus).2
      obtain rfl := List.append_cancel_right htag
      rw [excess_leave hname]
      cases hloops : b.loops with
      | nil => exact Or.inl ⟨hname, by simp [Builder.depth, hloops], by simp [Builder.add, hloops]⟩
      | cons loop outer =>
          refine Or.inr ⟨by simp [Builder.depth, hloops],
            ⟨.loop loop.1 b.nodes.reverse :: loop.2, outer⟩, by simp [Builder.add, hloops], ?_⟩
          simp [Builder.depth, hloops]

/-- The tag of a piece adds that piece. -/
theorem Builder.parseFrom_tag_append {p : Piece} {tag : List Token}
    (h : p.Spelled (.tagOpen :: (tag ++ [.tagClose]))) (b : Builder) (rest : List Token) :
    b.parseFrom none (.tagOpen :: (tag ++ .tagClose :: rest)) =
      (b.add p).bind fun b' => b'.parseFrom none rest := by
  rw [← Builder.parseFrom_append h]
  simp

/-- **Tags that are refused** where so many loops are open are refused wherever no more are, with an
error that does not depend on anything else. -/
theorem exists_error_of_refusal {tag : List Token} {kind : ParseErrorKind} {n : Nat}
    (hinside : IsInside tag) (h : refusal n tag = some kind) :
    ∃ e : ParseError, e.kind = kind ∧ ∀ b : Builder, b.depth ≤ n → ∀ rest,
      b.parseFrom none (.tagOpen :: (tag ++ .tagClose :: rest)) = .error e := by
  simp only [refusal] at h
  split at h
  · rename_i own hown
    cases h
    obtain ⟨e, hkind, hread⟩ := exists_error_of_ownFault hinside hown
    refine ⟨e, hkind, fun b _ rest => ?_⟩
    obtain ⟨unread, hread⟩ := hread none rest
    have hpiece : readPiece none .tagOpen (tag ++ .tagClose :: rest) = .error ⟨e, unread⟩ := hread
    exact Builder.parseFrom_of_readPiece_eq_error hpiece b
  · rename_i hown
    split at h
    · rename_i hunmatched
      cases h
      obtain ⟨p, hp⟩ := exists_spelled_of_ownFault hinside hown
      refine ⟨.unmatchedLeave, rfl, fun b hb rest => ?_⟩
      have hdepth : b.depth = 0 := by omega
      rcases b.add_of_spelled hp with ⟨-, -, hadd⟩ | ⟨hfits, -⟩
      · rw [Builder.parseFrom_tag_append hp, hadd]
        rfl
      · exact absurd ⟨hunmatched.1, hdepth⟩ hfits
    · cases h

/-- Tags that are not refused are read, and change the number of open loops by what they count
for. -/
theorem exists_builder_of_refusal {tag : List Token} {b : Builder} (hinside : IsInside tag)
    (h : refusal b.depth tag = none) :
    ∃ b' : Builder, (b'.depth : Int) = b.depth + excess [tag] ∧ ∀ rest,
      b.parseFrom none (.tagOpen :: (tag ++ .tagClose :: rest)) = b'.parseFrom none rest := by
  simp only [refusal] at h
  split at h
  · cases h
  · rename_i hown
    obtain ⟨p, hp⟩ := exists_spelled_of_ownFault hinside hown
    rcases b.add_of_spelled hp with ⟨hleaves, hdepth, -⟩ | ⟨-, b', hadd, hdepth⟩
    · rw [if_pos ⟨hleaves, by omega⟩] at h
      cases h
    · refine ⟨b', hdepth, fun rest => ?_⟩
      rw [Builder.parseFrom_tag_append hp, hadd]
      rfl

/-- Texts are added as they are. -/
theorem Builder.parseFrom_texts_append (b : Builder) (contents : List String) (ts : List Token) :
    ∃ b' : Builder, b'.depth = b.depth ∧
      b.parseFrom none (contents.map .text ++ ts) = b'.parseFrom none ts := by
  induction contents generalizing b with
  | nil => exact ⟨b, rfl, rfl⟩
  | cons content contents ih =>
      obtain ⟨b', hdepth, hrun⟩ := ih (b.push (.text content))
      have htext := Builder.parseFrom_append (.text content) b none (contents.map .text ++ ts)
      exact ⟨b', hdepth, htext.trans hrun⟩

/-- **The parser behind tags** that are accepted has as many loops open as tags have begun and not
ended one. The induction is on these tags from the first to the last. -/
theorem exists_builder_of_accepted {ts : List Token} {before after : List (List Token)}
    (hcut : Cut ts (before ++ after)) (h : Accepted before) :
    ∃ (b : Builder) (us : List Token), (b.depth : Int) = excess before ∧ Cut us after ∧
      parseTokens none ts = b.parseFrom none us := by
  induction before using List.reverseRecOn generalizing after with
  | nil => exact ⟨Builder.empty, ts, rfl, hcut, rfl⟩
  | append_singleton before tag ih =>
      obtain ⟨hbefore, haccepted⟩ := h.of_concat
      rw [List.append_assoc, List.singleton_append] at hcut
      obtain ⟨b, us, hdepth, hus, hrun⟩ := ih hcut hbefore
      cases hus with
      | tag contents hinside hrest =>
          obtain ⟨b₁, hdepth₁, hrun₁⟩ := b.parseFrom_texts_append contents _
          rw [← hdepth, ← hdepth₁] at haccepted
          obtain ⟨b₂, hdepth₂, hrun₂⟩ := exists_builder_of_refusal hinside haccepted
          refine ⟨b₂, _, ?_, hrest, by rw [hrun, hrun₁, hrun₂]⟩
          rw [hdepth₂, excess_append]
          omega

/-! ### How deep loops are -/

mutual

/-- How many loops are within each other in a node, at most. -/
def Node.nesting : Node → Nat
  | .text _ => 0
  | .echo _ => 0
  | .loop _ body => Node.nestingAll body + 1

/-- How many loops are within each other in nodes, at most. -/
def Node.nestingAll : List Node → Nat
  | [] => 0
  | n :: ns => max n.nesting (Node.nestingAll ns)

end

/-- How many loops are within each other in a document, at most. -/
def Document.nesting (d : Document) : Nat := Node.nestingAll d.children

/-- The greatest excess that the first tags get to, however many are taken. -/
def IsPeak (tags : List (List Token)) (n : Int) : Prop :=
  IsGreatest {m | ∃ before, before <+: tags ∧ excess before = m} n

/-- Nodes in front of nodes are as deep as the deeper ones. -/
theorem Node.nestingAll_append (ns ms : List Node) :
    Node.nestingAll (ns ++ ms) = max (Node.nestingAll ns) (Node.nestingAll ms) := by
  induction ns with
  | nil => simp [Node.nestingAll]
  | cons n ns ih => rw [List.cons_append, Node.nestingAll, Node.nestingAll, ih, max_assoc]

/-- Without a tag there is nothing to count. -/
theorem isPeak_nil : IsPeak [] 0 := by
  refine ⟨⟨[], List.prefix_refl [], rfl⟩, ?_⟩
  rintro m ⟨before, hbefore, rfl⟩
  rw [List.prefix_nil.mp hbefore]
  rfl

/-- One tag is counted, or none. -/
theorem isPeak_singleton (tag : List Token) : IsPeak [tag] (max 0 (excess [tag])) := by
  constructor
  · rcases max_choice 0 (excess [tag]) with hmax | hmax
    · exact ⟨[], List.nil_prefix, hmax.symm⟩
    · exact ⟨[tag], List.prefix_refl _, hmax.symm⟩
  · rintro m ⟨before, hbefore, rfl⟩
    have hconcat : before <+: [] ++ [tag] := hbefore
    rcases List.prefix_concat_iff.mp hconcat with rfl | hnil
    · exact le_max_right _ _
    · rw [List.prefix_nil.mp hnil]
      exact le_max_left _ _

/-- **Tags in a row** get as far as the ones do, or the others behind all of the ones. -/
theorem IsPeak.append {tags more : List (List Token)} {m n : Int} (h : IsPeak tags m)
    (hmore : IsPeak more n) : IsPeak (tags ++ more) (max m (excess tags + n)) := by
  obtain ⟨⟨first, hfirst, rfl⟩, hle⟩ := h
  obtain ⟨⟨second, hsecond, rfl⟩, hmorele⟩ := hmore
  constructor
  · rcases max_choice (excess first) (excess tags + excess second) with hmax | hmax
    · exact ⟨first, hfirst.trans (List.prefix_append tags more), hmax.symm⟩
    · refine ⟨tags ++ second, (List.prefix_append_right_inj tags).mpr hsecond, ?_⟩
      rw [hmax, excess_append]
  · rintro m ⟨before, ⟨rest, hrest⟩, rfl⟩
    rcases List.append_eq_append_iff.mp hrest with ⟨left, rfl, -⟩ | ⟨taken, rfl, rfl⟩
    · exact le_max_of_le_left (hle ⟨before, List.prefix_append _ _, rfl⟩)
    · rw [excess_append]
      have htaken := hmorele ⟨taken, List.prefix_append _ _, rfl⟩
      exact le_max_of_le_right (by omega)

/-- The tags of a loop within the greatest excess of what is between them. -/
theorem IsPeak.enclose {enter leave : List Token} {tags : List (List Token)} {n : Nat}
    (h : IsPeak tags n) (htags : excess tags = 0) (henter : excess [enter] = 1)
    (hleave : excess [leave] = -1) :
    excess ([enter] ++ tags ++ [leave]) = 0 ∧ IsPeak ([enter] ++ tags ++ [leave]) (n + 1) := by
  have hpeak := ((isPeak_singleton enter).append h).append (isPeak_singleton leave)
  simp only [excess_append, henter, hleave, htags] at hpeak ⊢
  refine ⟨rfl, ?_⟩
  convert hpeak using 1
  omega

/-- **Derived tokens** have as many beginnings as ends of loops, and get as far in between as loops
are within each other. -/
theorem Derives.exists_isPeak {ts : List Token} {ns : List Node} (h : Derives ts ns) :
    ∃ tags, Cut ts tags ∧ excess tags = 0 ∧ IsPeak tags (Node.nestingAll ns) := by
  induction h with
  | nil => exact ⟨[], .texts [], rfl, isPeak_nil⟩
  | text content => exact ⟨[], .texts [content], rfl, isPeak_nil⟩
  | @echo es hne =>
      have hinside : IsInside (.echo :: es.map Element.token) :=
        List.forall_mem_cons.mpr ⟨⟨rfl, by simp⟩, isInside_map_token es⟩
      exact ⟨_, Cut.single hinside, rfl, isPeak_singleton _⟩
  | @loop header enter leave ts body henter hleave _ ih =>
      obtain ⟨tags, hcut, hexcess, hpeak⟩ := ih
      have hopening : IsInside (.name enter :: header.elements.map Element.token) :=
        List.forall_mem_cons.mpr ⟨⟨rfl, by simp⟩, isInside_map_token _⟩
      have hclosing : IsInside [.name leave] := by simp [IsInside, Token.isTagContent]
      have hloop := hpeak.enclose hexcess
        (excess_enter henter (header.elements.map Element.token)) (excess_leave hleave [])
      exact ⟨_, ((Cut.single hopening).append hcut).append (Cut.single hclosing), hloop.1,
        by simpa [Node.nestingAll, Node.nesting] using hloop.2⟩
  | @append ts us ns ms _ _ ih₁ ih₂ =>
      obtain ⟨tags, hcut, hexcess, hpeak⟩ := ih₁
      obtain ⟨more, hcut', hexcess', hpeak'⟩ := ih₂
      refine ⟨tags ++ more, hcut.append hcut', by rw [excess_append, hexcess, hexcess']; rfl, ?_⟩
      have hboth := hpeak.append hpeak'
      rwa [hexcess, zero_add, ← Nat.cast_max, ← Node.nestingAll_append] at hboth

/-! ### Whole sources -/

/-- Where a source has tokens only these matter. -/
theorem parse_eq_parseTokens {source : String} {ts : List Token} (h : tokenize source = .ok ts) :
    parse source = parseTokens none ts := by
  simp only [tokenize] at h
  simp only [parse]
  split at h
  · cases h
  · rename_i herror
    cases h
    rw [herror]

/-- **The first tag that is refused** is the error. -/
theorem exists_error_of_cut {ts tag : List Token} {before after : List (List Token)}
    {kind : ParseErrorKind} (hcut : Cut ts (before ++ tag :: after)) (hbefore : Accepted before)
    (h : refusal (excess before) tag = some kind) :
    ∃ e : ParseError, parseTokens none ts = .error e ∧ e.kind = kind ∧
      parseTokens none (.tagOpen :: (tag ++ [.tagClose])) = .error e := by
  obtain ⟨b, us, hdepth, hus, hrun⟩ := exists_builder_of_accepted hcut hbefore
  cases hus with
  | tag contents hinside hrest =>
      obtain ⟨b', hdepth', hrun'⟩ := b.parseFrom_texts_append contents _
      rw [← hdepth, ← hdepth'] at h
      obtain ⟨e, hkind, herror⟩ := exists_error_of_refusal hinside h
      refine ⟨e, ?_, hkind, herror Builder.empty (Nat.zero_le _) []⟩
      rw [hrun, hrun', herror b' le_rfl]

/-- Loops that are open are an error at the end. -/
theorem Builder.finish_of_depth_pos {b : Builder} (h : 0 < b.depth) :
    b.finish = .error (.unclosedLoops b.depth) := by
  have hloops : b.loops ≠ [] := List.ne_nil_of_length_pos h
  simp [Builder.finish, hloops]

/-- Without open loops there is a document. -/
theorem Builder.finish_of_depth_eq_zero {b : Builder} (h : b.depth = 0) :
    b.finish = .ok { children := b.nodes.reverse } := by
  have hloops : b.loops = [] := List.length_eq_zero_iff.mp h
  simp [Builder.finish, hloops]

/-- **Loops at the end.** If no tag is refused the open loops are counted. -/
theorem exists_finish_of_cut {ts : List Token} {tags : List (List Token)} (hcut : Cut ts tags)
    (h : Accepted tags) :
    ∃ b : Builder, (b.depth : Int) = excess tags ∧ parseTokens none ts = b.finish := by
  rw [← List.append_nil tags] at hcut
  obtain ⟨b, us, hdepth, hus, hrun⟩ := exists_builder_of_accepted hcut h
  cases hus with
  | texts contents =>
      obtain ⟨b', hdepth', hrun'⟩ := b.parseFrom_texts_append contents []
      rw [List.append_nil, Builder.parseFrom_nil] at hrun'
      exact ⟨b', by rw [hdepth', hdepth], hrun.trans hrun'⟩

/-- **Which fault is reported**, for a source that has tokens: the first tag that is wrong on its
own or ends a loop where none is open, with the error that it has alone; or else the number of loops
left open; or else none, and then the document is as deep as the tags get. -/
theorem parse_attribution (source : String) (ts : List Token) (h : tokenize source = .ok ts) :
    (∀ before tag kind, before ++ [tag] <+: tagsOf ts → Accepted before →
      refusal (excess before) tag = some kind →
      ∃ e, parse source = .error e ∧ e.kind = kind ∧
        parseTokens none (.tagOpen :: (tag ++ [.tagClose])) = .error e) ∧
    (Accepted (tagsOf ts) → 0 < excess (tagsOf ts) →
      ∃ e, parse source = .error e ∧ e.kind = .unclosedFor ∧
        e.message = toString (excess (tagsOf ts)) ++ " FOR tag(s) not closed before end of input") ∧
    (Accepted (tagsOf ts) → excess (tagsOf ts) ≤ 0 →
      ∃ d, parse source = .ok d ∧ IsPeak (tagsOf ts) d.nesting) := by
  have hcut := cut_tagsOf (tokenize_eq_ok_iff.mp h).mem_templateShape.1
  rw [parse_eq_parseTokens h]
  refine ⟨?_, fun haccepted hpos => ?_, fun haccepted hle => ?_⟩
  · rintro before tag kind ⟨after, hafter⟩ hbefore hrefusal
    rw [← hafter, List.append_assoc, List.singleton_append] at hcut
    exact exists_error_of_cut hcut hbefore hrefusal
  · obtain ⟨b, hdepth, hrun⟩ := exists_finish_of_cut hcut haccepted
    refine ⟨.unclosedLoops b.depth, ?_, rfl, by rw [← hdepth]; rfl⟩
    rw [hrun, Builder.finish_of_depth_pos (by omega)]
  · obtain ⟨b, hdepth, hrun⟩ := exists_finish_of_cut hcut haccepted
    rw [Builder.finish_of_depth_eq_zero (by omega)] at hrun
    obtain ⟨tags, htags, -, hpeak⟩ := (parseTokens_eq_ok_iff.mp hrun).exists_isPeak
    rw [← htags.tagsOf_eq] at hpeak
    exact ⟨_, hrun, hpeak⟩

/-- The end of a loop where none is open, in front of a tag that is wrong on its own; and two loops
that are left open. -/
theorem parse_attribution_unmatched :
    (∃ e, parse "\x7b$FOR i 1 2$\x7d\x7b$End$\x7d\x7b$END$\x7d\x7b$=$\x7d" = .error e ∧
      e.kind = .unmatchedEnd) ∧
    ∃ e, parse "\x7b$FOR i 1 2$\x7da\x7b$for j i k 2$\x7d" = .error e ∧
      e.message = "2 FOR tag(s) not closed before end of input" := by
  have hunmatched : tokenize "\x7b$FOR i 1 2$\x7d\x7b$End$\x7d\x7b$END$\x7d\x7b$=$\x7d" =
      .ok [.tagOpen, .name ⟨"FOR", by decide⟩, .name ⟨"i", by decide⟩, .integer 1, .integer 2,
        .tagClose, .tagOpen, .name ⟨"End", by decide⟩, .tagClose, .tagOpen,
        .name ⟨"END", by decide⟩, .tagClose, .tagOpen, .echo, .tagClose] := by cbv
  have hunclosed : tokenize "\x7b$FOR i 1 2$\x7da\x7b$for j i k 2$\x7d" =
      .ok [.tagOpen, .name ⟨"FOR", by decide⟩, .name ⟨"i", by decide⟩, .integer 1, .integer 2,
        .tagClose, .text "a", .tagOpen, .name ⟨"for", by decide⟩, .name ⟨"j", by decide⟩,
        .name ⟨"i", by decide⟩, .name ⟨"k", by decide⟩, .integer 2, .tagClose] := by cbv
  constructor
  · obtain ⟨e, he, hkind, -⟩ := (parse_attribution _ _ hunmatched).1
      [[.name ⟨"FOR", by decide⟩, .name ⟨"i", by decide⟩, .integer 1, .integer 2],
        [.name ⟨"End", by decide⟩]] [.name ⟨"END", by decide⟩] .unmatchedEnd
      (by decide) (by decide) (by decide)
    exact ⟨e, he, hkind⟩
  · obtain ⟨e, he, -, hmessage⟩ := (parse_attribution _ _ hunclosed).2.1 (by decide) (by decide)
    exact ⟨e, he, hmessage⟩

end TagTemplate
