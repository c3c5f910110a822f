import TagTemplate.Proofs.Concatenation

/-!
# Loop bodies

A template put between the two tags of a loop is the body of that loop, with the nodes that it has
on its own. The tags may be spelled in any way that gives the tokens of a loop; `LoopTags` holds
two such spellings. Neither tag takes part in a run of text, so that the tokens of the body are the
same between them (`LoopTags.tokenize_around`), even if the body ends with an opening brace that
touches the second tag. The grammar does not know where in a document its nodes stand, and the rest
follows loop by loop.

## Main results

* `LoopTags.tokenize_around`: the tokens of a body between the tags of a loop.
* `LoopTags.derives_around`: the nodes of a body between the tags of a loop.
* `parse_around`: bodies within any number of loops.
-/

namespace TagTemplate

/-- The two tags of a loop, in some spelling. -/
structure LoopTags where
  /-- What the loop runs over. -/
  header : LoopHeader
  /-- The tag that begins the loop. -/
  opening : String
  /-- The tag that ends the loop. -/
  closing : String
  /-- The first tag is one with that header and nothing else. -/
  tokenize_opening : ∃ name : Identifier, name.matchesWord "FOR" = true ∧ tokenize opening =
    .ok (.tagOpen :: .name name :: header.elements.map Element.token ++ [.tagClose])
  /-- The second tag is one without elements and nothing else. -/
  tokenize_closing : ∃ name : Identifier, name.matchesWord "END" = true ∧ tokenize closing =
    .ok [.tagOpen, .name name, .tagClose]

namespace LoopTags

/-- A source between the two tags. -/
def around (tags : LoopTags) (body : String) : String := tags.opening ++ body ++ tags.closing

/-- Nodes as the body of the loop. -/
def enclose (tags : LoopTags) (body : List Node) : List Node := [.loop tags.header body]

/-- **Between the tags** of a loop a source has the tokens that it has on its own. -/
theorem tokenize_around (tags : LoopTags) {body : String} {ts : List Token}
    (h : tokenize body = .ok ts) :
    ∃ enter leave : Identifier,
      enter.matchesWord "FOR" = true ∧ leave.matchesWord "END" = true ∧
      tokenize (tags.around body) =
        .ok (.tagOpen :: .name enter :: tags.header.elements.map Element.token ++ [.tagClose] ++
          ts ++ [.tagOpen, .name leave, .tagClose]) := by
  obtain ⟨enter, henter, hopening⟩ := tags.tokenize_opening
  obtain ⟨leave, hleave, hclosing⟩ := tags.tokenize_closing
  have hfront := tokenize_append hopening h <| Or.inl fun t ht => by
    rw [List.getLast?_concat] at ht
    cases ht
    rfl
  exact ⟨enter, leave, henter, hleave, tokenize_append hfront hclosing (Or.inr rfl)⟩

/-- **One loop more**: what a source derives is derived as the body of the loop. -/
theorem derives_around (tags : LoopTags) {body : String} {ns : List Node}
    (h : ∃ ts, tokenize body = .ok ts ∧ Derives ts ns) :
    ∃ ts, tokenize (tags.around body) = .ok ts ∧ Derives ts (tags.enclose ns) := by
  obtain ⟨ts, htokens, hderives⟩ := h
  obtain ⟨enter, leave, henter, hleave, haround⟩ := tags.tokenize_around htokens
  exact ⟨_, haround, .loop tags.header henter hleave hderives⟩

/-- Any number of loops more. -/
theorem derives_foldr_around (outer : List LoopTags) {body : String} {ns : List Node}
    (h : ∃ ts, tokenize body = .ok ts ∧ Derives ts ns) :
    ∃ ts, tokenize (outer.foldr around body) = .ok ts ∧ Derives ts (outer.foldr enclose ns) := by
  induction outer with
  | nil => exact h
  | cons tags outer ih => exact tags.derives_around ih

end LoopTags

/-- **Loop bodies are context free.** Between the tags of a loop a template is the body of that
loop, and it is the same body within any number of loops around that one. -/
theorem parse_around (tags : LoopTags) (body : String) (d : Document) (h : parse body = .ok d) :
    parse (tags.opening ++ body ++ tags.closing) =
      .ok { children := [.loop tags.header d.children] } ∧
    ∀ outer : List LoopTags, parse (outer.foldr LoopTags.around (tags.around body)) =
      .ok { children := outer.foldr LoopTags.enclose [.loop tags.header d.children] } := by
  have hderives (ns : List Node) (s : String) :
      parse s = .ok { children := ns } ↔ ∃ ts, tokenize s = .ok ts ∧ Derives ts ns := by
    simp only [parse_eq_ok_iff_parseTokens, parseTokens_eq_ok_iff]
  have hbody := tags.derives_around ((hderives d.children body).mp h)
  exact ⟨(hderives _ _).mpr hbody, fun outer =>
    (hderives _ _).mpr (LoopTags.derives_foldr_around outer hbody)⟩

/-- A body that ends with an opening brace right in front of the tag that ends the loop, within the
same loop once more. -/
theorem parse_around_brace :
    ∃ header : LoopHeader, header.elements.map Element.text = ["i", "1", "k", "2"] ∧
      parse "\x7b$For i 1 k 2$\x7da\x7b\x7b$ enD\n$\x7d" =
        .ok { children := [.loop header [.text "a\x7b"]] } ∧
      parse ("\x7b$For i 1 k 2$\x7d\x7b$For i 1 k 2$\x7d" ++
          "a\x7b\x7b$ enD\n$\x7d\x7b$ enD\n$\x7d") =
        .ok { children := [.loop header [.loop header [.text "a\x7b"]]] } := by
  obtain ⟨tags, helements, hopening, hclosing⟩ : ∃ tags : LoopTags,
      tags.header.elements.map Element.text = ["i", "1", "k", "2"] ∧
      tags.opening = "\x7b$For i 1 k 2$\x7d" ∧ tags.closing = "\x7b$ enD\n$\x7d" := by
    refine ⟨⟨⟨⟨"i", by decide⟩, ⟨.integer 1, rfl⟩, ⟨.var ⟨"k", by decide⟩, rfl⟩,
      some ⟨.integer 2, rfl⟩⟩, "\x7b$For i 1 k 2$\x7d", "\x7b$ enD\n$\x7d",
      ⟨⟨"For", by decide⟩, by decide, by cbv⟩, ⟨⟨"enD", by decide⟩, by decide, by cbv⟩⟩,
      ?_, rfl, rfl⟩
    cbv
  have hbody : parse "a\x7b" = .ok { children := [.text "a\x7b"] } := by cbv
  obtain ⟨hone, hmore⟩ := parse_around tags _ _ hbody
  have htwo := hmore [tags]
  simp only [List.foldr, LoopTags.around, LoopTags.enclose, hopening, hclosing] at hone htwo
  exact ⟨tags.header, helements, hone, htwo⟩

end TagTemplate
