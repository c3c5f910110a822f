import TagTemplate.Proofs.Grammar

/-!
# Written documents read back

A template has no means to write an empty text, nor to tell two texts in a row from one. The
normal form `Document.joined` leaves out the empty texts and joins neighbouring ones, in the
document and in every body. It is what the template of a document reads back to
(`parse_source`), for any tree that templates can express at all: `Document.Writable` asks for
finite doubles, and for an element in every echo tag.

The proof follows the tree. Tags are runs of the lexer of their own; a text joins whatever text
has been read behind it, which is how the tokens of the normal form come about
(`Node.reads_sourceAll`). That these tokens derive the normal form needs no induction over runs.

## Main results

* `Node.reads_sourceAll`: the tokens of written nodes are those of their normal form.
* `Document.tidy_joined`, `Document.joined_eq_self`: the normal form is tidy, and tidy documents
  are in it.
* `parse_source`: written documents read back to their normal form.
-/

namespace TagTemplate

/-! ### Documents that can be written -/

mutual

/-- A node that a template can express: finite doubles, and an element in every echo tag. -/
def Node.Writable : Node → Prop
  | .text _ => True
  | .echo elements => elements ≠ [] ∧ ∀ e ∈ elements, e.IsFinite
  | .loop header body => (∀ e ∈ header.elements, e.IsFinite) ∧ Node.WritableAll body

/-- Nodes in a row that a template can express. -/
def Node.WritableAll : List Node → Prop
  | [] => True
  | n :: ns => n.Writable ∧ Node.WritableAll ns

end

/-- A document that a template can express. -/
def Document.Writable (d : Document) : Prop := Node.WritableAll d.children

/-! ### The normal form -/

/-- A text in front of nodes: left out if it is empty, joined with a text that they begin with. -/
def Node.consText (content : String) (ns : List Node) : List Node :=
  if content = "" then ns
  else
    match ns with
    | .text next :: ns => .text (content ++ next) :: ns
    | ns => .text content :: ns

mutual

/-- A node in front of nodes in normal form. -/
def Node.joinOnto : Node → List Node → List Node
  | .text content, ms => Node.consText content ms
  | .echo elements, ms => .echo elements :: ms
  | .loop header body, ms => .loop header (Node.joinAll body) :: ms

/-- Nodes in normal form: in every list of siblings empty texts are left out, and texts in a row
are joined. -/
def Node.joinAll : List Node → List Node
  | [] => []
  | n :: ns => n.joinOnto (Node.joinAll ns)

end

/-- The normal form of a document. -/
def Document.joined (d : Document) : Document := { children := Node.joinAll d.children }

/-! ### Tidy documents -/

/-- Whether a node is a text. -/
def Node.isText : Node → Bool
  | .text _ => true
  | _ => false

/-- Not both texts. -/
def Node.Apart (a b : Node) : Prop := a.isText = false ∨ b.isText = false

mutual

/-- A node without empty texts, and without neighbouring texts in any body. -/
def Node.Tidy : Node → Prop
  | .text content => content ≠ ""
  | .echo _ => True
  | .loop _ body => body.IsChain Node.Apart ∧ Node.TidyAll body

/-- Nodes without empty texts, and without neighbouring texts in any body. -/
def Node.TidyAll : List Node → Prop
  | [] => True
  | n :: ns => n.Tidy ∧ Node.TidyAll ns

end

/-- A document without empty and without neighbouring texts, at any depth. -/
def Document.Tidy (d : Document) : Prop :=
  d.children.IsChain Node.Apart ∧ Node.TidyAll d.children

/-- A text joined onto tidy nodes leaves them tidy. -/
theorem Node.tidy_consText (content : String) {ms : List Node} (hchain : ms.IsChain Node.Apart)
    (htidy : Node.TidyAll ms) :
    (Node.consText content ms).IsChain Node.Apart ∧ Node.TidyAll (Node.consText content ms) := by
  rw [Node.consText.eq_def]
  split
  · exact ⟨hchain, htidy⟩
  · rename_i hne
    split
    · rename_i next ms
      rw [List.isChain_cons] at hchain ⊢
      refine ⟨⟨fun n hn => ?_, hchain.2⟩, ?_, htidy.2⟩
      · have := hchain.1 n hn
        simpa [Node.Apart, Node.isText] using this
      · simp [Node.Tidy, hne]
    · rename_i hother
      refine ⟨List.isChain_cons.mpr ⟨fun n hn => ?_, hchain⟩, hne, htidy⟩
      cases n with
      | text next =>
          obtain ⟨ns, rfl⟩ := List.head?_eq_some_iff.mp hn
          exact absurd rfl (hother next ns)
      | echo elements => exact Or.inr rfl
      | loop header body => exact Or.inr rfl

/-- A node that is no text stands apart from whatever follows it. -/
theorem Node.isChain_cons_of_not_isText {n : Node} (hn : n.isText = false) {ms : List Node}
    (hchain : ms.IsChain Node.Apart) : (n :: ms).IsChain Node.Apart :=
  List.isChain_cons.mpr ⟨fun _ _ => Or.inl hn, hchain⟩

mutual

/-- A node in front of tidy nodes in normal form. -/
theorem Node.tidy_joinOnto (n : Node) {ms : List Node} (hchain : ms.IsChain Node.Apart)
    (htidy : Node.TidyAll ms) :
    (n.joinOnto ms).IsChain Node.Apart ∧ Node.TidyAll (n.joinOnto ms) := by
  cases n with
  | text content => exact Node.tidy_consText content hchain htidy
  | echo elements => exact ⟨Node.isChain_cons_of_not_isText rfl hchain, trivial, htidy⟩
  | loop header body =>
      exact ⟨Node.isChain_cons_of_not_isText rfl hchain, Node.tidy_joinAll body, htidy⟩

/-- The normal form is tidy. -/
theorem Node.tidy_joinAll (ns : List Node) :
    (Node.joinAll ns).IsChain Node.Apart ∧ Node.TidyAll (Node.joinAll ns) := by
  cases ns with
  | nil => exact ⟨List.isChain_nil, trivial⟩
  | cons n ns =>
      obtain ⟨hchain, htidy⟩ := Node.tidy_joinAll ns
      exact Node.tidy_joinOnto n hchain htidy

end

/-- The normal form of a document is tidy. -/
theorem Document.tidy_joined (d : Document) : d.joined.Tidy := Node.tidy_joinAll d.children

mutual

/-- A tidy node in front of nodes it stands apart from is not changed. -/
theorem Node.joinOnto_eq_cons {n : Node} (htidy : n.Tidy) {ms : List Node}
    (happart : ∀ m ∈ ms.head?, Node.Apart n m) : n.joinOnto ms = n :: ms := by
  cases n with
  | text content =>
      rw [Node.joinOnto, Node.consText.eq_def, if_neg htidy]
      split
      · have := happart _ rfl
        simp [Node.Apart, Node.isText] at this
      · rfl
  | echo elements => rfl
  | loop header body =>
      rw [Node.joinOnto, Node.joinAll_eq_self htidy.1 htidy.2]

/-- Tidy nodes are in normal form. -/
theorem Node.joinAll_eq_self {ns : List Node} (hchain : ns.IsChain Node.Apart)
    (htidy : Node.TidyAll ns) : Node.joinAll ns = ns := by
  cases ns with
  | nil => rfl
  | cons n ns =>
      rw [List.isChain_cons] at hchain
      rw [Node.joinAll, Node.joinAll_eq_self hchain.2 htidy.2,
        Node.joinOnto_eq_cons htidy.1 hchain.1]

end

/-- Tidy documents are in normal form. -/
theorem Document.joined_eq_self {d : Document} (h : d.Tidy) : d.joined = d := by
  rw [Document.joined, Node.joinAll_eq_self h.1 h.2]

/-! ### The tokens of nodes -/

/-- The name written at the beginning of a loop. -/
def enterWord : Identifier := ⟨"FOR", by decide⟩

/-- The name written at the end of a loop. -/
def leaveWord : Identifier := ⟨"END", by decide⟩

mutual

/-- The tokens a node is written with. -/
def Node.tokens : Node → List Token
  | .text content => [.text content]
  | .echo elements => .tagOpen :: .echo :: elements.map Element.token ++ [.tagClose]
  | .loop header body =>
    .tagOpen :: .name enterWord :: header.elements.map Element.token ++ [.tagClose] ++
      Node.tokensAll body ++ [.tagOpen, .name leaveWord, .tagClose]

/-- The tokens nodes in a row are written with. -/
def Node.tokensAll : List Node → List Token
  | [] => []
  | n :: ns => n.tokens ++ Node.tokensAll ns

end

mutual

/-- The tokens of a node derive it. -/
theorem Node.derives_tokens {n : Node} (h : n.Writable) : Derives n.tokens [n] := by
  cases n with
  | text content => exact .text content
  | echo elements => exact .echo h.1
  | loop header body => exact .loop header rfl rfl (Node.derives_tokensAll h.2)

/-- The tokens of nodes derive them. -/
theorem Node.derives_tokensAll {ns : List Node} (h : Node.WritableAll ns) :
    Derives (Node.tokensAll ns) ns := by
  cases ns with
  | nil => exact .nil
  | cons n ns => exact (Node.derives_tokens h.1).append (Node.derives_tokensAll h.2)

end

/-- A text joined onto writable nodes. -/
theorem Node.writableAll_consText (content : String) {ms : List Node} (h : Node.WritableAll ms) :
    Node.WritableAll (Node.consText content ms) := by
  rw [Node.consText.eq_def]
  split
  · exact h
  · split
    · exact ⟨trivial, h.2⟩
    · exact ⟨trivial, h⟩

mutual

/-- A writable node in front of writable nodes in normal form. -/
theorem Node.writableAll_joinOnto {n : Node} (hn : n.Writable) {ms : List Node}
    (hms : Node.WritableAll ms) : Node.WritableAll (n.joinOnto ms) := by
  cases n with
  | text content => exact Node.writableAll_consText content hms
  | echo elements => exact ⟨hn, hms⟩
  | loop header body => exact ⟨⟨hn.1, Node.writableAll_joinAll hn.2⟩, hms⟩

/-- The normal form of writable nodes is writable. -/
theorem Node.writableAll_joinAll {ns : List Node} (h : Node.WritableAll ns) :
    Node.WritableAll (Node.joinAll ns) := by
  cases ns with
  | nil => trivial
  | cons n ns => exact Node.writableAll_joinOnto h.1 (Node.writableAll_joinAll h.2)

end

/-! ### Reading what was written -/

/-- A text in front of tokens: joined with a text that they begin with. -/
def Token.consText (content : String) : List Token → List Token
  | .text next :: ts => .text (content ++ next) :: ts
  | ts => .text content :: ts

/-- An escaped text in front of a reading without a fault. -/
theorem Reads.escape_append {content : String} (hne : content ≠ "") {cs : List Char}
    {ts : List Token} (h : Reads .text cs ts) :
    Reads .text ((Escaped.escape content).toList ++ cs) (Token.consText content ts) := by
  obtain ⟨rfl, hfault⟩ := h
  have hlex := lex_escape_append (show content.toList ≠ [] by simpa using hne) cs
  rw [Escaped.escape, String.toList_ofList, Reads, hlex]
  generalize lex .text cs = l at hfault
  obtain ⟨lexemes, fault⟩ := l
  obtain rfl : fault = none := hfault
  cases lexemes with
  | nil => simp [Lexing.prepend, Lexing.tokens, Token.consText]
  | cons l ls =>
      obtain ⟨gap, chars, token⟩ := l
      cases token <;> simp [Lexing.prepend, Lexing.tokens, Token.consText]

/-- Joining a text onto nodes joins it onto their tokens, in front of no further text. -/
theorem Node.tokensAll_consText {content : String} (hne : content ≠ "") (ms : List Node)
    {ts : List Token} (hts : ∀ t ∈ ts.head?, t.isText = false) :
    Node.tokensAll (Node.consText content ms) ++ ts =
      Token.consText content (Node.tokensAll ms ++ ts) := by
  rw [Node.consText.eq_def, if_neg hne]
  cases ms with
  | nil =>
      cases ts with
      | nil => rfl
      | cons t ts =>
          have ht := hts t rfl
          cases t with
          | text next => cases ht
          | _ => rfl
  | cons m ms =>
      cases m with
      | text next => rfl
      | echo elements => rfl
      | loop header body => rfl

/-- The mark that opens a tag. -/
theorem steps_tagOpen (rest : List Char) :
    Steps .text ('{' :: '$' :: rest) [.tagOpen] .tag rest := by
  have hstep : step .text ('{' :: '$' :: rest) = .token ⟨[], ['{', '$'], .tagOpen⟩ .tag rest := rfl
  exact Steps.token hstep Steps.refl

/-- A name in a tag, in front of something that cannot go on in it. -/
theorem steps_name (name : Identifier) (rest : List Char)
    (hrest : ∀ c ∈ rest.head?, isNamePart c = false) :
    Steps .tag (name.text.toList ++ rest) [.name name] .tag rest := by
  have hgap : ∀ c ∈ ([] : List Char), isBlank c = true := by simp
  exact Steps.token (step_tag_of_scanTag hgap (scanTag_name_append name hrest)) Steps.refl

/-- An echo tag is a run of its own. -/
theorem steps_echo {es : List Element} (h : ∀ e ∈ es, e.IsFinite) (rest : List Char) :
    Steps .text ((Node.echo es).source.toList ++ rest) (Node.echo es).tokens .text rest := by
  have hmark (cs : List Char) : Steps .tag ('=' :: cs) [.echo] .tag cs := by
    have hstep : step .tag ('=' :: cs) = .token ⟨[], ['='], .echo⟩ .tag cs := rfl
    exact Steps.token hstep Steps.refl
  have hblank : ∀ c ∈ [' '], isBlank c = true := by simp [isBlank]
  have hrun := (steps_tagOpen _).trans ((hmark _).trans (steps_elementsText h hblank rest))
  simpa [Node.source, Node.tokens] using hrun

/-- The tag that opens a loop is a run of its own. -/
theorem steps_enter {header : LoopHeader} (h : ∀ e ∈ header.elements, e.IsFinite)
    (rest : List Char) :
    Steps .text ("\x7b$FOR ".toList ++ (header.text.toList ++ (" $\x7d".toList ++ rest)))
      (.tagOpen :: .name enterWord :: header.elements.map Element.token ++ [.tagClose])
      .text rest := by
  have hblank : ∀ c ∈ [' '], isBlank c = true := by simp [isBlank]
  have hname := steps_name enterWord (' ' :: ((Node.elementsText header.elements).toList ++
    ' ' :: '$' :: '}' :: rest)) (by simp [isNamePart])
  exact (steps_tagOpen _).trans (hname.trans (steps_elementsText h hblank rest))

/-- The tag that closes a loop is a run of its own. -/
theorem steps_leave (rest : List Char) :
    Steps .text ("\x7b$END$\x7d".toList ++ rest) [.tagOpen, .name leaveWord, .tagClose]
      .text rest := by
  have hgap : ∀ c ∈ ([] : List Char), isBlank c = true := by simp
  have hname := steps_name leaveWord ('$' :: '}' :: rest) (by simp [isNamePart])
  exact (steps_tagOpen _).trans (hname.trans (steps_tagClose hgap rest))

mutual

/-- A written node in front of a reading without a fault. Behind the tokens of the nodes `ms`
comes no text, so that a text can only join what is read of these nodes. -/
theorem Node.reads_source {n : Node} (h : n.Writable) {ms : List Node} {cs : List Char}
    {ts : List Token} (hts : ∀ t ∈ ts.head?, t.isText = false)
    (hrest : Reads .text cs (Node.tokensAll ms ++ ts)) :
    Reads .text (n.source.toList ++ cs) (Node.tokensAll (n.joinOnto ms) ++ ts) := by
  cases n with
  | text content =>
      rw [Node.joinOnto, Node.source]
      by_cases hempty : content = ""
      · subst hempty
        exact hrest
      · rw [Node.tokensAll_consText hempty ms hts]
        exact hrest.escape_append hempty
  | echo elements =>
      rw [Node.joinOnto, Node.tokensAll, List.append_assoc]
      exact (steps_echo h.2 cs).reads hrest
  | loop header body =>
      have hleave := (steps_leave cs).reads hrest
      have hbody := Node.reads_sourceAll h.2 (by simp [Token.isText]) hleave
      have henter := (steps_enter h.1 _).reads hbody
      simpa [Node.source, Node.joinOnto, Node.tokensAll, Node.tokens] using henter

/-- **Written nodes read back.** Written nodes in front of a reading without a fault that does not
begin with text: their tokens are those of their normal form. -/
theorem Node.reads_sourceAll {ns : List Node} (h : Node.WritableAll ns) {cs : List Char}
    {ts : List Token} (hts : ∀ t ∈ ts.head?, t.isText = false) (hrest : Reads .text cs ts) :
    Reads .text ((Node.sourceAll ns).toList ++ cs) (Node.tokensAll (Node.joinAll ns) ++ ts) := by
  cases ns with
  | nil => exact hrest
  | cons n ns =>
      have htail := Node.reads_sourceAll h.2 hts hrest
      have hhead := Node.reads_source h.1 hts htail
      simpa [Node.sourceAll, Node.joinAll] using hhead

end

/-! ### Whole documents -/

/-- The template of a document is read as its normal form. -/
theorem Document.parse_source_eq {d : Document} (h : d.Writable) :
    parse d.source = .ok d.joined := by
  have hstart : Reads .text [] [] := ⟨by rw [lex_of_finished rfl]; rfl, by rw [lex_of_finished rfl]⟩
  have hreads := Node.reads_sourceAll h (by simp) hstart
  rw [List.append_nil, List.append_nil] at hreads
  have hderives := Node.derives_tokensAll (Node.writableAll_joinAll h)
  rw [parse_eq_ok_iff_parseTokens]
  exact ⟨_, tokenize_eq_ok_iff.mpr hreads, parseTokens_eq_ok_iff.mpr hderives⟩

/-- Tidy documents read back to themselves. -/
theorem Document.parse_source_eq_self {d : Document} (h : d.Writable) (htidy : d.Tidy) :
    parse d.source = .ok d := by
  rw [Document.parse_source_eq h, Document.joined_eq_self htidy]

/-- **Written documents read back** to their normal form, which is tidy; tidy documents read back
to themselves. -/
theorem parse_source (d : Document) (h : d.Writable) :
    parse d.source = .ok d.joined ∧ d.joined.Tidy ∧ (d.Tidy → parse d.source = .ok d) :=
  ⟨Document.parse_source_eq h, d.tidy_joined, Document.parse_source_eq_self h⟩

/-- A document with empty and with neighbouring texts, at the top and in a body, some of which
could be mistaken for tags. -/
def Document.ragged : Document where
  children := [
    .text "", .text "a\x7b$", .text "", .text "\\ b",
    .loop
      { var := ⟨"i", by decide⟩
        start := ⟨.integer (-1), rfl⟩
        stop := ⟨.double { negative := true, magnitude := 0#63 }, rfl⟩
        step := none }
      [.text "x", .text "y\x7b",
        .echo [.string "\"\n", .operator .subtract,
          .double { negative := false, magnitude := 1#63 }],
        .text ""],
    .text "c", .text ""]

/-- All its doubles are finite and its only echo tag has elements. -/
theorem Document.writable_ragged : Document.ragged.Writable := by
  have hzero : Binary64.isFinite { negative := true, magnitude := 0#63 } = true := by decide
  have hleast : Binary64.isFinite { negative := false, magnitude := 1#63 } = true := by decide
  simp [Document.ragged, Document.Writable, Node.WritableAll, Node.Writable,
    LoopHeader.elements, Element.IsFinite, hzero, hleast]

/-- Its texts are joined, at the top and in the body; once joined it reads back to itself. -/
theorem parse_source_ragged :
    Document.ragged.Writable ∧
      (∃ header es, parse Document.ragged.source = .ok
        { children := [.text "a\x7b$\\ b", .loop header [.text "xy\x7b", .echo es], .text "c"] }) ∧
      parse Document.ragged.joined.source = .ok Document.ragged.joined := by
  refine ⟨Document.writable_ragged, ?_, ?_⟩
  · obtain ⟨header, es, hjoined⟩ : ∃ header es, Document.ragged.joined =
        { children := [.text "a\x7b$\\ b", .loop header [.text "xy\x7b", .echo es], .text "c"] } := by
      simp [Document.joined, Document.ragged, Node.joinAll, Node.joinOnto, Node.consText]
    refine ⟨header, es, ?_⟩
    rw [← hjoined]
    exact (parse_source Document.ragged Document.writable_ragged).1
  · have hwritable : Document.ragged.joined.Writable :=
      Node.writableAll_joinAll Document.writable_ragged
    exact (parse_source Document.ragged.joined hwritable).2.2 Document.ragged.tidy_joined

end TagTemplate
