import TagTemplate.Proofs.NormalForm

/-!
# The trees of templates

Which documents can come out of reading a template? `Document.Canonical` lists all that is known
of them, at every depth: no text is empty or next to another one, no echo tag is empty, names and
operators are spelled as they should be, doubles are finite, and loops run a variable between
bounds. The list is complete: a document that meets it is what its own template reads back to
(`exists_parse_eq_ok_iff`).

What is said about single elements comes from single tokens. What is said about neighbours comes
from neighbouring tokens: a list of nodes begins and ends with text just where its tokens do
(`Derives.head?_isText`, `Derives.getLast?_isText`).

## Main results

* `Document.canonical_iff`: the canonical documents are those that can be written and are tidy.
* `canonical_of_parse`: what is read is canonical.
* `exists_parse_eq_ok_iff`: and everything canonical can be read.
-/

namespace TagTemplate

/-! ### Canonical documents -/

/-- The letters from A to Z, of either case. -/
def IsLetter (c : Char) : Prop := ('A' ≤ c ∧ c ≤ 'Z') ∨ ('a' ≤ c ∧ c ≤ 'z')

/-- A letter, followed by letters, digits and underscores. -/
def IsWord (text : String) : Prop :=
  ∃ c cs, text.toList = c :: cs ∧ IsLetter c ∧
    ∀ d ∈ cs, IsLetter d ∨ ('0' ≤ d ∧ d ≤ '9') ∨ d = '_'

/-- An element as templates have it. -/
def Element.Canonical : Element → Prop
  | .integer _ => True
  | .double value => value.isFinite = true
  | .string _ => True
  | .var name => IsWord name.text
  | .function name => IsWord name.text
  | .operator op => op.symbol ∈ ['+', '-', '*', '/', '^']

/-- What may bound a loop: a whole number, a double or a variable. -/
inductive Element.Bounds : Element → Prop
  | integer (value : Int32) : Bounds (.integer value)
  | double (value : Binary64) : Bounds (.double value)
  | var (name : Identifier) : Bounds (.var name)

/-- The header of a loop as templates have it: a variable, and bounds. -/
structure LoopHeader.Canonical (h : LoopHeader) : Prop where
  /-- First comes a variable. -/
  isVariable : ∃ name, h.elements.head? = some (.var name)
  /-- Then come bounds. -/
  isBound : ∀ e ∈ h.elements.tail, e.Bounds
  /-- They are canonical themselves. -/
  elements : ∀ e ∈ h.elements, e.Canonical

mutual

/-- A node as templates have it. -/
def Node.Canonical : Node → Prop
  | .text content => content ≠ ""
  | .echo elements => elements ≠ [] ∧ ∀ e ∈ elements, e.Canonical
  | .loop header body => header.Canonical ∧ body.IsChain Node.Apart ∧ Node.CanonicalAll body

/-- Nodes in a row, each as templates have it. -/
def Node.CanonicalAll : List Node → Prop
  | [] => True
  | n :: ns => n.Canonical ∧ Node.CanonicalAll ns

end

/-- **A document as templates have it**, at every depth. -/
def Document.Canonical (d : Document) : Prop :=
  d.children.IsChain Node.Apart ∧ Node.CanonicalAll d.children

/-- Nodes in a row are canonical part by part. -/
theorem Node.canonicalAll_append {ns ms : List Node} :
    Node.CanonicalAll (ns ++ ms) ↔ Node.CanonicalAll ns ∧ Node.CanonicalAll ms := by
  induction ns with
  | nil => simp [Node.CanonicalAll]
  | cons n ns ih => simp [Node.CanonicalAll, ih, and_assoc]

/-! ### What types already say -/

/-- Letters are what names begin with. -/
theorem isLetter_iff {c : Char} : IsLetter c ↔ c.isAlpha = true := by
  rw [isAlpha_iff]
  simp [IsLetter, Char.le_def, UInt32.le_iff_toNat_le]

/-- Names are words. -/
theorem Identifier.isWord_text (name : Identifier) : IsWord name.text := by
  have hname := name.isName_text
  cases hcs : name.text.toList with
  | nil => simp [hcs, isName] at hname
  | cons c cs =>
      simp only [hcs, isName, isNameStart, Bool.and_eq_true, List.all_eq_true] at hname
      refine ⟨c, cs, hcs, isLetter_iff.mpr hname.1, fun d hd => ?_⟩
      have hpart := hname.2 d hd
      simp only [isNamePart, Char.isAlphanum, Bool.or_eq_true, beq_iff_eq] at hpart
      rcases hpart with (halpha | hdigit) | hline
      · exact Or.inl (isLetter_iff.mpr halpha)
      · refine Or.inr (Or.inl ?_)
        rw [isDigit_iff] at hdigit
        simpa [Char.le_def, UInt32.le_iff_toNat_le] using hdigit
      · exact Or.inr (Or.inr hline)

/-- There are five operators. -/
theorem Operator.symbol_mem (op : Operator) : op.symbol ∈ ['+', '-', '*', '/', '^'] := by
  cases op <;> decide

/-- There are five characters that are operators. -/
theorem Operator.exists_symbol_eq_iff {c : Char} :
    (∃ op : Operator, op.symbol = c) ↔ c ∈ ['+', '-', '*', '/', '^'] := by
  constructor
  · rintro ⟨op, rfl⟩
    exact op.symbol_mem
  · intro hc
    simp only [List.mem_cons, List.not_mem_nil, or_false] at hc
    rcases hc with rfl | rfl | rfl | rfl | rfl
    exacts [⟨.add, rfl⟩, ⟨.subtract, rfl⟩, ⟨.multiply, rfl⟩, ⟨.divide, rfl⟩, ⟨.power, rfl⟩]

/-- Of an element only a double can fail to be canonical. -/
theorem Element.canonical_iff {e : Element} : e.Canonical ↔ e.IsFinite := by
  cases e with
  | integer value => exact Iff.rfl
  | double value => exact Iff.rfl
  | string value => exact Iff.rfl
  | var name => exact iff_of_true name.isWord_text trivial
  | function name => exact iff_of_true name.isWord_text trivial
  | operator op => exact iff_of_true op.symbol_mem trivial

/-- The type of bounds has none but these. -/
theorem Bound.bounds (b : Bound) : b.element.Bounds := by
  have hbound := b.isBound_element
  cases he : b.element with
  | integer value => exact .integer value
  | double value => exact .double value
  | var name => exact .var name
  | string _ | function _ | operator _ =>
      rw [he] at hbound
      cases hbound

/-- Headers consist of a variable and bounds. -/
theorem LoopHeader.canonical_iff {h : LoopHeader} :
    h.Canonical ↔ ∀ e ∈ h.elements, e.IsFinite := by
  constructor
  · intro hcanonical e he
    exact Element.canonical_iff.mp (hcanonical.elements e he)
  · intro hfinite
    refine ⟨⟨h.var, rfl⟩, ?_, ?_⟩
    · intro e he
      simp only [LoopHeader.elements, List.cons_append, List.nil_append, List.tail_cons,
        List.mem_cons, Option.mem_toList, Option.map_eq_some_iff] at he
      rcases he with rfl | rfl | ⟨step, -, rfl⟩
      · exact h.start.bounds
      · exact h.stop.bounds
      · exact step.bounds
    · exact fun e he => Element.canonical_iff.mpr (hfinite e he)

mutual

/-- The canonical nodes are those that can be written and are tidy. -/
theorem Node.canonical_iff (n : Node) : n.Canonical ↔ n.Writable ∧ n.Tidy := by
  cases n with
  | text content => simp [Node.Canonical, Node.Writable, Node.Tidy]
  | echo elements => simp [Node.Canonical, Node.Writable, Node.Tidy, Element.canonical_iff]
  | loop header body =>
      simp only [Node.Canonical, Node.Writable, Node.Tidy, LoopHeader.canonical_iff,
        Node.canonicalAll_iff body]
      tauto

/-- The same for nodes in a row. -/
theorem Node.canonicalAll_iff (ns : List Node) :
    Node.CanonicalAll ns ↔ Node.WritableAll ns ∧ Node.TidyAll ns := by
  cases ns with
  | nil => simp [Node.CanonicalAll, Node.WritableAll, Node.TidyAll]
  | cons n ns =>
      simp only [Node.CanonicalAll, Node.WritableAll, Node.TidyAll, Node.canonical_iff n,
        Node.canonicalAll_iff ns]
      tauto

end

/-- The canonical documents are those that can be written and are tidy. -/
theorem Document.canonical_iff {d : Document} : d.Canonical ↔ d.Writable ∧ d.Tidy := by
  rw [Document.Canonical, Document.Writable, Document.Tidy, Node.canonicalAll_iff]
  tauto

/-! ### What is read -/

/-- An element is as finite as its token. -/
theorem Element.isFinite_of_sound_token {e : Element} (h : e.token.Sound) : e.IsFinite := by
  cases e with
  | double value => exact h
  | _ => trivial

/-- Elements whose tokens are all sound. -/
theorem Element.isFinite_of_sound {es : List Element}
    (h : ∀ t ∈ es.map Element.token, t.Sound) : ∀ e ∈ es, e.IsFinite :=
  fun _ he => Element.isFinite_of_sound_token (h _ (List.mem_map_of_mem he))

/-- Nodes begin with text where their tokens do. -/
theorem Derives.head?_isText {ts : List Token} {ns : List Node} (h : Derives ts ns) :
    ts.head?.map Token.isText = ns.head?.map Node.isText := by
  induction h with
  | nil => rfl
  | text content => rfl
  | echo hne => rfl
  | loop header henter hleave hbody ih => rfl
  | append h₁ h₂ ih₁ ih₂ => simp only [List.head?_append, Option.map_or, ih₁, ih₂]

/-- Nodes end with text where their tokens do. -/
theorem Derives.getLast?_isText {ts : List Token} {ns : List Node} (h : Derives ts ns) :
    ts.getLast?.map Token.isText = ns.getLast?.map Node.isText := by
  induction h with
  | nil => rfl
  | text content => rfl
  | echo hne =>
      rw [List.getLast?_append]
      rfl
  | loop header henter hleave hbody ih =>
      rw [List.getLast?_append]
      rfl
  | append h₁ h₂ ih₁ ih₂ => simp only [List.getLast?_append, Option.map_or, ih₁, ih₂]

/-- **Nodes of good tokens are canonical**: of sound tokens in which no two texts are
neighbours. -/
theorem Derives.canonical {ts : List Token} {ns : List Node} (h : Derives ts ns)
    (hsound : ∀ t ∈ ts, t.Sound) (hchain : ts.IsChain Token.Apart) :
    ns.IsChain Node.Apart ∧ Node.CanonicalAll ns := by
  induction h with
  | nil => exact ⟨List.isChain_nil, trivial⟩
  | text content =>
      have hne : content ≠ "" := hsound (.text content) (by simp)
      exact ⟨List.isChain_singleton _, hne, trivial⟩
  | @echo es hne =>
      have hes : ∀ e ∈ es, e.IsFinite :=
        Element.isFinite_of_sound fun t ht => hsound t (by simp [ht])
      refine ⟨List.isChain_singleton _, ⟨hne, fun e he => ?_⟩, trivial⟩
      exact Element.canonical_iff.mpr (hes e he)
  | @loop header enter leave ts body henter hleave hbody ih =>
      have hes : ∀ e ∈ header.elements, e.IsFinite :=
        Element.isFinite_of_sound fun t ht => hsound t (by simp [ht])
      have hinner := ih (fun t ht => hsound t (by simp [ht]))
        hchain.left_of_append.right_of_append
      exact ⟨List.isChain_singleton _, ⟨LoopHeader.canonical_iff.mpr hes, hinner⟩, trivial⟩
  | @append ts us ns ms h₁ h₂ ih₁ ih₂ =>
      obtain ⟨hts, hus, happart⟩ := List.isChain_append.mp hchain
      obtain ⟨hchain₁, hall₁⟩ := ih₁ (fun t ht => hsound t (by simp [ht])) hts
      obtain ⟨hchain₂, hall₂⟩ := ih₂ (fun t ht => hsound t (by simp [ht])) hus
      refine ⟨List.isChain_append.mpr ⟨hchain₁, hchain₂, fun n hn m hm => ?_⟩, ?_⟩
      · -- where the two lists meet, there are texts only where there are texts among the tokens
        have hlast := h₁.getLast?_isText
        rw [Option.mem_def.mp hn, Option.map_some, Option.map_eq_some_iff] at hlast
        obtain ⟨t, ht, hisText₁⟩ := hlast
        have hhead := h₂.head?_isText
        rw [Option.mem_def.mp hm, Option.map_some, Option.map_eq_some_iff] at hhead
        obtain ⟨u, hu, hisText₂⟩ := hhead
        rw [Node.Apart, ← hisText₁, ← hisText₂]
        exact happart t ht u hu
      · exact Node.canonicalAll_append.mpr ⟨hall₁, hall₂⟩

/-- **What is read is canonical.** -/
theorem canonical_of_parse {source : String} {d : Document} (h : parse source = .ok d) :
    d.Canonical := by
  obtain ⟨ts, htokenize, hparse⟩ := parse_eq_ok_iff_parseTokens.mp h
  obtain ⟨rfl, -⟩ := tokenize_eq_ok_iff.mp htokenize
  have hderives := parseTokens_eq_ok_iff.mp hparse
  exact hderives.canonical (fun t ht => sound_of_mem_tokens_lex ht) (isChain_tokens_lex _ _)

/-- Canonical documents read back to themselves. -/
theorem Document.Canonical.parse_source_eq {d : Document} (h : d.Canonical) :
    parse d.source = .ok d := by
  obtain ⟨hwritable, htidy⟩ := Document.canonical_iff.mp h
  exact Document.parse_source_eq_self hwritable htidy

/-- **The trees of templates are the canonical ones**, all of them. -/
theorem exists_parse_eq_ok_iff (d : Document) : (∃ source, parse source = .ok d) ↔ d.Canonical := by
  constructor
  · rintro ⟨source, h⟩
    exact canonical_of_parse h
  · intro h
    exact ⟨d.source, h.parse_source_eq⟩

end TagTemplate
