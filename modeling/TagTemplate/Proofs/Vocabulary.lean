import TagTemplate.Proofs.LongestMatch
import TagTemplate.Proofs.Tiling

/-!
# One vocabulary for elements and tags

Which words are names, and which characters are operators, is said twice: by the constructors of
elements, which check the text they are given, and by the lexer, which takes as much of a tag as
goes on in a name. The two agree on every text. A text is accepted as the name of a variable, or of
a function, if and only if a tag that holds nothing else is read as that one name, and if and only
if it is a word; a character is accepted as an operator if and only if a tag is read as that one
operator.

What a constructor accepts is written in a tag as the text of its element (`Element.checked_iff`).
Elements on their own are one lexeme (`Element.scanTag_text`), and every lexeme of a name, a
function or an operator is one that a constructor accepts (`Element.checked_of_scanTag`). The
elements of a parsed document come from lexemes (`Derives.token_mem`), so they are all accepted.

## Main results

* `Element.ofVariable_eq_ok_iff`, `Element.ofFunction_eq_ok_iff`, `Element.ofOperator_eq_ok_iff`:
  what the constructors accept.
* `Element.checked_iff`: how that is written in a tag.
* `shared_vocabulary`: the constructors and the lexer agree.
-/

namespace TagTemplate

/-! ### What the constructors accept -/

/-- The texts that are names are the words. -/
theorem Identifier.exists_text_eq_iff {text : String} :
    (∃ name : Identifier, name.text = text) ↔ text.toList ∈ wordPattern := by
  rw [mem_wordPattern_iff]
  constructor
  · rintro ⟨name, rfl⟩
    exact name.isName_text
  · intro hname
    exact ⟨⟨text, hname⟩, rfl⟩

namespace Element

/-- Names are accepted as themselves, and nothing else is accepted. -/
theorem nameOf_eq_ok_iff {text : String} {name : Identifier} :
    nameOf text = .ok name ↔ name.text = text := by
  constructor
  · intro h
    simp only [nameOf, Identifier.ofString?] at h
    split at h
    · rename_i hname
      split at hname <;> cases hname
      cases h
      rfl
    · cases h
  · rintro rfl
    rw [nameOf, Identifier.ofString?_text]

/-- A text is accepted as a variable if it is a name. -/
theorem ofVariable_eq_ok_iff {text : String} {e : Element} :
    ofVariable text = .ok e ↔ ∃ name : Identifier, name.text = text ∧ e = .var name := by
  simp only [ofVariable, ← nameOf_eq_ok_iff]
  cases nameOf text <;> simp [Except.map, eq_comm]

/-- A text is accepted as a function if it is a name. -/
theorem ofFunction_eq_ok_iff {text : String} {e : Element} :
    ofFunction text = .ok e ↔ ∃ name : Identifier, name.text = text ∧ e = .function name := by
  simp only [ofFunction, ← nameOf_eq_ok_iff]
  cases nameOf text <;> simp [Except.map, eq_comm]

/-- A character is accepted as an operator if it is the symbol of one. -/
theorem ofOperator_eq_ok_iff {c : Char} {e : Element} :
    ofOperator c = .ok e ↔ ∃ op : Operator, op.symbol = c ∧ e = .operator op := by
  constructor
  · intro h
    rw [ofOperator] at h
    split at h
    · rename_i op hop
      cases h
      exact ⟨op, Operator.symbol_of_ofChar? hop, rfl⟩
    · cases h
  · rintro ⟨op, rfl, rfl⟩
    rw [ofOperator, Operator.ofChar?_symbol]

/-- **What the constructors accept**, as it is written in a tag. -/
inductive Checked : List Char → Element → Prop
  | var {text : String} {e : Element} : ofVariable text = .ok e → Checked text.toList e
  | function {text : String} {e : Element} : ofFunction text = .ok e →
      Checked ('@' :: text.toList) e
  | operator {c : Char} {e : Element} : ofOperator c = .ok e → Checked [c] e

/-- Variables, functions and operators. -/
def InVocabulary : Element → Prop
  | .var _ | .function _ | .operator _ => True
  | _ => False

/-- Their texts read back. -/
theorem InVocabulary.isFinite {e : Element} (h : e.InVocabulary) : e.IsFinite := by
  cases e <;> trivial

/-- **The constructors accept** variables, functions and operators as they are written, and nothing
else. -/
theorem checked_iff {cs : List Char} {e : Element} :
    Checked cs e ↔ e.InVocabulary ∧ cs = e.text.toList := by
  constructor
  · intro h
    cases h with
    | var h =>
        obtain ⟨name, rfl, rfl⟩ := ofVariable_eq_ok_iff.mp h
        exact ⟨trivial, rfl⟩
    | function h =>
        obtain ⟨name, rfl, rfl⟩ := ofFunction_eq_ok_iff.mp h
        exact ⟨trivial, by simp [text]⟩
    | operator h =>
        obtain ⟨op, rfl, rfl⟩ := ofOperator_eq_ok_iff.mp h
        exact ⟨trivial, by simp [text, Operator.text]⟩
  · rintro ⟨he, rfl⟩
    cases e with
    | var name => exact .var (ofVariable_eq_ok_iff.mpr ⟨name, rfl, rfl⟩)
    | function name =>
        simpa [text] using Checked.function (ofFunction_eq_ok_iff.mpr ⟨name, rfl, rfl⟩)
    | operator op =>
        simpa [text, Operator.text] using Checked.operator (ofOperator_eq_ok_iff.mpr ⟨op, rfl, rfl⟩)
    | integer | double | string => cases he

/-- **What is scanned is accepted**: the characters of a lexeme, as what they were read as. -/
theorem checked_of_scanTag {cs : List Char} {f : Found} (h : scanTag cs = .ok f) {e : Element}
    (htoken : f.token = e.token) (he : e.InVocabulary) : Checked f.chars e := by
  refine checked_iff.mpr ⟨he, ?_⟩
  cases scansTag_of_eq h with
  | close | echo => cases e <;> cases htoken
  | string =>
      cases e with
      | string => cases he
      | _ => cases htoken
  | function | name =>
      cases e <;> cases htoken
      simp [text]
  | @number _ _ _ v => cases v <;> cases e <;> cases htoken <;> cases he
  | operator _ hop =>
      cases e <;> cases htoken
      simp [text, Operator.text, Operator.symbol_of_ofChar? hop]

/-- **An element on its own is scanned** as one lexeme. -/
theorem scanTag_text {e : Element} (h : e.IsFinite) :
    scanTag e.text.toList = .ok ⟨e.token, e.text.toList, []⟩ := by
  have hfound := scanTag_text_append h []
  have hends : EndsLike [' '] [] := by simp [EndsLike]
  have halone := scanTag_chars_append hfound (Or.inr hends)
  rwa [List.append_nil] at halone

end Element

/-! ### A stretch of a tag on its own -/

/-- **Reading a stretch of a tag on its own**: its tokens, and behind them its end. -/
def IsReadAs (cs : List Char) (ts : List Token) : Prop :=
  (lex .tag cs).tokens = ts ∧ ∃ gap, (lex .tag cs).fault = some (gap, .unterminatedTag)

/-- One lexeme on its own is read as its token, unless it closes the tag. -/
theorem isReadAs_singleton {cs : List Char} {t : Token} (h : scanTag cs = .ok ⟨t, cs, []⟩)
    (ht : modeAfter t = .tag) : IsReadAs cs [t] := by
  have hgap : ∀ c ∈ ([] : List Char), isBlank c = true := by simp
  have hstep := step_tag_of_scanTag hgap h
  rw [List.nil_append, ht] at hstep
  have hend : step .tag [] = .fault [] .unterminatedTag := rfl
  rw [IsReadAs, lex_of_token hstep, lex_of_fault hend]
  exact ⟨rfl, [], rfl⟩

/-- What is accepted is read as its own token. -/
theorem Element.Checked.isReadAs {cs : List Char} {e : Element} (h : Checked cs e) :
    IsReadAs cs [e.token] := by
  obtain ⟨he, rfl⟩ := checked_iff.mp h
  exact isReadAs_singleton (scanTag_text he.isFinite) (by cases e <;> rfl)

/-! ### Elements of documents -/

/-- A lexeme of a reading was handed out by a step. -/
theorem exists_step_of_mem_lexemes {mode : Mode} {cs : List Char} {l : Lexeme}
    (h : l ∈ (lex mode cs).lexemes) :
    ∃ mode₁ mode₂ cs₁ cs₂, step mode₁ cs₁ = .token l mode₂ cs₂ := by
  obtain ⟨before, after, heq⟩ := List.append_of_mem h
  obtain ⟨mode₁, cs₁, -, hlex, -⟩ := exists_steps_of_lexemes_eq_append heq
  obtain ⟨mode₂, cs₂, hstep, -⟩ :=
    exists_step_of_lexemes_eq_cons (congrArg Lexing.lexemes hlex)
  exact ⟨mode₁, mode₂, cs₁, cs₂, hstep⟩

/-- The lexemes of names, functions and operators are accepted by the constructors. -/
theorem Element.checked_of_mem_lexemes {mode : Mode} {cs : List Char} {l : Lexeme}
    (h : l ∈ (lex mode cs).lexemes) {e : Element} (htoken : l.token = e.token)
    (he : e.InVocabulary) : Checked l.chars e := by
  obtain ⟨mode₁, mode₂, cs₁, cs₂, hstep⟩ := exists_step_of_mem_lexemes h
  obtain rfl : mode₁ = .tag := by
    rw [(gap_of_step hstep).1, htoken]
    cases e <;> rfl
  obtain ⟨f, hf, rfl, rfl, rfl⟩ := exists_found_of_step hstep
  exact checked_of_scanTag hf htoken he

/-- The elements a node is made of itself. Those in the body of a loop are left to its nodes. -/
def Node.elements : Node → List Element
  | .text _ => []
  | .echo es => es
  | .loop header _ => header.elements

/-- Nodes in a row are walked one after the other. -/
theorem Node.walkAll_append (ns ms : List Node) :
    Node.walkAll (ns ++ ms) = Node.walkAll ns ++ Node.walkAll ms := by
  induction ns with
  | nil => rfl
  | cons n ns ih => rw [List.cons_append, Node.walkAll, ih, Node.walkAll, List.append_assoc]

/-- **Every element of a document has its token** among those that the document was read from. -/
theorem Derives.token_mem {ts : List Token} {ns : List Node} (h : Derives ts ns) :
    ∀ n ∈ Node.walkAll ns, ∀ e ∈ n.elements, e.token ∈ ts := by
  induction h with
  | nil => simp [Node.walkAll]
  | text content => simp [Node.walkAll, Node.walk, Node.elements]
  | @echo es _ =>
      intro n hn e he
      obtain rfl : n = .echo es := by simpa [Node.walkAll, Node.walk] using hn
      have hmem : e.token ∈ es.map Element.token := List.mem_map_of_mem he
      simp only [List.mem_append, List.mem_cons, hmem, true_or, or_true]
  | @loop header enter leave ts body _ _ _ ih =>
      intro n hn e he
      simp only [Node.walkAll, Node.walk, List.append_nil, List.mem_cons] at hn
      rcases hn with rfl | hn
      · have hmem : e.token ∈ header.elements.map Element.token := List.mem_map_of_mem he
        simp only [List.mem_append, List.mem_cons, hmem, true_or, or_true]
      · simp only [List.mem_append, ih n hn e he, true_or, or_true]
  | append _ _ ih₁ ih₂ =>
      intro n hn e he
      rw [Node.walkAll_append] at hn
      rcases List.mem_append.mp hn with hn | hn
      · exact List.mem_append_left _ (ih₁ n hn e he)
      · exact List.mem_append_right _ (ih₂ n hn e he)

/-- The elements of a parsed document come from lexemes of its source. -/
theorem exists_lexeme_of_parse {source : String} {d : Document} (h : parse source = .ok d)
    {n : Node} (hn : n ∈ d.walk) {e : Element} (he : e ∈ n.elements) :
    ∃ l ∈ (Lexing.ofSource source).lexemes, l.token = e.token := by
  obtain ⟨ts, htokens, htree⟩ := parse_eq_ok_iff_parseTokens.mp h
  obtain ⟨rfl, -⟩ := tokenize_eq_ok_iff.mp htokens
  exact List.mem_map.mp ((parseTokens_eq_ok_iff.mp htree).token_mem n hn e he)

/-- An accepted element in an echo tag is parsed as itself. -/
theorem Element.Checked.parse_echo {cs : List Char} {e : Element} (h : Checked cs e) :
    parse ("\x7b$= " ++ String.ofList cs ++ " $\x7d") = .ok { children := [.echo [e]] } := by
  obtain ⟨he, rfl⟩ := checked_iff.mp h
  have hwritable : Document.Writable { children := [.echo [e]] } := by
    simpa [Document.Writable, Node.WritableAll, Node.Writable] using he.isFinite
  have htidy : Document.Tidy { children := [.echo [e]] } := by
    simp [Document.Tidy, Node.TidyAll, Node.Tidy]
  have hsource : Document.source { children := [.echo [e]] } =
      "\x7b$= " ++ String.ofList e.text.toList ++ " $\x7d" := by
    simp [Document.source, Node.sourceAll, Node.source, Node.elementsText]
  rw [← hsource]
  exact Document.parse_source_eq_self hwritable htidy

/-! ### Agreement -/

/-- **Constructors and lexer share one vocabulary.** -/
structure SharedVocabulary : Prop where
  /-- A text is a name to one constructor, to the other, by the pattern of words, and to the lexer,
  alone and behind an at sign. -/
  name : ∀ text : String, List.TFAE [
    ∃ e, Element.ofVariable text = .ok e,
    ∃ e, Element.ofFunction text = .ok e,
    text.toList ∈ wordPattern,
    ∃ name : Identifier, name.text = text ∧ IsReadAs text.toList [.name name],
    ∃ name : Identifier, name.text = text ∧ IsReadAs ('@' :: text.toList) [.function name]]
  /-- A character is an operator to the constructor, by the list of them, and to the lexer. -/
  operator : ∀ c : Char, List.TFAE [
    ∃ e, Element.ofOperator c = .ok e,
    c ∈ ['+', '-', '*', '/', '^'],
    ∃ op : Operator, op.symbol = c ∧ IsReadAs [c] [.operator op]]
  /-- What the parser makes of names and operators is what the constructors make of the characters
  it was read from. -/
  parsed : ∀ source d, parse source = .ok d → ∀ n ∈ d.walk, ∀ e ∈ n.elements, e.InVocabulary →
    ∃ l ∈ (Lexing.ofSource source).lexemes, l.token = e.token ∧ Element.Checked l.chars e
  /-- What a constructor accepts is read back, on its own and in a template. -/
  reread : ∀ cs e, Element.Checked cs e → IsReadAs cs [e.token] ∧
    parse ("\x7b$= " ++ String.ofList cs ++ " $\x7d") = .ok { children := [.echo [e]] }

/-- **The constructors of elements and the lexer of tags agree** on names and operators. -/
theorem shared_vocabulary : SharedVocabulary := by
  constructor
  case name =>
    intro text
    tfae_have 1 → 2 := by
      rintro ⟨e, he⟩
      obtain ⟨name, hname, -⟩ := Element.ofVariable_eq_ok_iff.mp he
      exact ⟨_, Element.ofFunction_eq_ok_iff.mpr ⟨name, hname, rfl⟩⟩
    tfae_have 2 → 3 := by
      rintro ⟨e, he⟩
      obtain ⟨name, hname, -⟩ := Element.ofFunction_eq_ok_iff.mp he
      exact Identifier.exists_text_eq_iff.mp ⟨name, hname⟩
    tfae_have 3 → 4 := by
      intro hword
      obtain ⟨name, hname⟩ := Identifier.exists_text_eq_iff.mpr hword
      have he := Element.ofVariable_eq_ok_iff.mpr ⟨name, hname, rfl⟩
      exact ⟨name, hname, (Element.Checked.var he).isReadAs⟩
    tfae_have 4 → 5 := by
      rintro ⟨name, hname, -⟩
      have he := Element.ofFunction_eq_ok_iff.mpr ⟨name, hname, rfl⟩
      exact ⟨name, hname, (Element.Checked.function he).isReadAs⟩
    tfae_have 5 → 1 := by
      rintro ⟨name, hname, -⟩
      exact ⟨_, Element.ofVariable_eq_ok_iff.mpr ⟨name, hname, rfl⟩⟩
    tfae_finish
  case operator =>
    intro c
    tfae_have 1 → 2 := by
      rintro ⟨e, he⟩
      obtain ⟨op, hop, -⟩ := Element.ofOperator_eq_ok_iff.mp he
      exact Operator.exists_symbol_eq_iff.mp ⟨op, hop⟩
    tfae_have 2 → 3 := by
      intro hsymbol
      obtain ⟨op, hop⟩ := Operator.exists_symbol_eq_iff.mpr hsymbol
      have he := Element.ofOperator_eq_ok_iff.mpr ⟨op, hop, rfl⟩
      exact ⟨op, hop, (Element.Checked.operator he).isReadAs⟩
    tfae_have 3 → 1 := by
      rintro ⟨op, hop, -⟩
      exact ⟨_, Element.ofOperator_eq_ok_iff.mpr ⟨op, hop, rfl⟩⟩
    tfae_finish
  case parsed =>
    intro source d h n hn e he hword
    obtain ⟨l, hl, htoken⟩ := exists_lexeme_of_parse h hn he
    exact ⟨l, hl, htoken, Element.checked_of_mem_lexemes hl htoken hword⟩
  case reread =>
    intro cs e h
    exact ⟨h.isReadAs, h.parse_echo⟩

end TagTemplate
