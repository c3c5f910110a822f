import TagTemplate.Markup
import TagTemplate.Proofs.Element
import TagTemplate.Proofs.Entity

/-!
# Documents read back from markup

Two documents with the same markup are the same document. Texts stand in the markup without
indentation and may hold line feeds, brackets and whole closing tags, and elements stand side by
side with blanks between them which strings may hold as well. All the same there is only one way to
read it.

The markup of a node is read from its front, in front of anything (`node_append_inj`). Content ends
at the next bracket, and an attribute at the next quote, since escaped text holds neither
(`append_cons_inj`). What is between is then the same in both, so that it is escaped from the same
text, and elements are known from their text because they can be read back from it
(`Node.elementsText_inj`). A list of nodes ends where there is no node, which is the case in front
of a closing tag at the level outside (`closes_indentation`).

## Main results

* `Node.elementsText_inj`: elements are known from their text.
* `properties_append_inj`: headers are known from their attributes.
* `node_append_inj`, `nodes_append_inj`: nodes are known from their markup.
* `document_inj`: documents are known from their markup.
-/

namespace TagTemplate

/-! ### Documents with finite doubles -/

mutual

/-- A node whose doubles are finite. -/
def Node.IsFinite : Node → Prop
  | .text _ => True
  | .echo elements => ∀ e ∈ elements, e.IsFinite
  | .loop header body => (∀ e ∈ header.elements, e.IsFinite) ∧ Node.IsFiniteAll body

/-- Nodes whose doubles are finite. -/
def Node.IsFiniteAll : List Node → Prop
  | [] => True
  | n :: ns => n.IsFinite ∧ Node.IsFiniteAll ns

end

/-- A document whose doubles are finite, at every depth. -/
def Document.IsFinite (d : Document) : Prop := Node.IsFiniteAll d.children

/-! ### Elements from their text -/

/-- Elements are known from their tokens. -/
theorem Element.token_injective : Function.Injective Element.token := by
  intro a b h
  have ha : a.token.element? = some a := Token.element?_eq_some_iff.mpr rfl
  have hb : b.token.element? = some b := Token.element?_eq_some_iff.mpr rfl
  rw [h, hb] at ha
  exact (Option.some.inj ha).symm

/-- **Elements are known from their text**, since they are read back from it. -/
theorem Node.elementsText_inj {es es' : List Element} (h : ∀ e ∈ es, e.IsFinite)
    (h' : ∀ e ∈ es', e.IsFinite) (heq : Node.elementsText es = Node.elementsText es') :
    es = es' := by
  have hgap : ∀ c ∈ ([] : List Char), isBlank c = true := by simp
  have htokens := (steps_elementsText h hgap []).tokens_lex.1
  have htokens' := (steps_elementsText h' hgap []).tokens_lex.1
  rw [heq, htokens'] at htokens
  have hmap := List.append_cancel_right (List.append_cancel_right htokens)
  exact (Element.token_injective.list_map hmap).symm

/-- A single element is known from its text. -/
theorem Element.text_inj {e e' : Element} (h : e.IsFinite) (h' : e'.IsFinite)
    (heq : e.text = e'.text) : e = e' := by
  have hsingle : [e] = [e'] := by
    refine Node.elementsText_inj (by simpa using h) (by simpa using h') ?_
    simp [Node.elementsText, heq]
  exact List.singleton_inj.mp hsingle

namespace Markup

/-! ### Up to a mark -/

/-- What stands in front of the first of its marks is known, and so is what stands behind. -/
theorem append_cons_inj {a : Char} {front front' back back' : List Char} (h : a ∉ front)
    (h' : a ∉ front') (heq : front ++ a :: back = front' ++ a :: back') :
    front = front' ∧ back = back' := by
  induction front generalizing front' with
  | nil =>
      cases front' with
      | nil => exact ⟨rfl, (List.cons.inj heq).2⟩
      | cons c front' =>
          obtain ⟨rfl, -⟩ := List.cons.inj heq
          exact absurd (List.mem_cons_self ..) h'
  | cons c front ih =>
      cases front' with
      | nil =>
          obtain ⟨rfl, -⟩ := List.cons.inj heq
          exact absurd (List.mem_cons_self ..) h
      | cons c' front' =>
          obtain ⟨rfl, htail⟩ := List.cons.inj heq
          obtain ⟨rfl, rfl⟩ := ih (fun hmem => h (List.mem_cons_of_mem _ hmem))
            (fun hmem => h' (List.mem_cons_of_mem _ hmem)) htail
          exact ⟨rfl, rfl⟩

/-- Escaped text in front of a bracket or a quote is known. -/
theorem escape_append_inj {a : Char} (ha : a ∈ Entity.special) (hamp : a ≠ '&')
    {text text' : String} {back back' : List Char}
    (h : (Entity.escape text).toList ++ a :: back = (Entity.escape text').toList ++ a :: back') :
    text = text' ∧ back = back' := by
  obtain ⟨heq, hback⟩ := append_cons_inj (Entity.notMem_escape ha hamp text)
    (Entity.notMem_escape ha hamp text') h
  exact ⟨Entity.escape_injective (String.toList_inj.mp heq), hback⟩

/-- Elements are escaped like their text. -/
theorem elements_eq_escape (es : List Element) :
    elements es = Entity.escape (Node.elementsText es) := by
  have hblank : (Entity.escape " ").toList = [' '] := by rw [Entity.toList_escape]; rfl
  rw [← String.toList_inj, elements, Node.elementsText]
  induction es with
  | nil => rfl
  | cons e es ih =>
      cases es with
      | nil => simp
      | cons e' es =>
          rw [List.map_cons, List.map_cons, List.map_cons, List.map_cons,
            String.intercalate_cons_cons, String.intercalate_cons_cons, Entity.escape_append,
            Entity.escape_append]
          simp only [List.map_cons] at ih
          simp [ih, hblank]

/-! ### Attributes -/

/-- An attribute in front of anything is known. -/
theorem property_append_inj (name : String) {e e' : Element} (h : e.IsFinite) (h' : e'.IsFinite)
    {r s : List Char} (heq : (property name e).toList ++ r = (property name e').toList ++ s) :
    e = e' ∧ r = s := by
  simp only [property, String.toList_append, List.append_assoc, List.append_cancel_left_eq] at heq
  obtain ⟨htext, hrest⟩ := escape_append_inj (a := '"') (by decide) (by decide) heq
  exact ⟨Element.text_inj h h' htext, by simpa using hrest⟩

/-- Bounds are known from their elements. -/
theorem bound_ext {a b : Bound} (h : a.element = b.element) : a = b := by
  obtain ⟨a, ha⟩ := a
  obtain ⟨b, hb⟩ := b
  simpa using h

/-- **A header is known from its attributes**, in front of the bracket behind them. -/
theorem properties_append_inj {h h' : LoopHeader} (hfinite : ∀ e ∈ h.elements, e.IsFinite)
    (hfinite' : ∀ e ∈ h'.elements, e.IsFinite) {r s : List Char}
    (heq : (properties h).toList ++ '>' :: r = (properties h').toList ++ '>' :: s) :
    h = h' ∧ r = s := by
  obtain ⟨var, start, stop, step⟩ := h
  obtain ⟨var', start', stop', step'⟩ := h'
  simp only [LoopHeader.elements] at hfinite hfinite'
  simp only [properties, String.toList_append, List.append_assoc] at heq
  obtain ⟨hvar, hrest⟩ := property_append_inj "var" (by trivial) (by trivial) heq
  obtain ⟨hstart, hrest'⟩ := property_append_inj "start" (hfinite _ (by simp))
    (hfinite' _ (by simp)) hrest
  obtain ⟨hstop, hlast⟩ := property_append_inj "end" (hfinite _ (by simp))
    (hfinite' _ (by simp)) hrest'
  clear heq hrest hrest'
  obtain rfl : var = var' := by simpa using hvar
  obtain rfl := bound_ext hstart
  obtain rfl := bound_ext hstop
  -- an attribute begins with a blank, and the bracket is none
  cases step with
  | none =>
      cases step' with
      | none => exact ⟨rfl, by simpa using hlast⟩
      | some step' => simp [property] at hlast
  | some step =>
      cases step' with
      | none => simp [property] at hlast
      | some step' =>
          obtain ⟨hstep, hback⟩ := property_append_inj "step" (hfinite _ (by simp))
            (hfinite' _ (by simp)) hlast
          obtain rfl := bound_ext hstep
          exact ⟨rfl, by simpa using hback⟩

/-! ### Nodes -/

/-- What stands behind the bracket that ends the opening tag of a loop. -/
def inside (level : Nat) : List Node → String
  | [] => "</for>\n"
  | n :: ns => "\n" ++ nodes (level + 1) (n :: ns) ++ indentation level ++ "</for>\n"

/-- A loop, empty or not. -/
theorem node_loop (level : Nat) (header : LoopHeader) (body : List Node) :
    node level (.loop header body) =
      indentation level ++ "<for" ++ properties header ++ ">" ++ inside level body := by
  rw [← String.toList_inj]
  cases body with
  | nil => simp [node, inside]
  | cons n ns => simp [node, nodes, inside]

/-- Every node begins with its indentation, a bracket and a letter. -/
theorem exists_node_eq (level : Nat) (n : Node) : ∃ c r, c ≠ '/' ∧
    (node level n).toList = (indentation level).toList ++ '<' :: c :: r := by
  cases n with
  | text content => exact ⟨'t', _, by decide, by simp [node]; rfl⟩
  | echo es => exact ⟨'e', _, by decide, by simp [node]; rfl⟩
  | loop header body => exact ⟨'f', _, by decide, by simp [node_loop]; rfl⟩

/-- No node of a level begins here. -/
def Closes (level : Nat) (cs : List Char) : Prop := ∀ n r, (node level n).toList ++ r ≠ cs

/-- Indentation of a level and of more levels behind it. -/
theorem indentation_add (a b : Nat) : (indentation (a + b)).toList =
    (indentation a).toList ++ (indentation b).toList := by
  simp only [indentation, String.toList_ofList, List.replicate_append_replicate, Nat.mul_add]

/-- **A closing tag** at a level or further out is no node of that level. -/
theorem closes_indentation {outer level : Nat} (h : outer ≤ level) (r : List Char) :
    Closes level ((indentation outer).toList ++ '<' :: '/' :: r) := by
  intro n s heq
  obtain ⟨c, t, hc, hnode⟩ := exists_node_eq level n
  obtain ⟨deeper, rfl⟩ := Nat.exists_eq_add_of_le h
  rw [hnode, indentation_add, List.append_assoc, List.append_assoc,
    List.append_cancel_left_eq] at heq
  cases deeper with
  | zero =>
      simp [indentation] at heq
      exact hc heq.1
  | succ deeper =>
      simp [indentation, Nat.mul_add, List.replicate_succ] at heq

mutual

/-- **A node is known from its markup**, in front of anything. -/
theorem node_append_inj (level : Nat) (n m : Node) (hn : n.IsFinite) (hm : m.IsFinite)
    {r s : List Char} (h : (node level n).toList ++ r = (node level m).toList ++ s) :
    n = m ∧ r = s := by
  cases n with
  | text content =>
      cases m with
      | text content' =>
          simp only [node, String.toList_append, List.append_assoc,
            List.append_cancel_left_eq] at h
          obtain ⟨rfl, hrest⟩ := escape_append_inj (a := '<') (by decide) (by decide) h
          exact ⟨rfl, by simpa using hrest⟩
      | echo es => simp [node] at h
      | loop header body => simp [node, node_loop] at h
  | echo es =>
      cases m with
      | echo es' =>
          simp only [node, String.toList_append, List.append_assoc,
            List.append_cancel_left_eq, elements_eq_escape] at h
          obtain ⟨htext, hrest⟩ := escape_append_inj (a := '<') (by decide) (by decide) h
          obtain rfl := Node.elementsText_inj hn hm htext
          exact ⟨rfl, by simpa using hrest⟩
      | text content => simp [node] at h
      | loop header body => simp [node, node_loop] at h
  | loop header body =>
      cases m with
      | loop header' body' =>
          simp only [Node.IsFinite] at hn hm
          simp only [node_loop, String.toList_append, List.append_assoc,
            List.append_cancel_left_eq] at h
          obtain ⟨rfl, hinside⟩ : header = header' ∧
              (inside level body).toList ++ r = (inside level body').toList ++ s :=
            properties_append_inj hn.1 hm.1 h
          cases body with
          | nil =>
              cases body' with
              | nil => exact ⟨rfl, by simpa [inside] using hinside⟩
              | cons m ms => simp [inside] at hinside
          | cons n ns =>
              cases body' with
              | nil => simp [inside] at hinside
              | cons m ms =>
                  simp only [inside, String.toList_append, List.append_assoc,
                    List.append_cancel_left_eq] at hinside
                  obtain ⟨hbody, hrest⟩ := nodes_append_inj (level + 1) (n :: ns) (m :: ms)
                    hn.2 hm.2 (closes_indentation (Nat.le_succ level) _)
                    (closes_indentation (Nat.le_succ level) _) hinside
                  exact ⟨by rw [hbody], by simpa using hrest⟩
      | text content => simp [node, node_loop] at h
      | echo es => simp [node, node_loop] at h

/-- **Nodes in a row are known from their markup**, in front of anything that is no node. -/
theorem nodes_append_inj (level : Nat) (ns ms : List Node) (hns : Node.IsFiniteAll ns)
    (hms : Node.IsFiniteAll ms) {r s : List Char} (hr : Closes level r) (hs : Closes level s)
    (h : (nodes level ns).toList ++ r = (nodes level ms).toList ++ s) : ns = ms ∧ r = s := by
  cases ns with
  | nil =>
      cases ms with
      | nil => exact ⟨rfl, by simpa [nodes] using h⟩
      | cons m ms =>
          rw [nodes, nodes, String.toList_append, List.append_assoc] at h
          exact absurd h.symm (hr m _)
  | cons n ns =>
      cases ms with
      | nil =>
          rw [nodes, nodes, String.toList_append, List.append_assoc] at h
          exact absurd h (hs n _)
      | cons m ms =>
          rw [nodes, nodes, String.toList_append, String.toList_append, List.append_assoc,
            List.append_assoc] at h
          obtain ⟨rfl, hmore⟩ := node_append_inj level n m hns.1 hms.1 h
          obtain ⟨rfl, hrest⟩ := nodes_append_inj level ns ms hns.2 hms.2 hr hs hmore
          exact ⟨rfl, hrest⟩

end

/-- **Markup tells documents apart**, whatever their texts hold: equal markup comes from equal
documents, if their doubles are finite. -/
theorem document_inj (d₁ d₂ : Document) (h₁ : d₁.IsFinite) (h₂ : d₂.IsFinite) :
    document d₁ = document d₂ ↔ d₁ = d₂ := by
  constructor
  · intro h
    have hclose : Closes 1 "</document>".toList := by
      exact closes_indentation (Nat.zero_le 1) "document>".toList
    rw [← String.toList_inj] at h
    simp only [document, String.toList_append, List.append_assoc,
      List.append_cancel_left_eq] at h
    obtain ⟨hchildren, -⟩ := nodes_append_inj 1 d₁.children d₂.children h₁ h₂ hclose hclose h
    obtain ⟨children⟩ := d₁
    exact congrArg Document.mk hchildren
  · rintro rfl
    rfl

/-- A text that holds a closing tag and an opening one is not two texts, and the sign of zero
counts. -/
theorem document_inj_brackets :
    document ⟨[.text "</text>\n  <text>", .echo [], .echo [.double ⟨true, 0⟩]]⟩ ≠
      document ⟨[.text "", .text "", .echo [], .echo [.double ⟨false, 0⟩]]⟩ := by
  have hfinite (negative : Bool) : (Binary64.mk negative 0#63).isFinite = true := by
    cases negative <;> decide
  rw [Ne, document_inj]
  · simp
  · simp [Document.IsFinite, Node.IsFiniteAll, Node.IsFinite, Element.IsFinite, hfinite]
  · simp [Document.IsFinite, Node.IsFiniteAll, Node.IsFinite, Element.IsFinite, hfinite]

end Markup

end TagTemplate
