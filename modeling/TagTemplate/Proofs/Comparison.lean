import TagTemplate.Proofs.JsonTree
import TagTemplate.Proofs.RoundTrip
import Mathlib.Data.List.Forall2

/-!
# Trees compared place by place

A comparison walks through two trees at once and forgives small distances between doubles. What it
comes to can be told without the walk. *Masking* puts zero in the place of every double and leaves
all else as it is; two trees agree if and only if they are the same tree when masked, and their
doubles, listed in the order in which they are written, are pairwise close. Trees that are the same
when masked have as many doubles, so that the lists pair those at the same places.

A comparison does not look whether names are names. It is told for plain trees, of which every
document is one, and the comparison of documents is that of their plain trees
(`Document.agrees_plain`).

## Zero convention

Masks are zeros, not holes, so that a masked tree is a tree again. Nothing is lost by this: a tree
is known from its masked tree and the list of its doubles (`PlainTree.eq_of_masked_of_doubles`).

## Main results

* `PlainTree.agrees_iff`: the trees that agree.
* `PlainTree.nodeCount_masked`: masking keeps the number of nodes.
* `compares_pointwise`: plain trees and documents are compared place by place.
-/

namespace TagTemplate

/-! ### Doubles -/

/-- **Close doubles**: the same number, or nearer to each other than the tolerance. -/
def Binary64.Close (x y : Binary64) : Prop :=
  x.sameValue y = true ∨ (x.absDiff y).less Element.tolerance = true

/-- Close doubles are those that the comparison takes for the same. -/
theorem Element.near_iff {x y : Binary64} : near x y = true ↔ x.Close y := by
  simp [near, Binary64.Close]

namespace Binary64

/-- To be the same number goes both ways. -/
theorem sameValue_comm (x y : Binary64) : x.sameValue y = y.sameValue x := by
  rw [sameValue, sameValue, Bool.and_comm (!x.isNaN), Bool.beq_comm]

/-- Both differences have the same distance, exactly and therefore when rounded. -/
theorem absDiff_comm (x y : Binary64) : x.absDiff y = y.absDiff x := by
  have hexact : (x.signedGrains - y.signedGrains).natAbs =
      (y.signedGrains - x.signedGrains).natAbs := by
    rw [← Int.natAbs_neg, Int.neg_sub]
  simp only [absDiff, hexact, Bool.and_comm x.isFinite, Bool.or_comm x.isNaN,
    Bool.beq_comm (a := x)]

/-- Closeness goes both ways. -/
theorem close_comm {x y : Binary64} : x.Close y ↔ y.Close x := by
  rw [Close, Close, sameValue_comm, absDiff_comm]

/-- **A double is close to itself unless it is NaN**, for which no distance is a number. -/
theorem close_self_iff {x : Binary64} : x.Close x ↔ x.isNaN = false := by
  constructor
  · intro hclose
    by_contra hnan
    rw [Bool.not_eq_false] at hnan
    have hfinite : x.isFinite = false := by
      rw [Bool.eq_false_iff]
      intro hfinite
      rw [isNaN_of_isFinite hfinite] at hnan
      cases hnan
    have hdistance : (x.absDiff x).isNaN = true := by
      simp only [absDiff, hfinite, hnan, Bool.false_and, Bool.true_or, Bool.false_eq_true,
        if_false, if_true]
      decide
    rcases hclose with hsame | hless
    · simp [sameValue, hnan] at hsame
    · simp [less, hdistance] at hless
  · intro hnan
    exact Or.inl (by simp [sameValue, hnan])

end Binary64

/-- Lists put together of parts of the same lengths are related part by part. -/
theorem forall₂_append_iff {α β : Type} {R : α → β → Prop} {as cs : List α} {bs ds : List β}
    (hlength : as.length = bs.length) :
    List.Forall₂ R (as ++ cs) (bs ++ ds) ↔ List.Forall₂ R as bs ∧ List.Forall₂ R cs ds := by
  induction as generalizing bs with
  | nil =>
      obtain rfl := List.eq_nil_of_length_eq_zero hlength.symm
      simp
  | cons a as ih =>
      obtain ⟨b, bs, rfl⟩ := List.exists_cons_of_length_eq_add_one hlength.symm
      simp [ih (Nat.succ.inj hlength), and_assoc]

/-- What two parts meet one by one they meet together, if what is said of the first parts makes them
as long as each other. -/
theorem and_forall₂_append_iff {α β : Type} {R : α → β → Prop} {as cs : List α} {bs ds : List β}
    {p q : Prop} (hlength : p → as.length = bs.length) :
    ((p ∧ List.Forall₂ R as bs) ∧ q ∧ List.Forall₂ R cs ds) ↔
      (p ∧ q) ∧ List.Forall₂ R (as ++ cs) (bs ++ ds) := by
  constructor
  · rintro ⟨⟨hp, hfirst⟩, hq, hsecond⟩
    exact ⟨⟨hp, hq⟩, (forall₂_append_iff (hlength hp)).mpr ⟨hfirst, hsecond⟩⟩
  · rintro ⟨⟨hp, hq⟩, hall⟩
    obtain ⟨hfirst, hsecond⟩ := (forall₂_append_iff (hlength hp)).mp hall
    exact ⟨⟨hp, hfirst⟩, hq, hsecond⟩

/-! ### Elements -/

namespace PlainElement

/-- The same element, doubles being compared up to the tolerance. -/
def agrees : PlainElement → PlainElement → Bool
  | integer a, integer b => a == b
  | double a, double b => Element.near a b
  | string a, string b => a == b
  | var a, var b => a == b
  | function a, function b => a == b
  | operator a, operator b => a == b
  | _, _ => false

/-- Elements in a row agree one by one, and there are as many of them. -/
def agreesAll : List PlainElement → List PlainElement → Bool
  | [], [] => true
  | a :: as, b :: bs => a.agrees b && agreesAll as bs
  | _, _ => false

/-- An element with zero for a double. -/
def masked : PlainElement → PlainElement
  | double _ => double ⟨false, 0⟩
  | e => e

/-- The double that an element is, if it is one. -/
def doubles : PlainElement → List Binary64
  | double x => [x]
  | _ => []

/-- Elements that are the same when masked have as many doubles. -/
theorem length_doubles_congr {a b : PlainElement} (h : a.masked = b.masked) :
    a.doubles.length = b.doubles.length := by
  cases a <;> cases b <;> simp_all [masked, doubles]

/-- The same for elements in a row. -/
theorem length_flatMap_doubles_congr {as bs : List PlainElement}
    (h : as.map masked = bs.map masked) :
    (as.flatMap doubles).length = (bs.flatMap doubles).length := by
  induction as generalizing bs with
  | nil => simp_all [eq_comm]
  | cons a as ih =>
      obtain ⟨b, bs, rfl, hb, hbs⟩ := List.map_eq_cons_iff.mp h.symm
      simp [length_doubles_congr hb, ih hbs.symm]

/-- An element is known from what masking leaves of it and its double. -/
theorem eq_of_masked_of_doubles {a b : PlainElement} (hmasked : a.masked = b.masked)
    (hdoubles : a.doubles = b.doubles) : a = b := by
  cases a <;> cases b <;> simp_all [masked, doubles]

/-- The elements that agree. -/
theorem agrees_iff {a b : PlainElement} :
    a.agrees b = true ↔
      a.masked = b.masked ∧ List.Forall₂ Binary64.Close a.doubles b.doubles := by
  cases a <;> cases b <;> simp [agrees, masked, doubles, Element.near_iff]

/-- Elements in a row are known from what masking leaves of them and their doubles. -/
theorem eq_of_map_masked_of_flatMap_doubles {as bs : List PlainElement}
    (hmasked : as.map masked = bs.map masked)
    (hdoubles : as.flatMap doubles = bs.flatMap doubles) : as = bs := by
  induction as generalizing bs with
  | nil => simpa [eq_comm] using hmasked
  | cons a as ih =>
      obtain ⟨b, bs, rfl, hb, hbs⟩ := List.map_eq_cons_iff.mp hmasked.symm
      obtain ⟨ha, has⟩ := List.append_inj hdoubles (length_doubles_congr hb.symm)
      rw [eq_of_masked_of_doubles hb.symm ha, ih hbs.symm has]

/-- **The elements in a row that agree**: those of the same kinds in the same order, with the same
contents but for close doubles. -/
theorem agreesAll_iff {as bs : List PlainElement} :
    agreesAll as bs = true ↔ as.map masked = bs.map masked ∧
      List.Forall₂ Binary64.Close (as.flatMap doubles) (bs.flatMap doubles) := by
  induction as generalizing bs with
  | nil => cases bs <;> simp [agreesAll]
  | cons a as ih =>
      cases bs with
      | nil => simp [agreesAll]
      | cons b bs =>
          simp only [agreesAll, Bool.and_eq_true, agrees_iff, ih, List.map_cons, List.cons.injEq,
            List.flatMap_cons]
          exact and_forall₂_append_iff length_doubles_congr

end PlainElement

/-! ### Headers -/

namespace PlainHeader

/-- The parts of a header in the order in which they are written. -/
def elements (h : PlainHeader) : List PlainElement := [h.var, h.start, h.stop] ++ h.step.toList

/-- The same step, or none in both. -/
def stepsAgree : Option PlainElement → Option PlainElement → Bool
  | none, none => true
  | some a, some b => a.agrees b
  | _, _ => false

/-- The same header, doubles being compared up to the tolerance. -/
def agrees (a b : PlainHeader) : Bool :=
  a.var.agrees b.var && a.start.agrees b.start && a.stop.agrees b.stop && stepsAgree a.step b.step

/-- A header with zeros for its doubles. -/
def masked (h : PlainHeader) : PlainHeader where
  var := h.var.masked
  start := h.start.masked
  stop := h.stop.masked
  step := h.step.map PlainElement.masked

/-- The doubles of a header. -/
def doubles (h : PlainHeader) : List Binary64 := h.elements.flatMap PlainElement.doubles

/-- Headers agree as their elements do. -/
theorem agrees_eq_agreesAll (a b : PlainHeader) :
    a.agrees b = PlainElement.agreesAll a.elements b.elements := by
  obtain ⟨var, start, stop, step⟩ := a
  obtain ⟨var', start', stop', step'⟩ := b
  cases step <;> cases step' <;>
    simp [agrees, stepsAgree, elements, PlainElement.agreesAll, Bool.and_assoc]

/-- A header is known from its elements. -/
theorem elements_injective : Function.Injective elements := by
  rintro ⟨var, start, stop, step⟩ ⟨var', start', stop', step'⟩ h
  cases step <;> cases step' <;> simp_all [elements]

/-- A header is masked element by element. -/
theorem elements_masked (h : PlainHeader) :
    h.masked.elements = h.elements.map PlainElement.masked := by
  obtain ⟨var, start, stop, step⟩ := h
  cases step <;> rfl

/-- Masked headers are the same where their elements are. -/
theorem masked_eq_iff {a b : PlainHeader} :
    a.masked = b.masked ↔
      a.elements.map PlainElement.masked = b.elements.map PlainElement.masked := by
  rw [← elements_masked, ← elements_masked]
  exact elements_injective.eq_iff.symm

/-- The headers that agree. -/
theorem agrees_iff {a b : PlainHeader} :
    a.agrees b = true ↔
      a.masked = b.masked ∧ List.Forall₂ Binary64.Close a.doubles b.doubles := by
  rw [agrees_eq_agreesAll, PlainElement.agreesAll_iff, masked_eq_iff, doubles, doubles]

/-- Headers that are the same when masked have as many doubles. -/
theorem length_doubles_congr {a b : PlainHeader} (h : a.masked = b.masked) :
    a.doubles.length = b.doubles.length :=
  PlainElement.length_flatMap_doubles_congr (masked_eq_iff.mp h)

/-- A header is known from what masking leaves of it and its doubles. -/
theorem eq_of_masked_of_doubles {a b : PlainHeader} (hmasked : a.masked = b.masked)
    (hdoubles : a.doubles = b.doubles) : a = b :=
  elements_injective
    (PlainElement.eq_of_map_masked_of_flatMap_doubles (masked_eq_iff.mp hmasked) hdoubles)

end PlainHeader

/-! ### Nodes -/

mutual

/-- The same node, doubles being compared up to the tolerance. -/
def PlainNode.agrees : PlainNode → PlainNode → Bool
  | .text a, .text b => a == b
  | .echo as, .echo bs => PlainElement.agreesAll as bs
  | .loop h as, .loop k bs => h.agrees k && PlainNode.agreesAll as bs
  | _, _ => false

/-- The same nodes in the same order, doubles being compared up to the tolerance. -/
def PlainNode.agreesAll : List PlainNode → List PlainNode → Bool
  | [], [] => true
  | a :: as, b :: bs => a.agrees b && PlainNode.agreesAll as bs
  | _, _ => false

end

mutual

/-- The number of nodes in a node, itself included. -/
def PlainNode.count : PlainNode → Nat
  | .text _ => 1
  | .echo _ => 1
  | .loop _ body => 1 + PlainNode.countAll body

/-- The number of nodes in a list of nodes and their bodies. -/
def PlainNode.countAll : List PlainNode → Nat
  | [] => 0
  | n :: ns => n.count + PlainNode.countAll ns

end

mutual

/-- A node with zeros for its doubles, at every depth. -/
def PlainNode.masked : PlainNode → PlainNode
  | .text content => .text content
  | .echo elements => .echo (elements.map PlainElement.masked)
  | .loop header body => .loop header.masked (PlainNode.maskedAll body)

/-- Nodes with zeros for their doubles, at every depth. -/
def PlainNode.maskedAll : List PlainNode → List PlainNode
  | [] => []
  | n :: ns => n.masked :: PlainNode.maskedAll ns

end

mutual

/-- The doubles of a node, in the order in which they are written. -/
def PlainNode.doubles : PlainNode → List Binary64
  | .text _ => []
  | .echo elements => elements.flatMap PlainElement.doubles
  | .loop header body => header.doubles ++ PlainNode.doublesAll body

/-- The doubles of nodes in a row. -/
def PlainNode.doublesAll : List PlainNode → List Binary64
  | [] => []
  | n :: ns => n.doubles ++ PlainNode.doublesAll ns

end

mutual

/-- Masking keeps the number of nodes. -/
theorem PlainNode.count_masked (n : PlainNode) : n.masked.count = n.count := by
  cases n with
  | text content => rfl
  | echo elements => rfl
  | loop header body => rw [masked, count, count, countAll_maskedAll body]

/-- The same for nodes in a row. -/
theorem PlainNode.countAll_maskedAll (ns : List PlainNode) :
    PlainNode.countAll (PlainNode.maskedAll ns) = PlainNode.countAll ns := by
  cases ns with
  | nil => rfl
  | cons n ns => rw [maskedAll, countAll, countAll, count_masked n, countAll_maskedAll ns]

end

mutual

/-- Nodes that are the same when masked have as many doubles. -/
theorem PlainNode.length_doubles_congr {a b : PlainNode} (h : a.masked = b.masked) :
    a.doubles.length = b.doubles.length := by
  cases a <;> cases b <;> simp only [masked, reduceCtorEq, echo.injEq, loop.injEq] at h
  case text.text => rfl
  case echo.echo => exact PlainElement.length_flatMap_doubles_congr h
  case loop.loop =>
    simp [doubles, PlainHeader.length_doubles_congr h.1, length_doublesAll_congr h.2]

/-- The same for nodes in a row. -/
theorem PlainNode.length_doublesAll_congr {as bs : List PlainNode}
    (h : PlainNode.maskedAll as = PlainNode.maskedAll bs) :
    (PlainNode.doublesAll as).length = (PlainNode.doublesAll bs).length := by
  cases as <;> cases bs <;> simp only [maskedAll, reduceCtorEq, List.cons.injEq] at h
  case nil.nil => rfl
  case cons.cons =>
    simp [doublesAll, length_doubles_congr h.1, length_doublesAll_congr h.2]

end

mutual

/-- The nodes that agree. -/
theorem PlainNode.agrees_iff {a b : PlainNode} :
    a.agrees b = true ↔
      a.masked = b.masked ∧ List.Forall₂ Binary64.Close a.doubles b.doubles := by
  cases a <;> cases b
  case text.text => simp [agrees, masked, doubles]
  case echo.echo => simpa [agrees, masked, doubles] using PlainElement.agreesAll_iff
  case loop.loop =>
    simp only [agrees, Bool.and_eq_true, PlainHeader.agrees_iff, agreesAll_iff, masked,
      loop.injEq, doubles]
    exact and_forall₂_append_iff PlainHeader.length_doubles_congr
  all_goals simp [agrees, masked]

/-- **The nodes in a row that agree**: those with the same masks and close doubles. -/
theorem PlainNode.agreesAll_iff {as bs : List PlainNode} :
    PlainNode.agreesAll as bs = true ↔ PlainNode.maskedAll as = PlainNode.maskedAll bs ∧
      List.Forall₂ Binary64.Close (PlainNode.doublesAll as) (PlainNode.doublesAll bs) := by
  cases as <;> cases bs
  case nil.nil => simp [agreesAll, maskedAll, doublesAll]
  case cons.cons =>
    simp only [agreesAll, Bool.and_eq_true, agrees_iff, agreesAll_iff, maskedAll,
      List.cons.injEq, doublesAll]
    exact and_forall₂_append_iff length_doubles_congr
  all_goals simp [agreesAll, maskedAll]

end

mutual

/-- A node is known from what masking leaves of it and its doubles. -/
theorem PlainNode.eq_of_masked_of_doubles {a b : PlainNode} (hmasked : a.masked = b.masked)
    (hdoubles : a.doubles = b.doubles) : a = b := by
  cases a <;> cases b <;>
    simp only [masked, reduceCtorEq, text.injEq, echo.injEq, loop.injEq] at hmasked
  case text.text => rw [hmasked]
  case echo.echo =>
    rw [PlainElement.eq_of_map_masked_of_flatMap_doubles hmasked hdoubles]
  case loop.loop =>
    have hlength := PlainHeader.length_doubles_congr hmasked.1
    obtain ⟨hheader, hbody⟩ := List.append_inj hdoubles hlength
    rw [PlainHeader.eq_of_masked_of_doubles hmasked.1 hheader,
      eq_of_maskedAll_of_doublesAll hmasked.2 hbody]

/-- The same for nodes in a row. -/
theorem PlainNode.eq_of_maskedAll_of_doublesAll {as bs : List PlainNode}
    (hmasked : PlainNode.maskedAll as = PlainNode.maskedAll bs)
    (hdoubles : PlainNode.doublesAll as = PlainNode.doublesAll bs) : as = bs := by
  cases as <;> cases bs <;> simp only [maskedAll, reduceCtorEq, List.cons.injEq] at hmasked
  case nil.nil => rfl
  case cons.cons =>
    have hlength := length_doubles_congr hmasked.1
    obtain ⟨hhead, htail⟩ := List.append_inj hdoubles hlength
    rw [eq_of_masked_of_doubles hmasked.1 hhead, eq_of_maskedAll_of_doublesAll hmasked.2 htail]

end

/-! ### Trees -/

namespace PlainTree

/-- The same tree, doubles being compared up to the tolerance. -/
def agrees (a b : PlainTree) : Bool := PlainNode.agreesAll a.children b.children

/-- The number of nodes in a tree. -/
def nodeCount (t : PlainTree) : Nat := PlainNode.countAll t.children

/-- A tree with zeros for its doubles, at every depth. -/
def masked (t : PlainTree) : PlainTree := ⟨PlainNode.maskedAll t.children⟩

/-- The doubles of a tree, in the order in which they are written. -/
def doubles (t : PlainTree) : List Binary64 := PlainNode.doublesAll t.children

/-- Masking keeps the number of nodes. -/
theorem nodeCount_masked (t : PlainTree) : t.masked.nodeCount = t.nodeCount :=
  PlainNode.countAll_maskedAll t.children

/-- **The trees that agree**: those with the same masks and close doubles. -/
theorem agrees_iff {a b : PlainTree} :
    a.agrees b = true ↔
      a.masked = b.masked ∧ List.Forall₂ Binary64.Close a.doubles b.doubles := by
  rw [agrees, PlainNode.agreesAll_iff, masked, masked, mk.injEq, doubles, doubles]

/-- **A tree is known from its mask and its doubles.** -/
theorem eq_of_masked_of_doubles {a b : PlainTree} (hmasked : a.masked = b.masked)
    (hdoubles : a.doubles = b.doubles) : a = b := by
  rw [masked, masked, mk.injEq] at hmasked
  exact congrArg mk (PlainNode.eq_of_maskedAll_of_doublesAll hmasked hdoubles)

end PlainTree

/-! ### Documents are compared as plain trees -/

/-- Names are the same where their texts are. -/
theorem Identifier.beq_eq (a b : Identifier) : (a == b) = (a.text == b.text) := by
  rw [Bool.eq_iff_iff, beq_iff_eq, beq_iff_eq, Identifier.mk.injEq]

/-- Operators are the same where their characters are. -/
theorem Operator.beq_eq (a b : Operator) : (a == b) = (a.symbol == b.symbol) := by
  cases a <;> cases b <;> rfl

/-- Elements agree as plain ones. -/
theorem Element.agrees_plain (a b : Element) : a.agrees b = a.plain.agrees b.plain := by
  cases a <;> cases b <;>
    simp [agrees, plain, PlainElement.agrees, Identifier.beq_eq, Operator.beq_eq]

/-- Elements in a row agree as plain ones. -/
theorem Element.agreesAll_plain (as bs : List Element) :
    Element.agreesAll as bs = PlainElement.agreesAll (as.map plain) (bs.map plain) := by
  induction as generalizing bs with
  | nil => cases bs <;> rfl
  | cons a as ih =>
      cases bs with
      | nil => rfl
      | cons b bs => simp [agreesAll, PlainElement.agreesAll, agrees_plain, ih]

/-- Headers agree as plain ones. -/
theorem LoopHeader.agrees_plain (a b : LoopHeader) : a.agrees b = a.plain.agrees b.plain := by
  have hstep : stepsAgree a.step b.step = PlainHeader.stepsAgree a.plain.step b.plain.step := by
    simp only [plain]
    cases a.step <;> cases b.step <;>
      simp [stepsAgree, PlainHeader.stepsAgree, Bound.agrees, Element.agrees_plain]
  rw [agrees, PlainHeader.agrees, hstep]
  simp [plain, Bound.agrees, Element.agrees_plain, Element.plain, PlainElement.agrees,
    Identifier.beq_eq]

mutual

/-- Nodes agree as plain ones. -/
theorem Node.agrees_plain (a b : Node) : a.agrees b = a.plain.agrees b.plain := by
  cases a <;> cases b
  case text.text => rfl
  case echo.echo => exact Element.agreesAll_plain _ _
  case loop.loop h as k bs =>
    rw [agrees, plain, plain, PlainNode.agrees, LoopHeader.agrees_plain, agreesAll_plain as bs]
  all_goals rfl

/-- Nodes in a row agree as plain ones. -/
theorem Node.agreesAll_plain (as bs : List Node) :
    Node.agreesAll as bs = PlainNode.agreesAll (Node.plainAll as) (Node.plainAll bs) := by
  cases as <;> cases bs
  case cons.cons a as b bs =>
    rw [agreesAll, plainAll, plainAll, PlainNode.agreesAll, agrees_plain a b,
      agreesAll_plain as bs]
  all_goals rfl

end

mutual

/-- Plain nodes are as many. -/
theorem Node.count_plain (n : Node) : n.plain.count = n.count := by
  cases n with
  | text content => rfl
  | echo elements => rfl
  | loop header body => rw [plain, PlainNode.count, count, countAll_plainAll body]

/-- The same for nodes in a row. -/
theorem Node.countAll_plainAll (ns : List Node) :
    PlainNode.countAll (Node.plainAll ns) = Node.countAll ns := by
  cases ns with
  | nil => rfl
  | cons n ns => rw [plainAll, PlainNode.countAll, countAll, count_plain n, countAll_plainAll ns]

end

/-- **Documents agree as plain trees.** -/
theorem Document.agrees_plain (a b : Document) : a.agrees b = a.plain.agrees b.plain :=
  Node.agreesAll_plain a.children b.children

/-- A document has as many nodes as its plain tree. -/
theorem Document.nodeCount_plain (d : Document) : d.plain.nodeCount = d.nodeCount :=
  Node.countAll_plainAll d.children

/-- Different documents have different plain trees. -/
theorem Document.plain_injective : Function.Injective Document.plain := by
  intro a b h
  have hread := a.ofPlain?_plain
  rw [h, b.ofPlain?_plain] at hread
  exact (Option.some.inj hread).symm

/-! ### Place by place -/

/-- **A comparison place by place** of things that consist of a mask and of doubles. -/
structure ComparesPointwise {α β : Type} (agrees : α → α → Bool) (masked : α → β)
    (doubles : α → List Binary64) (nodeCount : α → Nat) : Prop where
  /-- Those agree which are the same but for doubles, and those doubles are close. -/
  iff : ∀ a b, agrees a b = true ↔
    masked a = masked b ∧ List.Forall₂ Binary64.Close (doubles a) (doubles b)
  /-- There is nothing in them but the mask and the doubles. -/
  lossless : ∀ a b, masked a = masked b → doubles a = doubles b → a = b
  /-- It does not matter which comes first. -/
  symm : ∀ a b, agrees a b = agrees b a
  /-- Everything agrees with itself unless there is a NaN in it. -/
  self_iff : ∀ a, agrees a a = true ↔ ∀ x ∈ doubles a, x.isNaN = false
  /-- Those that agree have as many nodes. -/
  nodeCount : ∀ a b, agrees a b = true → nodeCount a = nodeCount b

/-- What is known of a comparison by masks and doubles follows from which things agree, if the mask
tells the number of nodes. -/
theorem ComparesPointwise.of_iff {α β : Type} {agrees : α → α → Bool} {masked : α → β}
    {doubles : α → List Binary64} {nodeCount : α → Nat}
    (iff : ∀ a b, agrees a b = true ↔
      masked a = masked b ∧ List.Forall₂ Binary64.Close (doubles a) (doubles b))
    (lossless : ∀ a b, masked a = masked b → doubles a = doubles b → a = b)
    (hcount : ∀ a b, masked a = masked b → nodeCount a = nodeCount b) :
    ComparesPointwise agrees masked doubles nodeCount where
  iff := iff
  lossless := lossless
  symm a b := by
    have hflip (as bs : List Binary64) (h : List.Forall₂ Binary64.Close as bs) :
        List.Forall₂ Binary64.Close bs as :=
      (h.imp fun _ _ => Binary64.close_comm.mp).flip
    rw [Bool.eq_iff_iff, iff, iff, eq_comm]
    exact and_congr_right fun _ => ⟨hflip _ _, hflip _ _⟩
  self_iff a := by
    rw [iff, List.forall₂_same]
    simp only [true_and, Binary64.close_self_iff]
  nodeCount a b h := hcount a b ((iff a b).mp h).1

/-- **Trees are compared place by place**, plain trees and documents, and what was parsed agrees
with itself. -/
theorem compares_pointwise :
    ComparesPointwise PlainTree.agrees PlainTree.masked PlainTree.doubles PlainTree.nodeCount ∧
      ComparesPointwise Document.agrees (fun d => d.plain.masked) (fun d => d.plain.doubles)
        Document.nodeCount ∧
      ∀ source d, parse source = .ok d → d.agrees d = true := by
  have hcount (a b : PlainTree) (h : a.masked = b.masked) : a.nodeCount = b.nodeCount := by
    rw [← a.nodeCount_masked, h, b.nodeCount_masked]
  refine ⟨.of_iff (fun _ _ => PlainTree.agrees_iff) (fun _ _ => PlainTree.eq_of_masked_of_doubles)
    hcount, .of_iff ?_ ?_ ?_, ?_⟩
  · intro a b
    rw [Document.agrees_plain, PlainTree.agrees_iff]
  · intro a b hmasked hdoubles
    exact Document.plain_injective (PlainTree.eq_of_masked_of_doubles hmasked hdoubles)
  · intro a b hmasked
    rw [← Document.nodeCount_plain, hcount _ _ hmasked, Document.nodeCount_plain]
  · intro source d h
    obtain ⟨hwritable, -⟩ := Document.canonical_iff.mp (canonical_of_parse h)
    exact Document.agrees_self hwritable

/-- A loop by halves around a tenth is read back and agrees with itself. It agrees with a loop
around a double nearby, and not with one from which the step is missing. -/
theorem compares_pointwise_drift :
    ∃ d : Document, parse d.source = .ok d ∧ d.agrees d = true ∧
      d.plain.doubles = [⟨false, 0x3fe0000000000000#63⟩, ⟨false, 0x3fb999999999999a#63⟩] ∧
      PlainTree.agrees d.plain ⟨[.loop ⟨.var "i", .integer 1, .integer 9,
        some (.double ⟨false, 0x3fe0000000000000#63⟩)⟩
          [.echo [.double ⟨false, 0x3fb9999b4718c345#63⟩]]]⟩ = true ∧
      PlainTree.agrees d.plain ⟨[.loop ⟨.var "i", .integer 1, .integer 9, none⟩
        [.echo [.double ⟨false, 0x3fb999999999999a#63⟩]]]⟩ = false := by
  obtain ⟨⟨iff, -⟩, -, hparsed⟩ := compares_pointwise
  have hhalf : Binary64.isFinite ⟨false, 0x3fe0000000000000#63⟩ = true := by decide
  have htenth : Binary64.isFinite ⟨false, 0x3fb999999999999a#63⟩ = true := by decide
  obtain ⟨d, hd⟩ : ∃ d : Document, d = ⟨[.loop ⟨⟨"i", by decide⟩, ⟨.integer 1, rfl⟩,
      ⟨.integer 9, rfl⟩, some ⟨.double ⟨false, 0x3fe0000000000000#63⟩, rfl⟩⟩
        [.echo [.double ⟨false, 0x3fb999999999999a#63⟩]]]⟩ := ⟨_, rfl⟩
  have hparse : parse d.source = .ok d := by
    refine Document.parse_source_eq_self ?_ ?_
    · simp [hd, Document.Writable, Node.WritableAll, Node.Writable, LoopHeader.elements,
        Element.IsFinite, hhalf, htenth]
    · simp [hd, Document.Tidy, Node.TidyAll, Node.Tidy]
  refine ⟨d, hparse, hparsed _ _ hparse, ?_, (iff _ _).mpr ?_, ?_⟩
  · rw [hd]
    rfl
  · have hsame : Binary64.Close ⟨false, 0x3fe0000000000000#63⟩ ⟨false, 0x3fe0000000000000#63⟩ :=
      Or.inl (by decide)
    have hnear : Binary64.Close ⟨false, 0x3fb999999999999a#63⟩ ⟨false, 0x3fb9999b4718c345#63⟩ :=
      Or.inr (by decide +kernel)
    rw [hd]
    exact ⟨rfl, .cons hsame (.cons hnear .nil)⟩
  · rw [hd]
    decide +kernel

end TagTemplate
