import TagTemplate.Outline
import TagTemplate.Visitor
import TagTemplate.Proofs.Markup

/-!
# Outlines, visitors and counts

An outline has a line for every node. Three recursions have to agree on what the nodes are: the one
that writes the outline, the one that leads a visitor, and the one that counts. All of them are
compared with the places of a document (`Document.places`): a place is a node with the siblings
behind it, and the same of the loops around it, so that it says all that a line shows.

## Label convention

What a line shows of a place is fixed here, character by character, without the functions that write
outlines: the sort of the node, its label (`Seat.label`), and where the label is cut (`Seat.shown`).
That outlines are written so is said once, in `Outline.line_eq`.

A line is one line since no label holds a line feed. Texts have theirs replaced, strings have
theirs escaped, and nothing else can hold one (`Seat.lineFeed_notMem_label`).

How far a line is indented and which sort of node it names can be read off the line
(`Place.key_of_line`). This alone gives the shape of the document back, since a node belongs to the
body of a loop as long as it is further in (`Node.shapes_of_keys`).

## Main results

* `Document.accept_eq_foldl`: a visitor sees the document and then its nodes.
* `Node.mem_placesAll_iff`: the places are all the places there are.
* `Seat.toList_label`, `Seat.toList_clip`: nodes have their labels, cut at thirty characters.
* `Outline.nodes_eq_ofLines`: an outline has the lines of the places, in order.
* `Document.shape_of_outline`: the shape of a document is known from its outline.
* `outlined`: all of this for every document.
-/

namespace TagTemplate

/-! ### Visitors -/

/-- What a visitor makes of a node, whatever its sort. -/
def Visitor.node {σ : Type} (v : Visitor σ) : Node → σ → σ
  | .text content => v.text content
  | .echo elements => v.echo elements
  | .loop header body => v.loop header body

mutual

/-- A visitor of a node sees the nodes on the walk through it. -/
theorem Node.accept_eq_foldl {σ : Type} (v : Visitor σ) (n : Node) (seen : σ) :
    n.accept v seen = n.walk.foldl (fun seen m => v.node m seen) seen := by
  cases n with
  | text content => rfl
  | echo elements => rfl
  | loop header body => exact Node.acceptAll_eq_foldl v body _

/-- A visitor of nodes in a row sees the nodes on the walk through them. -/
theorem Node.acceptAll_eq_foldl {σ : Type} (v : Visitor σ) (ns : List Node) (seen : σ) :
    Node.acceptAll v ns seen = (Node.walkAll ns).foldl (fun seen m => v.node m seen) seen := by
  cases ns with
  | nil => rfl
  | cons n ns =>
      rw [Node.acceptAll, Node.walkAll, List.foldl_append, Node.acceptAll_eq_foldl v ns,
        Node.accept_eq_foldl v n]

end

/-- **A visitor sees the document and then its nodes**, each of them once. -/
theorem Document.accept_eq_foldl {σ : Type} (v : Visitor σ) (d : Document) (seen : σ) :
    d.accept v seen = d.walk.foldl (fun seen n => v.node n seen) (v.document d seen) :=
  Node.acceptAll_eq_foldl v d.children _

mutual

/-- A node is counted with all the nodes on the walk through it. -/
theorem Node.length_walk (n : Node) : n.walk.length = n.count := by
  cases n with
  | text content => rfl
  | echo elements => rfl
  | loop header body =>
      rw [Node.walk, Node.count, List.length_cons, Node.length_walkAll body, Nat.add_comm]

/-- Nodes in a row are counted with all the nodes on the walk through them. -/
theorem Node.length_walkAll (ns : List Node) : (Node.walkAll ns).length = Node.countAll ns := by
  cases ns with
  | nil => rfl
  | cons n ns =>
      rw [Node.walkAll, Node.countAll, List.length_append, Node.length_walk n,
        Node.length_walkAll ns]

end

/-! ### Places -/

/-- A node and the siblings behind it. -/
structure Seat where
  /-- The node. -/
  node : Node
  /-- The siblings behind it. -/
  later : List Node

/-- Where a node stands in a document. -/
structure Place where
  /-- The loops around it, the outermost first. -/
  around : List Seat
  /-- The node itself. -/
  here : Seat

mutual

/-- The place of a node and the places in its body, inside of the loops `around`. -/
def Node.places (around : List Seat) (later : List Node) : Node → List Place
  | .text content => [⟨around, ⟨.text content, later⟩⟩]
  | .echo elements => [⟨around, ⟨.echo elements, later⟩⟩]
  | .loop header body =>
    ⟨around, ⟨.loop header body, later⟩⟩ ::
      Node.placesAll (around ++ [⟨.loop header body, later⟩]) body

/-- The places of nodes in a row and in their bodies, inside of the loops `around`. -/
def Node.placesAll (around : List Seat) : List Node → List Place
  | [] => []
  | n :: ns => n.places around ns ++ Node.placesAll around ns

end

/-- The places of a document, in the order in which they are written. -/
def Document.places (d : Document) : List Place := Node.placesAll [] d.children

/-- **A place among siblings**: one of them, or a place in the body of one of them that is a
loop. -/
inductive Place.Among : List Node → Place → Prop where
  | here {siblings later : List Node} {n : Node} (h : n :: later <:+ siblings) :
      Among siblings ⟨[], ⟨n, later⟩⟩
  | inside {siblings later body : List Node} {header : LoopHeader} {p : Place}
      (h : .loop header body :: later <:+ siblings) (hp : Among body p) :
      Among siblings ⟨⟨.loop header body, later⟩ :: p.around, p.here⟩

mutual

/-- The places of a node: its own, and the places in its body. -/
theorem Node.mem_places_iff (n : Node) (around : List Seat) (later : List Node) (p : Place) :
    p ∈ n.places around later ↔ p = ⟨around, ⟨n, later⟩⟩ ∨
      ∃ header body, n = .loop header body ∧ ∃ q, Place.Among body q ∧
        p = ⟨around ++ ⟨n, later⟩ :: q.around, q.here⟩ := by
  cases n with
  | text content => simp [Node.places]
  | echo elements => simp [Node.places]
  | loop header body =>
      rw [Node.places, List.mem_cons, Node.mem_placesAll_iff body]
      simp

/-- **The places of nodes in a row** are all the places among them. -/
theorem Node.mem_placesAll_iff (ns : List Node) (around : List Seat) (p : Place) :
    p ∈ Node.placesAll around ns ↔
      ∃ q, Place.Among ns q ∧ p = ⟨around ++ q.around, q.here⟩ := by
  cases ns with
  | nil =>
      simp only [Node.placesAll, List.not_mem_nil, false_iff]
      rintro ⟨q, hq, -⟩
      cases hq with
      | here h => simp at h
      | inside h hp => simp at h
  | cons n ns =>
      rw [Node.placesAll, List.mem_append, Node.mem_places_iff n, Node.mem_placesAll_iff ns]
      constructor
      · rintro ((rfl | ⟨header, body, rfl, q, hq, rfl⟩) | ⟨q, hq, rfl⟩)
        · exact ⟨_, .here (List.suffix_refl _), by simp⟩
        · exact ⟨_, .inside (List.suffix_refl _) hq, by simp⟩
        · refine ⟨q, ?_, rfl⟩
          cases hq with
          | here h => exact .here (h.trans (List.suffix_cons n ns))
          | inside h hp => exact .inside (h.trans (List.suffix_cons n ns)) hp
      · rintro ⟨q, hq, rfl⟩
        cases hq with
        | here h =>
            rcases List.suffix_cons_iff.mp h with heq | htail
            · cases heq
              exact Or.inl (Or.inl (by simp))
            · exact Or.inr ⟨_, .here htail, rfl⟩
        | @inside _ later body header p h hp =>
            rcases List.suffix_cons_iff.mp h with heq | htail
            · cases heq
              exact Or.inl (Or.inr ⟨header, body, rfl, p, hp, rfl⟩)
            · exact Or.inr ⟨_, .inside htail hp, rfl⟩

end

mutual

/-- The nodes on the walk through a node stand at its places. -/
theorem Node.map_places (n : Node) (around : List Seat) (later : List Node) :
    (n.places around later).map (fun p => p.here.node) = n.walk := by
  cases n with
  | text content => rfl
  | echo elements => rfl
  | loop header body => rw [Node.places, Node.walk, List.map_cons, Node.map_placesAll body]

/-- The nodes on the walk through nodes in a row stand at their places. -/
theorem Node.map_placesAll (ns : List Node) (around : List Seat) :
    (Node.placesAll around ns).map (fun p => p.here.node) = Node.walkAll ns := by
  cases ns with
  | nil => rfl
  | cons n ns =>
      rw [Node.placesAll, Node.walkAll, List.map_append, Node.map_places n, Node.map_placesAll ns]

end

/-! ### Lines -/

/-- The two characters that lead past a loop to what stands in its body: a bar if the loop has
siblings behind it. -/
def Seat.lead (l : Seat) : String := if l.later.isEmpty then "  " else "│ "

/-- The mark in front of a node: another one for the last of its siblings. -/
def Seat.mark (l : Seat) : String := if l.later.isEmpty then "└─" else "├─"

/-- The sort of a node, in a word. -/
def Seat.sort (l : Seat) : String :=
  match l.node with
  | .text _ => "Text"
  | .echo _ => "Echo"
  | .loop _ _ => "ForLoop"

/-- What stands in a tag: elements as they are written, a blank in front of all but the first. -/
def Element.spaced : List Element → List Char
  | [] => []
  | e :: es => e.text.toList ++ es.flatMap fun e => ' ' :: e.text.toList

/-- The label of a node: the characters of its text, with a backslash and the letter n for a line
feed, or what stands in its tag. A loop has its variable there, its start and its end, and its step
if it has one. -/
def Seat.label (l : Seat) : List Char :=
  match l.node with
  | .text content => content.toList.flatMap fun c => if c = '\n' then ['\\', 'n'] else [c]
  | .echo elements => Element.spaced elements
  | .loop ⟨var, start, stop, none⟩ _ => Element.spaced [.var var, start.element, stop.element]
  | .loop ⟨var, start, stop, some step⟩ _ =>
    Element.spaced [.var var, start.element, stop.element, step.element]

/-- What a line shows of the label: all of it up to thirty characters, and of a longer one the first
thirty with three points behind them. -/
def Seat.shown (l : Seat) : List Char :=
  if l.label.length ≤ 30 then l.label else l.label.take 30 ++ ['.', '.', '.']

/-- The line of a place: two characters for each loop around the node, its mark, its sort and its
label. -/
def Place.line (p : Place) : String :=
  String.join (p.around.map Seat.lead) ++ p.here.mark ++ " " ++ p.here.sort ++ ": " ++
    String.ofList p.here.shown

/-! ### The program writes these lines -/

/-- Nodes are of their sort. -/
theorem Seat.kind_node (l : Seat) : l.node.kind = l.sort := by
  rw [Seat.sort]
  cases l.node <;> rfl

/-- Elements are written with blanks between them. -/
theorem Element.toList_elementsText (es : List Element) :
    (Node.elementsText es).toList = Element.spaced es := by
  cases es with
  | nil => rfl
  | cons e es =>
      induction es generalizing e with
      | nil => simp [Node.elementsText, Element.spaced]
      | cons e' es ih =>
          rw [Node.elementsText, List.map_cons, List.map_cons, String.intercalate_cons_cons,
            ← List.map_cons, ← Node.elementsText, String.toList_append, String.toList_append, ih]
          simp [Element.spaced]

/-- **Nodes have their labels.** -/
theorem Seat.toList_label (l : Seat) : l.node.label.toList = l.label := by
  have hchar (c : Char) : Node.labelChar c = if c = '\n' then ['\\', 'n'] else [c] := by
    rw [Node.labelChar.eq_def]
    split <;> simp_all
  rw [Seat.label]
  split
  · rename_i content hnode
    rw [hnode, Node.label, String.toList_ofList]
    exact List.flatMap_congr fun c _ => hchar c
  -- a tag is labelled with what stands in it, whichever tag it is
  all_goals
    rename_i hnode
    rw [hnode]
    exact Element.toList_elementsText _

/-- **Labels are cut at thirty characters.** -/
theorem Seat.toList_clip (l : Seat) : (Outline.clip l.node.label).toList = l.shown := by
  rw [Outline.clip, Outline.labelWidth, Seat.shown, ← l.toList_label, String.length_toList]
  split
  · rw [if_neg (by omega), String.toList_append, String.toList_ofList]
    rfl
  · rw [if_pos (by omega)]

/-- The line of a node is the line of its place. -/
theorem Outline.line_eq (around : List Seat) (later : List Node) (n : Node) :
    line (String.join (around.map Seat.lead)) later.isEmpty n =
      Place.line ⟨around, ⟨n, later⟩⟩ ++ "\n" := by
  have hkind : n.kind = Seat.sort ⟨n, later⟩ := Seat.kind_node ⟨n, later⟩
  have hclip : clip n.label = String.ofList (Seat.shown ⟨n, later⟩) := by
    rw [← Seat.toList_clip, String.ofList_toList]
  rw [line, Place.line, hkind, hclip]
  rfl

/-! ### Labels hold no line feed -/

/-- Strings are written without line feeds. -/
theorem Quoted.lineFeed_notMem_escapeChar (c : Char) : '\n' ∉ escapeChar c := by
  rw [escapeChar.eq_def]
  split
  iterate 6 decide
  rename_i hline _ _
  rw [List.mem_singleton]
  exact fun h => hline h.symm

/-- Names hold no line feed. -/
theorem Identifier.lineFeed_notMem_text (name : Identifier) : '\n' ∉ name.text.toList := by
  have hname := name.isName_text
  cases hcs : name.text.toList with
  | nil => simp
  | cons c cs =>
      simp only [hcs, isName, Bool.and_eq_true, List.all_eq_true] at hname
      rintro (_ | ⟨_, hmem⟩)
      · exact absurd hname.1 (by decide)
      · exact absurd (hname.2 _ hmem) (by decide)

/-- Digits hold no line feed. -/
theorem IsDigits.lineFeed_notMem {cs : List Char} (h : IsDigits cs) : '\n' ∉ cs :=
  fun hmem => absurd (h.2 _ hmem) (by decide)

/-- No element is written with a line feed, finite or not. -/
theorem Element.lineFeed_notMem_text (e : Element) : '\n' ∉ e.text.toList := by
  have hsign (negative : Bool) : '\n' ∉ Numeral.sign negative := by cases negative <;> decide
  cases e with
  | integer value =>
      rw [Element.text, Numeral.toList_repr_int, List.mem_append, not_or]
      exact ⟨hsign _, (isDigits_toDigits _).lineFeed_notMem⟩
  | double value =>
      have hminus : '\n' ∉ (if value.negative then "-" else "").toList := by
        cases value.negative <;> decide
      rw [Element.text, NumberStyle.render]
      split
      · decide
      · rw [String.toList_append, List.mem_append, not_or]
        refine ⟨hminus, ?_⟩
        split
        · rename_i hfinite
          obtain ⟨whole, fraction, hwhole, hfraction, htext, -⟩ :=
            exists_parts_of_magnitudeText hfinite
          rw [htext]
          simp [hwhole.lineFeed_notMem, hfraction.lineFeed_notMem]
        · decide
  | string value =>
      simp [Element.text, Quoted.quote, Quoted.lineFeed_notMem_escapeChar]
  | var name => exact name.lineFeed_notMem_text
  | function name => simp [Element.text, name.lineFeed_notMem_text]
  | operator op => cases op <;> decide

/-- Nor is what stands in a tag. -/
theorem Element.lineFeed_notMem_spaced (es : List Element) : '\n' ∉ Element.spaced es := by
  cases es <;> simp [Element.spaced, Element.lineFeed_notMem_text]

/-- **No label holds a line feed.** -/
theorem Seat.lineFeed_notMem_label (l : Seat) : '\n' ∉ l.label := by
  rw [Seat.label]
  split
  · rw [List.mem_flatMap]
    rintro ⟨c, -, hc⟩
    split at hc
    · simp at hc
    · rename_i hline
      exact hline (List.mem_singleton.mp hc).symm
  all_goals exact Element.lineFeed_notMem_spaced _

/-- Nor does what is shown of it. -/
theorem Seat.lineFeed_notMem_shown (l : Seat) : '\n' ∉ l.shown := by
  rw [Seat.shown]
  split
  · exact l.lineFeed_notMem_label
  · rw [List.mem_append, not_or]
    exact ⟨fun hmem => l.lineFeed_notMem_label (List.mem_of_mem_take hmem), by decide⟩

/-- A line is one line. -/
theorem Place.lineFeed_notMem_line (p : Place) : '\n' ∉ p.line.toList := by
  have hlead (l : Seat) : '\n' ∉ l.lead.toList := by
    rw [Seat.lead]
    split <;> decide
  have hmark (l : Seat) : '\n' ∉ l.mark.toList := by
    rw [Seat.mark]
    split <;> decide
  have hsort (l : Seat) : '\n' ∉ l.sort.toList := by
    rw [Seat.sort]
    split <;> decide
  simp [Place.line, hlead, hmark, hsort, p.here.lineFeed_notMem_shown]

namespace Outline

/-! ### Outlines by lines -/

/-- Lines, each with a line feed behind it. -/
def ofLines (lines : List String) : String := String.join (lines.map (· ++ "\n"))

/-- Lines in a row. -/
theorem ofLines_append (ls ms : List String) : ofLines (ls ++ ms) = ofLines ls ++ ofLines ms := by
  simp [ofLines]

/-- The first line. -/
theorem toList_ofLines_cons (l : String) (ls : List String) :
    (ofLines (l :: ls)).toList = l.toList ++ '\n' :: (ofLines ls).toList := by
  simp [ofLines]

/-- There are as many line feeds as lines. -/
theorem count_ofLines {ls : List String} (h : ∀ l ∈ ls, '\n' ∉ l.toList) :
    (ofLines ls).toList.count '\n' = ls.length := by
  induction ls with
  | nil => rfl
  | cons l ls ih =>
      have hl : l.toList.count '\n' = 0 := List.count_eq_zero.mpr (h l (by simp))
      rw [toList_ofLines_cons, List.count_append, List.count_cons_self, hl,
        ih fun m hm => h m (by simp [hm]), List.length_cons, Nat.zero_add]

/-- Lines are known from the text that they make up. -/
theorem ofLines_inj {ls ms : List String} (hls : ∀ l ∈ ls, '\n' ∉ l.toList)
    (hms : ∀ m ∈ ms, '\n' ∉ m.toList) (h : ofLines ls = ofLines ms) : ls = ms := by
  rw [← String.toList_inj] at h
  induction ls generalizing ms with
  | nil =>
      cases ms with
      | nil => rfl
      | cons m ms => simp [ofLines] at h
  | cons l ls ih =>
      cases ms with
      | nil => simp [ofLines] at h
      | cons m ms =>
          rw [toList_ofLines_cons, toList_ofLines_cons] at h
          obtain ⟨hfirst, hrest⟩ :=
            Markup.append_cons_inj (hls l (by simp)) (hms m (by simp)) h
          rw [String.toList_inj.mp hfirst,
            ih (fun l hl => hls l (by simp [hl])) (fun m hm => hms m (by simp [hm])) hrest]

mutual

/-- The outline of a node has the lines of its places. -/
theorem node_eq_ofLines (n : Node) (around : List Seat) (later : List Node) :
    node (String.join (around.map Seat.lead)) later.isEmpty n =
      ofLines ((n.places around later).map Place.line) := by
  cases n with
  | text content => simp [node, line_eq, Node.places, ofLines]
  | echo elements => simp [node, line_eq, Node.places, ofLines]
  | loop header body =>
      have hlead : String.join (around.map Seat.lead) ++ continuation later.isEmpty =
          String.join ((around ++ [Seat.mk (.loop header body) later]).map Seat.lead) := by
        simp [Seat.lead, continuation]
      rw [node, line_eq, hlead, nodes_eq_ofLines body, Node.places, List.map_cons]
      simp [ofLines]

/-- **An outline has the lines of the places**, in order. -/
theorem nodes_eq_ofLines (ns : List Node) (around : List Seat) :
    nodes (String.join (around.map Seat.lead)) ns =
      ofLines ((Node.placesAll around ns).map Place.line) := by
  cases ns with
  | nil => simp [nodes, Node.placesAll, ofLines]
  | cons n ns =>
      rw [nodes, node_eq_ofLines n, nodes_eq_ofLines ns, Node.placesAll, List.map_append,
        ofLines_append]

end

/-- The outline of a document has the lines of its places. -/
theorem document_eq_ofLines (d : Document) : document d = ofLines (d.places.map Place.line) :=
  nodes_eq_ofLines d.children []

/-- The lines of a document are lines. -/
theorem lineFeed_notMem_of_mem_lines (d : Document) :
    ∀ l ∈ d.places.map Place.line, '\n' ∉ l.toList := by
  intro l hl
  obtain ⟨p, -, rfl⟩ := List.mem_map.mp hl
  exact p.lineFeed_notMem_line

end Outline

/-! ### Shapes -/

/-- What sorts of nodes there are and how they are nested, without what they hold. -/
inductive Shape where
  | text
  | echo
  | loop (body : List Shape)

mutual

/-- The shape of a node. -/
def Node.shape : Node → Shape
  | .text _ => .text
  | .echo _ => .echo
  | .loop _ body => .loop (Node.shapes body)

/-- The shapes of nodes in a row. -/
def Node.shapes : List Node → List Shape
  | [] => []
  | n :: ns => n.shape :: Node.shapes ns

end

/-- The shape of a document. -/
def Document.shape (d : Document) : List Shape := Node.shapes d.children

/-- What is known from a line: how many loops are around the node, and its sort. -/
def Place.key (p : Place) : Nat × String := (p.around.length, p.here.node.kind)

/-- What leads past a loop is a bar or a blank, and another blank. -/
theorem Seat.exists_lead_eq (l : Seat) :
    ∃ c, l.lead.toList = [c, ' '] ∧ (c = ' ' ∨ c = '│') := by
  rw [Seat.lead]
  split
  · exact ⟨' ', rfl, Or.inl rfl⟩
  · exact ⟨'│', rfl, Or.inr rfl⟩

/-- The mark of a node begins with neither. -/
theorem Seat.exists_mark_eq (l : Seat) :
    ∃ c, l.mark.toList = [c, '─'] ∧ (c = '└' ∨ c = '├') := by
  rw [Seat.mark]
  split
  · exact ⟨'└', rfl, Or.inl rfl⟩
  · exact ⟨'├', rfl, Or.inr rfl⟩

/-- No mark is what leads past a loop. -/
theorem Seat.mark_append_ne (l m : Seat) (r s : List Char) :
    l.mark.toList ++ r ≠ m.lead.toList ++ s := by
  obtain ⟨c, hmark, hc⟩ := l.exists_mark_eq
  obtain ⟨b, hlead, hb⟩ := m.exists_lead_eq
  rw [hmark, hlead]
  intro h
  obtain ⟨rfl, -⟩ := List.cons.inj h
  rcases hc with rfl | rfl <;> simp at hb

/-- The number of loops around a node is known from the front of its line. -/
theorem length_of_leads {as bs : List Seat} {l m : Seat} {r s : List Char}
    (h : (String.join (as.map Seat.lead)).toList ++ (l.mark.toList ++ r) =
      (String.join (bs.map Seat.lead)).toList ++ (m.mark.toList ++ s)) :
    as.length = bs.length ∧ r = s := by
  induction as generalizing bs with
  | nil =>
      cases bs with
      | nil =>
          obtain ⟨c, hc, -⟩ := l.exists_mark_eq
          obtain ⟨b, hb, -⟩ := m.exists_mark_eq
          simp only [List.map_nil, String.join_nil, String.toList_empty, List.nil_append, hc,
            hb] at h
          exact ⟨rfl, (List.cons.inj (List.cons.inj h).2).2⟩
      | cons b bs =>
          rw [List.map_cons, String.join_cons, String.toList_append, List.append_assoc] at h
          exact absurd h (Seat.mark_append_ne l b _ _)
  | cons a as ih =>
      rw [List.map_cons, String.join_cons, String.toList_append, List.append_assoc] at h
      cases bs with
      | nil => exact absurd h.symm (Seat.mark_append_ne m a _ _)
      | cons b bs =>
          obtain ⟨c, hc, -⟩ := a.exists_lead_eq
          obtain ⟨d, hd, -⟩ := b.exists_lead_eq
          rw [List.map_cons, String.join_cons, String.toList_append, List.append_assoc, hc,
            hd] at h
          obtain ⟨hlength, hrest⟩ := ih (List.cons.inj (List.cons.inj h).2).2
          exact ⟨by rw [List.length_cons, List.length_cons, hlength], hrest⟩

/-- **What a line shows**: how far in a node stands, and its sort. -/
theorem Place.key_of_line {p q : Place} (h : p.line = q.line) : p.key = q.key := by
  rw [← String.toList_inj] at h
  simp only [Place.line, String.toList_append, List.append_assoc] at h
  obtain ⟨hlength, hrest⟩ := length_of_leads h
  have hkind : p.here.node.kind = q.here.node.kind := by
    cases hp : p.here.node <;> cases hq : q.here.node <;> simp_all [Seat.sort, Node.kind]
  rw [Place.key, Place.key, hlength, hkind]

/-- What lines in a row show. -/
theorem Place.map_key_of_map_line {ps qs : List Place} (h : ps.map Place.line = qs.map Place.line) :
    ps.map Place.key = qs.map Place.key := by
  induction ps generalizing qs with
  | nil =>
      cases qs with
      | nil => rfl
      | cons q qs => cases h
  | cons p ps ih =>
      cases qs with
      | nil => cases h
      | cons q qs =>
          obtain ⟨hline, hlines⟩ := List.cons.inj h
          rw [List.map_cons, List.map_cons, Place.key_of_line hline, ih hlines]

/-- The first of several lines stands right inside the loops around them. -/
theorem Node.exists_keys_eq_cons (around : List Seat) (n : Node) (ns : List Node) :
    ∃ keys, (Node.placesAll around (n :: ns)).map Place.key =
      (around.length, n.kind) :: keys := by
  cases n with
  | text content => exact ⟨_, rfl⟩
  | echo elements => exact ⟨_, rfl⟩
  | loop header body => exact ⟨_, rfl⟩

/-- What follows the lines of a body is further out than they are. -/
theorem Node.head?_keys_lt {around : List Seat} {ns : List Node} {r : List (Nat × String)}
    (hr : ∀ k ∈ r.head?, k.1 < around.length) :
    ∀ k ∈ ((Node.placesAll around ns).map Place.key ++ r).head?, k.1 < around.length + 1 := by
  cases ns with
  | nil => exact fun k hk => Nat.lt_succ_of_lt (hr k hk)
  | cons n ns =>
      obtain ⟨keys, hkeys⟩ := Node.exists_keys_eq_cons around n ns
      simp [hkeys]

/-- Lines that are further out are not those of nodes. -/
theorem Node.ne_keys_append {around around' : List Seat}
    (hlength : around.length = around'.length) {r : List (Nat × String)}
    (hr : ∀ k ∈ r.head?, k.1 < around.length) (m : Node) (ms : List Node)
    (s : List (Nat × String)) : r ≠ (Node.placesAll around' (m :: ms)).map Place.key ++ s := by
  rintro rfl
  obtain ⟨keys, hkeys⟩ := Node.exists_keys_eq_cons around' m ms
  simp [hkeys, hlength] at hr

mutual

/-- The shape of a node is known from what its lines show, in front of lines that are not further
in. -/
theorem Node.shape_of_keys (n m : Node) {around around' : List Seat} {later later' : List Node}
    (hlength : around.length = around'.length) {r s : List (Nat × String)}
    (hr : ∀ k ∈ r.head?, k.1 < around.length + 1) (hs : ∀ k ∈ s.head?, k.1 < around'.length + 1)
    (h : (n.places around later).map Place.key ++ r =
      (m.places around' later').map Place.key ++ s) : n.shape = m.shape ∧ r = s := by
  cases n with
  | text content =>
      cases m with
      | text content' => exact ⟨rfl, (List.cons.inj h).2⟩
      | echo elements' => simp [Node.places, Place.key, Node.kind] at h
      | loop header' body' => simp [Node.places, Place.key, Node.kind] at h
  | echo elements =>
      cases m with
      | echo elements' => exact ⟨rfl, (List.cons.inj h).2⟩
      | text content' => simp [Node.places, Place.key, Node.kind] at h
      | loop header' body' => simp [Node.places, Place.key, Node.kind] at h
  | loop header body =>
      cases m with
      | loop header' body' =>
          rw [Node.places, Node.places] at h
          obtain ⟨hbody, hrest⟩ := Node.shapes_of_keys body body' (by simp [hlength])
            (by simpa using hr) (by simpa using hs) (List.cons.inj h).2
          exact ⟨by rw [Node.shape, Node.shape, hbody], hrest⟩
      | text content' => simp [Node.places, Place.key, Node.kind] at h
      | echo elements' => simp [Node.places, Place.key, Node.kind] at h

/-- **The shapes of nodes in a row** are known from what their lines show, in front of lines that
are further out. -/
theorem Node.shapes_of_keys (ns ms : List Node) {around around' : List Seat}
    (hlength : around.length = around'.length) {r s : List (Nat × String)}
    (hr : ∀ k ∈ r.head?, k.1 < around.length) (hs : ∀ k ∈ s.head?, k.1 < around'.length)
    (h : (Node.placesAll around ns).map Place.key ++ r =
      (Node.placesAll around' ms).map Place.key ++ s) :
    Node.shapes ns = Node.shapes ms ∧ r = s := by
  cases ns with
  | nil =>
      cases ms with
      | nil => exact ⟨rfl, h⟩
      | cons m ms => exact absurd h (Node.ne_keys_append hlength hr m ms s)
  | cons n ns =>
      cases ms with
      | nil => exact absurd h.symm (Node.ne_keys_append hlength.symm hs n ns r)
      | cons m ms =>
          rw [Node.placesAll, Node.placesAll, List.map_append, List.map_append, List.append_assoc,
            List.append_assoc] at h
          obtain ⟨hfirst, hmore⟩ := Node.shape_of_keys n m hlength (Node.head?_keys_lt hr)
            (Node.head?_keys_lt hs) h
          obtain ⟨hothers, hrest⟩ := Node.shapes_of_keys ns ms hlength hr hs hmore
          exact ⟨by rw [Node.shapes, Node.shapes, hfirst, hothers], hrest⟩

end

/-- **The shape of a document is known from its outline.** -/
theorem Document.shape_of_outline {d d' : Document}
    (h : Outline.document d = Outline.document d') : d.shape = d'.shape := by
  rw [Outline.document_eq_ofLines, Outline.document_eq_ofLines] at h
  have hlines := Outline.ofLines_inj (Outline.lineFeed_notMem_of_mem_lines d)
    (Outline.lineFeed_notMem_of_mem_lines d') h
  have hkeys : (Node.placesAll [] d.children).map Place.key ++ [] =
      (Node.placesAll [] d'.children).map Place.key ++ [] := by
    rw [List.append_nil, List.append_nil]
    exact Place.map_key_of_map_line hlines
  exact (Node.shapes_of_keys d.children d'.children rfl (by simp) (by simp) hkeys).1

/-! ### Agreement -/

/-- **The lines, the visits and the count of a document agree.** -/
structure Outlined (d : Document) : Prop where
  /-- A visitor comes to the document first, and then to the nodes on the walk, one by one. -/
  visits : ∀ {σ : Type} (v : Visitor σ) (seen : σ),
    d.accept v seen = d.walk.foldl (fun seen n => v.node n seen) (v.document d seen)
  /-- There are as many visits of nodes as nodes are counted. -/
  length_walk : d.walk.length = d.nodeCount
  /-- The places are all the places in the document. -/
  mem_places : ∀ p, p ∈ d.places ↔ Place.Among d.children p
  /-- The nodes are visited in the order of their places. -/
  walk : d.places.map (fun p => p.here.node) = d.walk
  /-- The outline has the lines of the places, in this order, each with a line feed behind it. -/
  lines : Outline.document d = Outline.ofLines (d.places.map Place.line)
  /-- No line holds a line feed. -/
  notMem_line : ∀ p ∈ d.places, '\n' ∉ p.line.toList
  /-- There are as many line feeds as nodes are counted. -/
  count : (Outline.document d).toList.count '\n' = d.nodeCount
  /-- Documents with this outline have the same shape. -/
  shape : ∀ d', Outline.document d' = Outline.document d → d'.shape = d.shape

/-- **Outlines, visitors and counts agree.** -/
theorem outlined (d : Document) : Outlined d := by
  have hlength : d.walk.length = d.nodeCount := Node.length_walkAll d.children
  have hwalk : d.places.map (fun p => p.here.node) = d.walk := Node.map_placesAll d.children []
  constructor
  case visits => exact fun v seen => d.accept_eq_foldl v seen
  case length_walk => exact hlength
  case mem_places =>
    intro p
    rw [Document.places, Node.mem_placesAll_iff]
    simp
  case walk => exact hwalk
  case lines => exact Outline.document_eq_ofLines d
  case notMem_line => exact fun p _ => p.lineFeed_notMem_line
  case count =>
    have hplaces := congrArg List.length hwalk
    rw [List.length_map, hlength] at hplaces
    rw [Outline.document_eq_ofLines, Outline.count_ofLines (Outline.lineFeed_notMem_of_mem_lines d),
      List.length_map, hplaces]
  case shape => exact fun d' h => Document.shape_of_outline h

/-- A label of more than thirty characters is cut and one of thirty is not. Line feeds are written
out in texts and in strings, and a bar leads past a loop that has siblings behind it. -/
theorem outlined_letter :
    Outline.document ⟨[.text "Dear all,\nthe list of this month follows",
      .loop ⟨⟨"i", by decide⟩, ⟨.integer 1, rfl⟩, ⟨.var ⟨"n", by decide⟩, rfl⟩,
          some ⟨.double ⟨false, 0x3fe0000000000000#63⟩, rfl⟩⟩
        [.echo [.function ⟨"sum", by decide⟩, .string "a\nb", .operator .subtract, .integer (-5)],
          .loop ⟨⟨"j", by decide⟩, ⟨.integer 0, rfl⟩, ⟨.var ⟨"i", by decide⟩, rfl⟩, none⟩
            [.text "x"]],
      .text "these are thirty characters ok"]⟩ =
    "├─ Text: Dear all,\\nthe list of this mo...\n" ++
    "├─ ForLoop: i 1 n 0.5\n" ++
    "│ ├─ Echo: @sum \"a\\nb\" - -5\n" ++
    "│ └─ ForLoop: j 0 i\n" ++
    "│   └─ Text: x\n" ++
    "└─ Text: these are thirty characters ok\n" := by
  rw [(outlined _).lines]
  decide +kernel

end TagTemplate
