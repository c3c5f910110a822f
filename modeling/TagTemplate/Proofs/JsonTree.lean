import TagTemplate.Proofs.Grammar
import TagTemplate.Proofs.Json
import TagTemplate.View

/-!
# Trees and tokens read back from JSON

The records of `TagTemplate.Data` are read by their shape: which fields stand in a record, in which
order, and what the field `type` says. Nothing else is read as a tree, so a record that is read
shows this shape.

Plain trees are read from every text that is written for them, as long as their doubles are finite,
for JSON has no others. Documents are then read in two steps, as a plain tree first and by checking
its names after that (`Document.ofPlain?`), which gives back what `Document.plain` has forgotten.

## Main results

* `PlainTree.ofValue?_data`: plain trees are read as what they were.
* `Document.ofPlain?_plain`: documents are known from their plain trees.
* `Token.ofValue?_data`: tokens are read as what they were.
* `json_lossless`: JSON loses nothing of plain trees, documents and tokens.
-/

namespace TagTemplate

open Json (Value)

/-! ### Reading trees -/

/-- The whole number of 32 bits that a number is. -/
def Json.integer? (literal : List Char) : Option Int32 :=
  match Numeral.read? literal with
  | some (.integer n) => some n
  | _ => none

/-- The character that a string is. -/
def Json.char? (s : String) : Option Char :=
  match s.toList with
  | [c] => some c
  | _ => none

/-- The element of a given type with a given value. -/
def PlainElement.ofTyped? : String → Value → Option PlainElement
  | "constant-integer", .number literal => (Json.integer? literal).map .integer
  | "constant-double", .number literal => some (.double (Json.nearest literal))
  | "string", .string s => some (.string s)
  | "variable", .string s => some (.var s)
  | "function", .string s => some (.function s)
  | "operator", .string s => (Json.char? s).map .operator
  | _, _ => none

/-- The element of a record of its type and its value. -/
def PlainElement.ofValue? : Value → Option PlainElement
  | .object [("type", .string type), ("value", value)] => ofTyped? type value
  | _ => none

/-- The step of a loop, or none if it is null. -/
def PlainElement.stepOfValue? : Value → Option (Option PlainElement)
  | .null => some none
  | value => (ofValue? value).map some

/-- The header of the fields of a loop. -/
def PlainHeader.ofValues? (var start stop step : Value) : Option PlainHeader := do
  let var ← PlainElement.ofValue? var
  let start ← PlainElement.ofValue? start
  let stop ← PlainElement.ofValue? stop
  let step ← PlainElement.stepOfValue? step
  some { var, start, stop, step }

mutual

/-- The node of a record: its type, and the fields of nodes of this type in their order, no more
and no less. -/
def PlainNode.ofValue? : Value → Option PlainNode
  | .object [("type", .string "text"), ("text", .string content)] => some (.text content)
  | .object [("type", .string "echo"), ("elements", .array elements)] =>
    (elements.mapM PlainElement.ofValue?).map .echo
  | .object [("type", .string "for-loop"), ("variable", var), ("start", start), ("end", stop),
      ("step", step), ("children", .array children)] => do
    let header ← PlainHeader.ofValues? var start stop step
    let body ← PlainNode.ofValueAll? children
    some (.loop header body)
  | _ => none

/-- The nodes of records. -/
def PlainNode.ofValueAll? : List Value → Option (List PlainNode)
  | [] => some []
  | v :: vs => do
    let n ← PlainNode.ofValue? v
    let ns ← PlainNode.ofValueAll? vs
    some (n :: ns)

end

/-- The plain tree of a record of its nodes. -/
def PlainTree.ofValue? : Value → Option PlainTree
  | .object [("children", .array children)] => (PlainNode.ofValueAll? children).map PlainTree.mk
  | _ => none

/-! ### Plain trees -/

/-- An element that is no infinite double and no NaN. -/
def PlainElement.IsFinite : PlainElement → Prop
  | .double x => x.isFinite = true
  | _ => True

/-- A header whose doubles are finite. -/
def PlainHeader.IsFinite (h : PlainHeader) : Prop :=
  h.var.IsFinite ∧ h.start.IsFinite ∧ h.stop.IsFinite ∧ ∀ step ∈ h.step, step.IsFinite

mutual

/-- A node whose doubles are finite. -/
def PlainNode.IsFinite : PlainNode → Prop
  | .text _ => True
  | .echo elements => ∀ e ∈ elements, e.IsFinite
  | .loop header body => header.IsFinite ∧ PlainNode.IsFiniteAll body

/-- Nodes whose doubles are finite. -/
def PlainNode.IsFiniteAll : List PlainNode → Prop
  | [] => True
  | n :: ns => n.IsFinite ∧ PlainNode.IsFiniteAll ns

end

/-- A plain tree whose doubles are finite, at every depth. -/
def PlainTree.IsFinite (t : PlainTree) : Prop := PlainNode.IsFiniteAll t.children

/-- Things that are read one by one, each as what it was. -/
theorem mapM_map_eq_some {α β : Type} {encode : α → β} {decode : β → Option α} {xs : List α}
    (h : ∀ x ∈ xs, decode (encode x) = some x) : (xs.map encode).mapM decode = some xs := by
  induction xs with
  | nil => rfl
  | cons x xs ih =>
      have hx := h x (by simp)
      have hxs := ih fun y hy => h y (List.mem_cons_of_mem _ hy)
      simp [hx, hxs]

/-- Items are written one by one. -/
theorem Json.valueItems_map {α : Type} (encode : α → Data) (xs : List α) :
    valueItems (xs.map encode) = xs.map fun x => value (encode x) := by
  induction xs with
  | nil => rfl
  | cons x xs ih => rw [List.map_cons, valueItems, ih, List.map_cons]

/-- Whole numbers are read as what they were. -/
theorem Json.integer?_repr (n : Int32) : integer? (Int.repr n.toInt).toList = some n := by
  have hread : Numeral.read? (Int.repr n.toInt).toList = some (.integer n) :=
    Numeral.read?_integer n
  rw [integer?, hread]

/-- Characters are read as what they were. -/
theorem Json.char?_singleton (c : Char) : char? (String.singleton c) = some c := by
  simp [char?]

/-- **Elements are read as what they were**, doubles bit for bit. -/
theorem PlainElement.ofValue?_data {e : PlainElement} (h : e.IsFinite) :
    ofValue? (Json.value e.data) = some e := by
  cases e with
  | integer value =>
      simp [data, Json.value, Json.valueFields, ofValue?, ofTyped?, Json.integer?_repr]
  | double x =>
      have hfinite : x.isFinite = true := h
      simp [data, Json.value, Json.valueFields, ofValue?, ofTyped?, hfinite,
        (Json.nearest_number hfinite).2]
  | string value => simp [data, Json.value, Json.valueFields, ofValue?, ofTyped?]
  | var name => simp [data, Json.value, Json.valueFields, ofValue?, ofTyped?]
  | function name => simp [data, Json.value, Json.valueFields, ofValue?, ofTyped?]
  | operator symbol =>
      simp [data, Json.value, Json.valueFields, ofValue?, ofTyped?, Json.char?_singleton]

/-- **Steps are read as what they were**: the record of an element is not null, so a step that is
there is told from one that was left out. -/
theorem PlainElement.stepOfValue?_stepData {step : Option PlainElement}
    (h : ∀ e ∈ step, e.IsFinite) : stepOfValue? (Json.value (stepData step)) = some step := by
  cases step with
  | none => rfl
  | some e =>
      have hread := ofValue?_data (h e rfl)
      rw [stepData, stepOfValue?.eq_def]
      split
      · rename_i hnull
        rw [hnull] at hread
        cases hread
      · rw [hread]
        rfl

/-- **Headers are read as what they were.** -/
theorem PlainHeader.ofValues?_data {h : PlainHeader} (hfinite : h.IsFinite) :
    PlainHeader.ofValues? (Json.value h.var.data) (Json.value h.start.data)
      (Json.value h.stop.data) (Json.value (PlainElement.stepData h.step)) = some h := by
  obtain ⟨var, start, stop, step⟩ := h
  obtain ⟨hvar, hstart, hstop, hstep⟩ := hfinite
  simp only [ofValues?, PlainElement.ofValue?_data hvar, PlainElement.ofValue?_data hstart,
    PlainElement.ofValue?_data hstop, PlainElement.stepOfValue?_stepData hstep]
  rfl

mutual

/-- **Nodes are read as what they were.** -/
theorem PlainNode.ofValue?_data (n : PlainNode) (h : n.IsFinite) :
    PlainNode.ofValue? (Json.value n.data) = some n := by
  match n with
  | .text content => simp [data, Json.value, Json.valueFields, ofValue?]
  | .echo elements =>
      have helements := mapM_map_eq_some fun e he => PlainElement.ofValue?_data (h e he)
      simp [data, Json.value, Json.valueFields, Json.valueItems_map, ofValue?, helements]
  | .loop header body =>
      have hheader := PlainHeader.ofValues?_data h.1
      have hbody := PlainNode.ofValueAll?_dataAll body h.2
      simp [data, PlainHeader.fields, Json.value, Json.valueFields, ofValue?, hheader, hbody]

/-- Nodes in a row are read as what they were. -/
theorem PlainNode.ofValueAll?_dataAll (ns : List PlainNode) (h : PlainNode.IsFiniteAll ns) :
    PlainNode.ofValueAll? (Json.valueItems (PlainNode.dataAll ns)) = some ns := by
  match ns with
  | [] => rfl
  | n :: ns =>
      have hn := PlainNode.ofValue?_data n h.1
      have hns := PlainNode.ofValueAll?_dataAll ns h.2
      simp [dataAll, Json.valueItems, ofValueAll?, hn, hns]

end

/-- **Plain trees are read as what they were.** -/
theorem PlainTree.ofValue?_data {t : PlainTree} (h : t.IsFinite) :
    ofValue? (Json.value t.data) = some t := by
  have hchildren := PlainNode.ofValueAll?_dataAll t.children h
  simp [data, fields, Json.value, Json.valueFields, ofValue?, hchildren]

/-! ### Documents -/

/-- The element of a plain one, if its name is a name. -/
def Element.ofPlain? : PlainElement → Option Element
  | .integer value => some (.integer value)
  | .double value => some (.double value)
  | .string value => some (.string value)
  | .var name => (Identifier.ofString? name).map .var
  | .function name => (Identifier.ofString? name).map .function
  | .operator symbol => (Operator.ofChar? symbol).map .operator

/-- The header of a plain one, if its elements can make up a header. -/
def LoopHeader.ofPlain? (h : PlainHeader) : Option LoopHeader := do
  let var ← Element.ofPlain? h.var
  let start ← Element.ofPlain? h.start
  let stop ← Element.ofPlain? h.stop
  let step ← h.step.mapM Element.ofPlain?
  (LoopHeader.ofElements var start stop step).toOption

mutual

/-- The node of a plain one, if its names are names. -/
def Node.ofPlain? : PlainNode → Option Node
  | .text content => some (.text content)
  | .echo elements => (elements.mapM Element.ofPlain?).map .echo
  | .loop header body => do
    let header ← LoopHeader.ofPlain? header
    let body ← Node.ofPlainAll? body
    some (.loop header body)

/-- The nodes of plain ones. -/
def Node.ofPlainAll? : List PlainNode → Option (List Node)
  | [] => some []
  | n :: ns => do
    let n ← Node.ofPlain? n
    let ns ← Node.ofPlainAll? ns
    some (n :: ns)

end

/-- The document of a plain tree, if its names are names. -/
def Document.ofPlain? (t : PlainTree) : Option Document :=
  (Node.ofPlainAll? t.children).map Document.mk

/-- The document of a record of its nodes. -/
def Document.ofValue? (v : Value) : Option Document :=
  (PlainTree.ofValue? v).bind Document.ofPlain?

/-- Elements are known from their plain ones. -/
theorem Element.ofPlain?_plain (e : Element) : ofPlain? e.plain = some e := by
  cases e <;> simp [plain, ofPlain?, Identifier.ofString?_text, Operator.ofChar?_symbol]

/-- Headers are known from their plain ones. -/
theorem LoopHeader.ofPlain?_plain (h : LoopHeader) : ofPlain? h.plain = some h := by
  have hmake : ofElements (.var h.var) h.start.element h.stop.element (h.step.map Bound.element) =
      .ok h := ofElements_eq_ok_iff.mpr rfl
  have hstep : h.plain.step.mapM Element.ofPlain? = some (h.step.map Bound.element) := by
    cases hs : h.step <;> simp [plain, hs, Element.ofPlain?_plain]
  simp [ofPlain?, hstep]
  simp [plain, Element.ofPlain?_plain, hmake, Except.toOption]

mutual

/-- Nodes are known from their plain ones. -/
theorem Node.ofPlain?_plain (n : Node) : Node.ofPlain? n.plain = some n := by
  match n with
  | .text content => simp [plain, ofPlain?]
  | .echo elements =>
      have helements : (elements.map Element.plain).mapM Element.ofPlain? = some elements :=
        mapM_map_eq_some fun e _ => Element.ofPlain?_plain e
      simp [plain, ofPlain?, helements]
  | .loop header body =>
      have hbody := Node.ofPlainAll?_plainAll body
      simp [plain, ofPlain?, LoopHeader.ofPlain?_plain header, hbody]

/-- Nodes in a row are known from their plain ones. -/
theorem Node.ofPlainAll?_plainAll (ns : List Node) :
    Node.ofPlainAll? (Node.plainAll ns) = some ns := by
  match ns with
  | [] => rfl
  | n :: ns =>
      have hn := Node.ofPlain?_plain n
      have hns := Node.ofPlainAll?_plainAll ns
      simp [plainAll, ofPlainAll?, hn, hns]

end

/-- **Documents are known from their plain trees.** -/
theorem Document.ofPlain?_plain (d : Document) : ofPlain? d.plain = some d := by
  simp [ofPlain?, plain, Node.ofPlainAll?_plainAll]

/-- Finite elements are finite as plain ones. -/
theorem Element.isFinite_plain {e : Element} (h : e.IsFinite) : e.plain.IsFinite := by
  cases e <;> exact h

/-- Headers of finite elements are finite as plain ones. -/
theorem LoopHeader.isFinite_plain {h : LoopHeader} (hfinite : ∀ e ∈ h.elements, e.IsFinite) :
    h.plain.IsFinite := by
  refine ⟨trivial, Element.isFinite_plain (hfinite h.start.element ?_),
    Element.isFinite_plain (hfinite h.stop.element ?_), ?_⟩
  · simp [elements]
  · simp [elements]
  · intro e he
    obtain ⟨step, hstep, rfl⟩ := Option.map_eq_some_iff.mp he
    exact Element.isFinite_plain (hfinite _ (by simp [elements, hstep]))

mutual

/-- Finite nodes are finite as plain ones. -/
theorem Node.isFinite_plain (n : Node) (h : n.IsFinite) : n.plain.IsFinite := by
  match n with
  | .text content => exact trivial
  | .echo elements =>
      intro e he
      obtain ⟨e, hmem, rfl⟩ := List.mem_map.mp he
      exact Element.isFinite_plain (h e hmem)
  | .loop header body =>
      exact ⟨LoopHeader.isFinite_plain h.1, Node.isFiniteAll_plainAll body h.2⟩

/-- Finite nodes in a row are finite as plain ones. -/
theorem Node.isFiniteAll_plainAll (ns : List Node) (h : Node.IsFiniteAll ns) :
    PlainNode.IsFiniteAll (Node.plainAll ns) := by
  match ns with
  | [] => exact trivial
  | n :: ns => exact ⟨Node.isFinite_plain n h.1, Node.isFiniteAll_plainAll ns h.2⟩

end

/-- **Documents are read as what they were.** -/
theorem Document.ofValue?_data {d : Document} (h : d.IsFinite) :
    ofValue? (Json.value d.data) = some d := by
  have hfinite : d.plain.IsFinite := Node.isFiniteAll_plainAll d.children h
  rw [ofValue?, data, PlainTree.ofValue?_data hfinite, Option.bind_some, ofPlain?_plain]

/-! ### Tokens -/

/-- The token of a record: a mark by its name, any other token by its only field. -/
def Token.ofValue? : Value → Option Token
  | .string "TagOpen" => some .tagOpen
  | .string "TagClose" => some .tagClose
  | .string "Echo" => some .echo
  | .string "Eof" => some .eof
  | .object [("Text", .string content)] => some (.text content)
  | .object [("Name", .string s)] => (Identifier.ofString? s).map .name
  | .object [("Function", .string s)] => (Identifier.ofString? s).map .function
  | .object [("Integer", .number literal)] => (Json.integer? literal).map .integer
  | .object [("Double", .number literal)] => some (.double (Json.nearest literal))
  | .object [("Str", .string s)] => some (.string s)
  | .object [("Operator", .string s)] => do
    let c ← Json.char? s
    let op ← Operator.ofChar? c
    some (.operator op)
  | _ => none

/-- The tokens of an array. -/
def Token.ofValues? : Value → Option (List Token)
  | .array items => items.mapM Token.ofValue?
  | _ => none

/-- **Tokens are read as what they were**, doubles bit for bit. -/
theorem Token.ofValue?_data {t : Token} (h : t.Sound) :
    ofValue? (Json.value t.data) = some t := by
  cases t with
  | text content => simp [data, Json.value, Json.valueFields, ofValue?]
  | tagOpen => rfl
  | tagClose => rfl
  | echo => rfl
  | eof => rfl
  | name n => simp [data, Json.value, Json.valueFields, ofValue?, Identifier.ofString?_text]
  | function n => simp [data, Json.value, Json.valueFields, ofValue?, Identifier.ofString?_text]
  | integer value => simp [data, Json.value, Json.valueFields, ofValue?, Json.integer?_repr]
  | double x =>
      have hfinite : x.isFinite = true := h
      simp [data, Json.value, Json.valueFields, ofValue?, hfinite,
        (Json.nearest_number hfinite).2]
  | string value => simp [data, Json.value, Json.valueFields, ofValue?]
  | operator op =>
      simp [data, Json.value, Json.valueFields, ofValue?, Json.char?_singleton,
        Operator.ofChar?_symbol]

/-! ### Nothing is lost -/

/-- What is written as JSON of things of some kind: it is a text of a record, from which the thing
is read again, so that different things have different texts. -/
structure Json.IsLossless {α : Type} (good : α → Prop) (data : α → Data)
    (write : α → Except Failure String) (decode : Value → Option α) : Prop where
  /-- Texts are well formed, and things are recovered from them. -/
  exists_text : ∀ a, good a → ∃ text, write a = .ok text ∧
    text.toList ∈ (Json.value (data a)).texts ∧ (Json.read? text).bind decode = some a
  /-- Things are known from their text. -/
  inj : ∀ a b, good a → good b → write a = write b → a = b

/-- Nothing is lost where records are read as what they were of. -/
theorem Json.isLossless {α : Type} {good : α → Prop} {data : α → Data}
    {write : α → Except Failure String} {decode : Value → Option α}
    (hwrite : ∀ a, write a = .ok (pretty (data a)))
    (hdecode : ∀ a, good a → decode (value (data a)) = some a) :
    IsLossless good data write decode := by
  have hread : ∀ a, good a → (read? (pretty (data a))).bind decode = some a := by
    intro a ha
    rw [read?_pretty, Option.bind_some, hdecode a ha]
  refine ⟨fun a ha => ⟨_, hwrite a, pretty_mem_texts (data a), hread a ha⟩, fun a b ha hb h => ?_⟩
  rw [hwrite, hwrite, Except.ok.injEq] at h
  have hboth := hread a ha
  rw [h, hread b hb] at hboth
  exact (Option.some.inj hboth).symm

/-- **JSON loses nothing**: plain trees and documents with finite doubles and the tokens of sources
are written as well-formed JSON, in the shape of their records, and read back from it. -/
theorem json_lossless :
    Json.IsLossless PlainTree.IsFinite PlainTree.data (fun t => .ok (Json.pretty t.data))
        PlainTree.ofValue? ∧
      Json.IsLossless Document.IsFinite Document.data (View.renderDocument .json)
        Document.ofValue? ∧
      Json.IsLossless (fun ts => ∃ source, tokenize source = .ok ts)
        (fun ts => .list (ts.map Token.data)) (View.renderTokens .json) Token.ofValues? := by
  refine ⟨Json.isLossless (fun _ => rfl) fun _ => PlainTree.ofValue?_data,
    Json.isLossless (fun _ => rfl) fun _ => Document.ofValue?_data,
    Json.isLossless (fun _ => rfl) ?_⟩
  rintro ts ⟨source, htokens⟩
  have hsound : ∀ t ∈ ts, Token.ofValue? (Json.value t.data) = some t := by
    intro t ht
    obtain ⟨rfl, -⟩ := tokenize_eq_ok_iff.mp htokens
    exact Token.ofValue?_data (sound_of_mem_tokens_lex ht)
  rw [Json.value, Json.valueItems_map, Token.ofValues?]
  exact mapM_map_eq_some hsound

/-- A plain tree with a name that is none, the null character and the least negative step, and the
tokens of a string with a quote and a backslash in it. -/
theorem json_lossless_awkward :
    (∃ text, (Json.read? text).bind PlainTree.ofValue? =
      some ⟨[.text "\x00\"", .loop ⟨.var "\\", .integer 1, .string "", some (.double ⟨true, 1⟩)⟩
        [.echo [.operator '"']]]⟩) ∧
      ∃ text, View.renderTokens .json [.tagOpen, .echo, .string "\"\\", .tagClose] = .ok text ∧
        (Json.read? text).bind Token.ofValues? =
          some [.tagOpen, .echo, .string "\"\\", .tagClose] := by
  constructor
  · have hfinite : (Binary64.mk true 1#63).isFinite = true := by decide
    obtain ⟨text, -, -, hread⟩ := json_lossless.1.exists_text
      ⟨[.text "\x00\"", .loop ⟨.var "\\", .integer 1, .string "", some (.double ⟨true, 1⟩)⟩
        [.echo [.operator '"']]]⟩ (by simp [PlainTree.IsFinite, PlainNode.IsFiniteAll,
          PlainNode.IsFinite, PlainHeader.IsFinite, PlainElement.IsFinite, hfinite])
    exact ⟨text, hread⟩
  · have htokens : tokenize "\x7b$= \"\\\"\\\\\" $\x7d" =
        .ok [.tagOpen, .echo, .string "\"\\", .tagClose] := by cbv
    obtain ⟨text, hwrite, -, hread⟩ := json_lossless.2.2.exists_text _ ⟨_, htokens⟩
    exact ⟨text, hwrite, hread⟩

/-- The records of a loop without a step, as they are written. -/
example : Json.compact (PlainTree.data ⟨[.loop ⟨.var "i", .integer 1, .var "n", none⟩ []]⟩) =
    "\x7b\"children\":[\x7b\"type\":\"for-loop\"," ++
      "\"variable\":\x7b\"type\":\"variable\",\"value\":\"i\"\x7d," ++
      "\"start\":\x7b\"type\":\"constant-integer\",\"value\":1\x7d," ++
      "\"end\":\x7b\"type\":\"variable\",\"value\":\"n\"\x7d,\"step\":null," ++
      "\"children\":[]\x7d]\x7d" := by
  decide +kernel

end TagTemplate
