import TagTemplate.Document
import TagTemplate.Token

/-!
# Tokens and documents as plain data

The notations for data (`TagTemplate.Data.Json`, `TagTemplate.Data.Yaml`) share one view of
tokens and documents: values made of numbers, strings, lists and records, the fields of a
record in a fixed order. What kind of node or element a record stands for is said in its first
field, `type`; a step that was left out is null.

Data does not care whether names are names. It is made of *plain trees*, which have the same nodes
and elements as documents, with any string for a name and any character for an operator. Every
document is a plain tree (`Document.plain`).
-/

namespace TagTemplate

/-- Plain data. -/
inductive Data where
  | null
  | integer (value : Int)
  | double (value : Binary64)
  /-- A single character, which notations may write otherwise than a string. -/
  | char (value : Char)
  | string (value : String)
  | list (items : List Data)
  /-- Named fields, in order. -/
  | record (fields : List (String × Data))

/-! ### Plain trees -/

/-- An element with any string for a name and any character for an operator. -/
inductive PlainElement where
  | integer (value : Int32)
  | double (value : Binary64)
  | string (value : String)
  | var (name : String)
  | function (name : String)
  | operator (symbol : Char)
deriving DecidableEq

/-- What a loop runs over, whatever it is. -/
structure PlainHeader where
  /-- What runs. -/
  var : PlainElement
  /-- Where it starts. -/
  start : PlainElement
  /-- Where it ends. -/
  stop : PlainElement
  /-- How far it goes at a time, if that is said. -/
  step : Option PlainElement
deriving DecidableEq

/-- A node of a plain tree. -/
inductive PlainNode where
  | text (content : String)
  | echo (elements : List PlainElement)
  | loop (header : PlainHeader) (body : List PlainNode)

/-- A plain tree. -/
structure PlainTree where
  children : List PlainNode

/-- The record of an element: its type and its value. -/
def PlainElement.data (e : PlainElement) : Data :=
  let typed (type : String) (value : Data) : Data :=
    .record [("type", .string type), ("value", value)]
  match e with
  | .integer value => typed "constant-integer" (.integer value.toInt)
  | .double value => typed "constant-double" (.double value)
  | .string value => typed "string" (.string value)
  | .var name => typed "variable" (.string name)
  | .function name => typed "function" (.string name)
  | .operator symbol => typed "operator" (.char symbol)

/-- The record of a step, or null for one that was left out. -/
def PlainElement.stepData : Option PlainElement → Data
  | none => .null
  | some step => step.data

/-- The fields of a loop that come from its header. -/
def PlainHeader.fields (h : PlainHeader) : List (String × Data) :=
  [("variable", h.var.data), ("start", h.start.data), ("end", h.stop.data),
    ("step", PlainElement.stepData h.step)]

mutual

/-- The record of a node. -/
def PlainNode.data : PlainNode → Data
  | .text content => .record [("type", .string "text"), ("text", .string content)]
  | .echo elements =>
    .record [("type", .string "echo"), ("elements", .list (elements.map PlainElement.data))]
  | .loop header body =>
    .record ([("type", .string "for-loop")] ++ header.fields ++
      [("children", .list (PlainNode.dataAll body))])

/-- The records of nodes. -/
def PlainNode.dataAll : List PlainNode → List Data
  | [] => []
  | n :: ns => n.data :: PlainNode.dataAll ns

end

/-- The fields of a plain tree. -/
def PlainTree.fields (t : PlainTree) : List (String × Data) :=
  [("children", .list (PlainNode.dataAll t.children))]

/-- The record of a plain tree. -/
def PlainTree.data (t : PlainTree) : Data := .record t.fields

/-! ### Documents -/

/-- An element with its name as a string. -/
def Element.plain : Element → PlainElement
  | .integer value => .integer value
  | .double value => .double value
  | .string value => .string value
  | .var name => .var name.text
  | .function name => .function name.text
  | .operator op => .operator op.symbol

/-- A header with its names as strings. -/
def LoopHeader.plain (h : LoopHeader) : PlainHeader where
  var := (Element.var h.var).plain
  start := h.start.element.plain
  stop := h.stop.element.plain
  step := h.step.map fun step => step.element.plain

mutual

/-- A node with its names as strings. -/
def Node.plain : Node → PlainNode
  | .text content => .text content
  | .echo elements => .echo (elements.map Element.plain)
  | .loop header body => .loop header.plain (Node.plainAll body)

/-- Nodes with their names as strings. -/
def Node.plainAll : List Node → List PlainNode
  | [] => []
  | n :: ns => n.plain :: Node.plainAll ns

end

/-- A document with its names as strings. -/
def Document.plain (d : Document) : PlainTree := ⟨Node.plainAll d.children⟩

/-- The record of an element. -/
def Element.data (e : Element) : Data := e.plain.data

/-- The fields of a document. -/
def Document.fields (d : Document) : List (String × Data) := d.plain.fields

/-- The record of a document. -/
def Document.data (d : Document) : Data := d.plain.data

/-! ### Tokens -/

/-- A mark as its name, any other token as a record of one field. -/
def Token.data : Token → Data
  | .text content => .record [("Text", .string content)]
  | .tagOpen => .string "TagOpen"
  | .tagClose => .string "TagClose"
  | .echo => .string "Echo"
  | .name n => .record [("Name", .string n.text)]
  | .function n => .record [("Function", .string n.text)]
  | .integer value => .record [("Integer", .integer value.toInt)]
  | .double value => .record [("Double", .double value)]
  | .string value => .record [("Str", .string value)]
  | .operator op => .record [("Operator", .char op.symbol)]
  | .eof => .string "Eof"

end TagTemplate
