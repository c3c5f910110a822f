import TagTemplate.Document

/-!
# Documents as an outline

One line for every node, in the order in which they are written, with lines that lead from a
loop to the nodes in its body. A line shows the kind of the node and its label, cut to thirty
characters. Labels hold no line feeds, so there are as many lines as nodes.
-/

namespace TagTemplate.Outline

/-- How many characters of a label are shown. -/
def labelWidth : Nat := 30

/-- A label, cut if it is too long. -/
def clip (label : String) : String :=
  if labelWidth < label.length then
    String.ofList (label.toList.take labelWidth) ++ "..."
  else label

/-- What connects a node to its loop. -/
def connector (last : Bool) : String := if last then "└─" else "├─"

/-- What stands in the lines of the body below a node. -/
def continuation (last : Bool) : String := if last then "  " else "│ "

/-- The line of a node. -/
def line (lead : String) (last : Bool) (n : Node) : String :=
  lead ++ connector last ++ " " ++ n.kind ++ ": " ++ clip n.label ++ "\n"

mutual

/-- The lines of a node and its body. -/
def node (lead : String) (last : Bool) : Node → String
  | .text content => line lead last (.text content)
  | .echo elements => line lead last (.echo elements)
  | .loop header body =>
    line lead last (.loop header body) ++ nodes (lead ++ continuation last) body

/-- The lines of nodes in a row. -/
def nodes (lead : String) : List Node → String
  | [] => ""
  | n :: ns => node lead ns.isEmpty n ++ nodes lead ns

end

/-- The lines of a document. -/
def document (d : Document) : String := nodes "" d.children

end TagTemplate.Outline
