import TagTemplate.Document
import TagTemplate.Text.Entity

/-!
# Documents as markup

The tree of a document in angle brackets, one node a line: texts and elements as content, the
header of a loop as attributes, its body between two tags and indented by two. Content is not
indented or wrapped, so a text with line feeds runs over several lines.
-/

namespace TagTemplate.Markup

/-- The indentation of a level. -/
def indentation (level : Nat) : String := String.ofList (List.replicate (2 * level) ' ')

/-- Elements as content, each escaped on its own. -/
def elements (es : List Element) : String :=
  " ".intercalate (es.map fun e => Entity.escape e.text)

/-- An attribute with a blank in front. -/
def property (name : String) (e : Element) : String :=
  " " ++ name ++ "=\"" ++ Entity.escape e.text ++ "\""

/-- The header of a loop as attributes. -/
def properties (h : LoopHeader) : String :=
  property "var" (.var h.var) ++ property "start" h.start.element ++
    property "end" h.stop.element ++
    match h.step with
    | none => ""
    | some step => property "step" step.element

mutual

/-- A node at a level. -/
def node (level : Nat) : Node → String
  | .text content => indentation level ++ "<text>" ++ Entity.escape content ++ "</text>\n"
  | .echo es => indentation level ++ "<echo>" ++ elements es ++ "</echo>\n"
  | .loop header [] => indentation level ++ "<for" ++ properties header ++ "></for>\n"
  | .loop header (n :: ns) =>
    indentation level ++ "<for" ++ properties header ++ ">\n" ++ node (level + 1) n ++
      nodes (level + 1) ns ++ indentation level ++ "</for>\n"

/-- Nodes at a level. -/
def nodes (level : Nat) : List Node → String
  | [] => ""
  | n :: ns => node level n ++ nodes level ns

end

/-- A document. -/
def document (d : Document) : String :=
  "<document>\n" ++ nodes 1 d.children ++ "</document>"

end TagTemplate.Markup
