/-!
# Text in markup

Five characters have a meaning of their own in markup and are written as entities. The
replacements are made one after another over the whole text, the ampersand first: any other
order would escape the ampersands of entities already put in.
-/

namespace TagTemplate.Entity

/-- The characters with a meaning of their own, and what they are written as, in the order in
which they are replaced. -/
def replacements : List (Char × String) :=
  [('&', "&amp;"), ('<', "&lt;"), ('>', "&gt;"), ('"', "&quot;"), ('\'', "&apos;")]

/-- Writes every occurrence of a character otherwise. -/
def replaceChar (c : Char) (entity : String) (text : List Char) : List Char :=
  text.flatMap fun d => if d = c then entity.toList else [d]

/-- A text with its special characters written as entities. -/
def escape (text : String) : String :=
  String.ofList <|
    replacements.foldl (fun acc (c, entity) => replaceChar c entity acc) text.toList

end TagTemplate.Entity
