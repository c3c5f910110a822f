import TagTemplate.View

/-!
# Sample documents

Six templates that between them use everything templates can hold: plain text, all kinds of
elements, loops alone and inside each other, and escapes in text and in strings.
-/

namespace TagTemplate

/-- A template with a name. -/
structure Sample where
  /-- Its name. -/
  name : String
  /-- Its lines, without the line feeds. -/
  lines : List String

namespace Sample

/-- The text of a sample; each of its lines ends with a line feed. -/
def content (s : Sample) : String := String.join (s.lines.map (· ++ "\n"))

/-- Text without tags. -/
def textOnly : Sample where
  name := "000-text-only.smscr"
  lines := [
    "This is sample text.",
    "It spans several lines and contains no tags at all.",
    "Dollar signs $ and closing markers $\x7d are ordinary text here."]

/-- Echo tags with all kinds of elements. -/
def echoElements : Sample where
  name := "010-echo-elements.smscr"
  lines := [
    "Values: \x7b$= i \"hello\" @sin 3.14 -5 * $\x7d",
    "Mixed spacing:\x7b$=   total   1.5   @decfmt   \"0.00\"   + $\x7d"]

/-- One loop. -/
def loopSimple : Sample where
  name := "020-for-loop-simple.smscr"
  lines := [
    "Text \x7b$FOR i 1 10 1$\x7d\x7b$= i $\x7d\x7b$END$\x7d"]

/-- A loop inside a loop. -/
def loopNested : Sample where
  name := "030-for-loop-nested.smscr"
  lines := [
    "\x7b$ FOR row 1 3 $\x7dRow \x7b$= row $\x7d:",
    "\x7b$ FOR col -1 1.5 step $\x7d  cell \x7b$= row col * $\x7d",
    "\x7b$END$\x7d\x7b$ END $\x7ddone"]

/-- Escapes in text and in strings. -/
def escapes : Sample where
  name := "040-escapes.smscr"
  lines := [
    "A backslash \\\\ and a brace \\\x7b$ that does not open a tag.",
    "\x7b$= \"quote \\\" backslash \\\\ brace \\\x7b tab \\t end\" $\x7d"]

/-- A little of everything. -/
def kitchenSink : Sample where
  name := "050-kitchen-sink.smscr"
  lines := [
    "This is sample text.",
    "\x7b$ FOR i 1 10 1 $\x7d",
    "  This is \x7b$= i $\x7d-th time this message is generated.",
    "\x7b$END$\x7d",
    "\x7b$FOR i 0 10 2 $\x7d",
    "  sin(\x7b$=i$\x7d^2) = \x7b$= i i * @sin \"0.000\" @decfmt $\x7d",
    "\x7b$END$\x7d"]

/-- All samples, by name. -/
def all : List Sample :=
  [textOnly, echoElements, loopSimple, loopNested, escapes, kitchenSink]

/-- The names of all samples. -/
def names : List String := all.map name

/-- The failure to find a sample, with the names of those there are. -/
def notFound (name : String) : Failure :=
  .fileNotFound ("Sample '" ++ name ++ "' is not available. Available samples: [" ++
    ", ".intercalate (names.map fun n => "\"" ++ n ++ "\"") ++ "]")

/-- The text of the sample of that name. -/
def get (name : String) : Except Failure String :=
  match all.find? (·.name == name) with
  | some s => .ok s.content
  | none => .error (notFound name)

/-- The sample of that name in the view of that name. A missing sample is noticed first. -/
def render (name view : String) : Except Failure String := do
  let source ← get name
  let v ← View.ofName view
  v.render source

/-- The document of the sample of that name. -/
def document (name : String) : Except Failure Document := do
  let source ← get name
  (parse source).mapError .parse

end Sample

end TagTemplate
