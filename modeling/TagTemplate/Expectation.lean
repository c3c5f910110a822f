import TagTemplate.Document

/-!
# Expectations on documents

An expectation is a chain of things to be found in a document. It starts at the children of
the document and goes down: to a child, to what kind of node that is, to what stands in it, and
in a loop to the children again. What a link of the chain looks at is its `Focus`, so that only
links that fit can follow each other. The first link that is not met is a `Mismatch`, told with
the place in the document.

## Main definitions

* `Expectation`: chains.
* `Expectation.check`: the first mismatch of a chain, if there is one.
-/

namespace TagTemplate

/-- What a link of a chain looks at. -/
inductive Focus where
  | nodes
  | node
  | text
  | echo
  | loop
deriving DecidableEq

/-- What is looked at under a focus. -/
def Focus.Subject : Focus → Type
  | nodes => List Node
  | node => Node
  | text => String
  | echo => List Element
  | loop => LoopHeader × List Node

/-- A chain of expectations. A chain may end anywhere. -/
inductive Expectation : Focus → Type where
  /-- Nothing more is expected. -/
  | done {focus : Focus} : Expectation focus
  /-- So many nodes. -/
  | count (n : Nat) (more : Expectation .nodes) : Expectation .nodes
  /-- Goes on with one of the nodes, counted from zero. -/
  | child (index : Nat) (more : Expectation .node) : Expectation .nodes
  /-- The node is text. -/
  | isText (more : Expectation .text) : Expectation .node
  /-- The node is an echo tag. -/
  | isEcho (more : Expectation .echo) : Expectation .node
  /-- The node is a loop. -/
  | isLoop (more : Expectation .loop) : Expectation .node
  /-- The text is this. -/
  | content (text : String) (more : Expectation .text) : Expectation .text
  /-- The text has this in it. -/
  | contains (text : String) (more : Expectation .text) : Expectation .text
  /-- The elements agree with these. -/
  | elements (es : List Element) (more : Expectation .echo) : Expectation .echo
  /-- So many elements. -/
  | elementCount (n : Nat) (more : Expectation .echo) : Expectation .echo
  /-- The elements are written so. -/
  | renders (text : String) (more : Expectation .echo) : Expectation .echo
  /-- The variable of the loop is called so. -/
  | runs (name : String) (more : Expectation .loop) : Expectation .loop
  /-- The header of the loop is written so. -/
  | header (text : String) (more : Expectation .loop) : Expectation .loop
  /-- The bounds of the loop agree with these. -/
  | bounds (start stop : Element) (step : Option Element) (more : Expectation .loop) :
      Expectation .loop
  /-- So many nodes in the body. -/
  | bodyCount (n : Nat) (more : Expectation .loop) : Expectation .loop
  /-- Goes on with one of the nodes in the body. -/
  | bodyChild (index : Nat) (more : Expectation .node) : Expectation .loop

/-! ### Mismatches -/

/-- What is not as expected. -/
inductive MismatchCause where
  | count (expected : Nat) (found : List Node)
  | outOfRange (index size : Nat)
  | kind (expected : String) (found : Node)
  | content
  | lacks (needle text : String)
  | elements
  | elementCount
  | rendering
  | loopVariable
  | header
  | start
  | stop
  | step

/-- What is not as expected, and where. -/
structure Mismatch where
  /-- Where. -/
  place : String
  /-- What. -/
  cause : MismatchCause

/-- What is not as expected, in words. -/
def MismatchCause.message : MismatchCause → String
  | count expected found =>
    "Expected " ++ Nat.repr expected ++ " children, found " ++ Nat.repr found.length ++ ": [" ++
      ", ".intercalate (found.map Node.kind) ++ "]"
  | outOfRange index size =>
    "Child index " ++ Nat.repr index ++ " out of bounds (" ++ Nat.repr size ++ " children)"
  | kind expected found =>
    "Expected " ++ expected ++ ", found " ++ found.kind ++ " '" ++ found.label ++ "'"
  | content => "text mismatch"
  | lacks needle text =>
    "Expected text to contain '" ++ needle ++ "', found '" ++ text ++ "'"
  | elements => "elements mismatch"
  | elementCount => "element count mismatch"
  | rendering => "rendered elements mismatch"
  | loopVariable => "loop variable mismatch"
  | header => "loop header mismatch"
  | start => "start mismatch"
  | stop => "end mismatch"
  | step => "step mismatch"

/-- The message of a mismatch. -/
def Mismatch.message (m : Mismatch) : String := m.place ++ ": " ++ m.cause.message

/-! ### Checking -/

/-- Whether one text occurs in another. -/
def occursIn (needle : List Char) : List Char → Bool
  | [] => needle.isEmpty
  | c :: cs => needle.isPrefixOf (c :: cs) || occursIn needle cs

/-- The same element, or none in both. -/
def optionsAgree : Option Element → Option Element → Bool
  | none, none => true
  | some a, some b => a.agrees b
  | _, _ => false

namespace Expectation

/-- Fails with a cause unless a condition holds. -/
def require (met : Bool) (place : String) (cause : MismatchCause) : Except Mismatch Unit :=
  if met then .ok () else .error ⟨place, cause⟩

/-- The place of a child. -/
def childPlace (place : String) (index : Nat) : String :=
  place ++ ".children[" ++ Nat.repr index ++ "]"

/-- The child at an index. -/
def childAt (place : String) (ns : List Node) (index : Nat) : Except Mismatch Node :=
  match ns[index]? with
  | some n => .ok n
  | none => .error ⟨place, .outOfRange index ns.length⟩

/-- The first bound that does not agree. -/
def checkBounds (place : String) (h : LoopHeader) (start stop : Element)
    (step : Option Element) : Except Mismatch Unit := do
  require (h.start.element.agrees start) place .start
  require (h.stop.element.agrees stop) place .stop
  require (optionsAgree (h.step.map Bound.element) step) place .step

/-- The first link of a chain that is not met by what it looks at. -/
def check (place : String) : {focus : Focus} → Expectation focus → focus.Subject →
    Except Mismatch Unit
  | _, done, _ => .ok ()
  | _, count n more, (ns : List Node) => do
    require (ns.length == n) place (.count n ns)
    check place more ns
  | _, child index more, (ns : List Node) => do
    let n ← childAt place ns index
    check (childPlace place index) more n
  | _, isText more, (n : Node) =>
    match n with
    | .text s => check place more s
    | n => .error ⟨place, .kind "Text" n⟩
  | _, isEcho more, (n : Node) =>
    match n with
    | .echo es => check place more es
    | n => .error ⟨place, .kind "Echo" n⟩
  | _, isLoop more, (n : Node) =>
    match n with
    | .loop h body => check place more (h, body)
    | n => .error ⟨place, .kind "ForLoop" n⟩
  | _, content text more, (s : String) => do
    require (s == text) place .content
    check place more s
  | _, contains text more, (s : String) => do
    require (occursIn text.toList s.toList) place (.lacks text s)
    check place more s
  | _, elements expected more, (es : List Element) => do
    require (Element.agreesAll es expected) place .elements
    check place more es
  | _, elementCount n more, (es : List Element) => do
    require (es.length == n) place .elementCount
    check place more es
  | _, renders text more, (es : List Element) => do
    require (Node.elementsText es == text) place .rendering
    check place more es
  | _, runs name more, (l : LoopHeader × List Node) => do
    require (l.1.var.text == name) place .loopVariable
    check place more l
  | _, header text more, (l : LoopHeader × List Node) => do
    require (l.1.text == text) place .header
    check place more l
  | _, bounds start stop step more, (l : LoopHeader × List Node) => do
    checkBounds place l.1 start stop step
    check place more l
  | _, bodyCount n more, (l : LoopHeader × List Node) => do
    require (l.2.length == n) place (.count n l.2)
    check place more l
  | _, bodyChild index more, (l : LoopHeader × List Node) => do
    let n ← childAt place l.2 index
    check (childPlace place index) more n

end Expectation

/-- The first mismatch of a chain that starts at the children of a document. -/
def Document.meets (d : Document) (e : Expectation .nodes) : Except Mismatch Unit :=
  e.check "document" d.children

end TagTemplate
