import TagTemplate.Element

/-!
# Loop headers

A loop runs a variable from a start to an end, by a step that may be left out. Bounds are
whole numbers, doubles or variables; the type of bounds holds just these. The parts of a
header are checked in the order in which they are written, and the first that does not fit is
the error.
-/

namespace TagTemplate

/-- An element that can bound a loop. -/
structure Bound where
  /-- The element. -/
  element : Element
  /-- It can bound a loop. -/
  isBound_element : element.isBound = true
deriving DecidableEq

namespace Bound

/-- The element as a bound, if it can be one. -/
def ofElement (e : Element) : Except ElementError Bound :=
  if h : e.isBound = true then .ok ⟨e, h⟩ else .error (.invalidLoopBound e)

/-- The same bound, doubles being compared up to the tolerance. -/
def agrees (a b : Bound) : Bool := a.element.agrees b.element

end Bound

/-- What a loop runs over. -/
structure LoopHeader where
  /-- The variable that runs. -/
  var : Identifier
  /-- Where it starts. -/
  start : Bound
  /-- Where it ends. -/
  stop : Bound
  /-- How far it goes at a time, if that is said. -/
  step : Option Bound
deriving DecidableEq

namespace LoopHeader

/-- The name of a variable, or the error that the element is none. -/
def variableOf : Element → Except ElementError Identifier
  | .var name => .ok name
  | e => .error (.invalidLoopVariable e)

/-- The header made of a variable, a start, an end and maybe a step. -/
def ofElements (runner start stop : Element) (step : Option Element) :
    Except ElementError LoopHeader := do
  let var ← variableOf runner
  let start ← Bound.ofElement start
  let stop ← Bound.ofElement stop
  match step with
  | none => pure { var, start, stop, step := none }
  | some e =>
    let step ← Bound.ofElement e
    pure { var, start, stop, step := some step }

/-- The parts of a header in the order in which they are written. -/
def elements (h : LoopHeader) : List Element :=
  [.var h.var, h.start.element, h.stop.element] ++ (h.step.map Bound.element).toList

/-- A header as it is written in a tag. -/
def text (h : LoopHeader) : String := " ".intercalate (h.elements.map Element.text)

/-- The same step, or none in both. -/
def stepsAgree : Option Bound → Option Bound → Bool
  | none, none => true
  | some a, some b => a.agrees b
  | _, _ => false

/-- The same header, doubles being compared up to the tolerance. -/
def agrees (a b : LoopHeader) : Bool :=
  a.var == b.var && a.start.agrees b.start && a.stop.agrees b.stop &&
    stepsAgree a.step b.step

end LoopHeader

end TagTemplate
