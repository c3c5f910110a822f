import TagTemplate.Trace.Level
import TagTemplate.View

/-!
# Events

What can be told about the reading of a source. An event has a level, the part of the program
that tells it, a label and named values. Parts have addresses of the form `program::part`, by
which users choose what they want to be told of; the address of a part begins with the address
of the part that contains it.

## Main definitions

* `Event`: what can be told.
* `Event.level`, `Event.address`, `Event.names`: what a choice of events can ask about.
* `Event.line`: how an event is told.
-/

namespace TagTemplate

/-- What can be told. -/
inductive Event where
  /-- A token was read. -/
  | lexed (token : Token) (span : Span)
  /-- An echo tag inside of so many loops. -/
  | echoTag (depth elements : Nat)
  /-- A loop begins inside of so many others. -/
  | opening (depth : Nat) (header : LoopHeader)
  /-- A loop inside of so many others ends. -/
  | closing (depth : Nat)
  /-- A document with so many nodes was parsed. -/
  | parsed (nodes : Nat)
  /-- The regenerated template gave the same document. -/
  | verified (nodes : Nat)
  /-- The same of the document in a file. -/
  | verifiedFile (path : String) (nodes : Nat)
  /-- A source of so many bytes is shown. -/
  | processing (view : View) (bytes : Nat)
deriving DecidableEq

namespace Event

/-- The level of an event. -/
def level : Event → Level
  | lexed _ _ => .trace
  | verifiedFile _ _ => .info
  | _ => .debug

/-- The address of the part of the program that tells an event. -/
def address : Event → String
  | lexed _ _ => "smartscript::script::lexer::lexer_impl"
  | echoTag _ _ | opening _ _ | closing _ | parsed _ => "smartscript::script::parser::parser"
  | verified _ | processing _ _ => "smartscript::script::processor"
  | verifiedFile _ _ => "smartscript"

/-! ### Wording -/

/-- How a character is shown inside a quoted value. -/
def quoteChar : Char → List Char
  | '"' => ['\\', '"']
  | '\\' => ['\\', '\\']
  | '\n' => ['\\', 'n']
  | '\r' => ['\\', 'r']
  | '\t' => ['\\', 't']
  | c => [c]

/-- A quoted value. -/
def quoted (s : String) : String :=
  "\"" ++ String.ofList (s.toList.flatMap quoteChar) ++ "\""

/-- What happened. -/
def label : Event → String
  | lexed _ _ => "lexed token"
  | echoTag _ _ => "echo tag"
  | opening _ _ => "opening FOR"
  | closing _ => "closing FOR"
  | parsed _ => "parsed document"
  | verified _ | verifiedFile _ _ => "round trip verified"
  | processing _ _ => "processing document"

/-- The values of an event with their names. -/
def values : Event → List (String × String)
  | lexed token span =>
    [("token", token.display), ("span", Nat.repr span.start ++ ".." ++ Nat.repr span.stop)]
  | echoTag depth elements => [("depth", Nat.repr depth), ("elements", Nat.repr elements)]
  | opening depth header => [("depth", Nat.repr depth), ("header", header.text)]
  | closing depth => [("depth", Nat.repr depth)]
  | parsed nodes | verified nodes => [("nodes", Nat.repr nodes)]
  | verifiedFile path nodes => [("path", quoted path), ("nodes", Nat.repr nodes)]
  | processing view bytes => [("spec", view.name), ("bytes", Nat.repr bytes)]

/-- The names under which an event carries something; the label is its message. -/
def names (e : Event) : List String := "message" :: e.values.map Prod.fst

/-- The line of an event. -/
def line (e : Event) : String :=
  e.level.title ++ " " ++ e.label ++
    String.join (e.values.map fun (name, value) => " " ++ name ++ "=" ++ value) ++ "\n"

end Event

end TagTemplate
