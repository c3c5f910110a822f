import TagTemplate.Data.Json
import TagTemplate.Data.Yaml
import TagTemplate.Markup
import TagTemplate.Outline
import TagTemplate.Parse

/-!
# Views of a source

A source can be shown as its tokens or as its tree, in several formats, or as the template
that its tree gives. A view is named by its stage and its format with a hyphen between them;
the view of the regenerated template is called `source`.

Everything that can go wrong on the way from a name and a file to a text is a `Failure`.

## Main definitions

* `View.ofName`, `View.name`, `View.available`: views and their names.
* `View.render`: the view of a source.
* `verifyRoundTrip`: whether the regenerated template gives the same tree again.
-/

namespace TagTemplate

/-- What is shown of a source. -/
inductive Stage where
  /-- The regenerated template. -/
  | source
  /-- The tokens. -/
  | token
  /-- The tree. -/
  | tree
deriving DecidableEq

/-- How it is shown. -/
inductive Format where
  /-- As a template. -/
  | source
  /-- As a plain sequence. -/
  | simple
  /-- As JSON. -/
  | json
  /-- As YAML. -/
  | yaml
  /-- As markup. -/
  | markup
  /-- As an outline. -/
  | outline
deriving DecidableEq

/-- A stage and a format. Not every pair makes sense, which shows when it is rendered. -/
structure View where
  /-- What is shown. -/
  stage : Stage
  /-- How it is shown. -/
  format : Format
deriving DecidableEq

/-- How formats are called in names of views. -/
def Format.name : Format → String
  | source => "source"
  | simple => "simple"
  | json => "json"
  | yaml => "yaml"
  | markup => "tag"
  | outline => "treeviz"

/-- How formats are called in messages. -/
def Format.title : Format → String
  | source => "Source"
  | simple => "Simple"
  | json => "Json"
  | yaml => "Yaml"
  | markup => "AstTag"
  | outline => "AstTreeviz"

/-! ### Failures -/

/-- Why a source could not be shown. -/
inductive Failure where
  /-- There is no such file, or no such sample. -/
  | fileNotFound (what : String)
  /-- The bytes of a file are no UTF-8. -/
  | notUtf8
  /-- A file cannot be read, for a reason with a number. -/
  | unreadable (reason : String) (number : Nat)
  /-- A name without a stage. -/
  | unknownView (name : String)
  /-- A stage that does not exist. -/
  | unknownStage (stage : String)
  /-- A format that does not exist. -/
  | unknownFormat (format : String)
  /-- A format of trees, asked for tokens. -/
  | treeFormatOnly (format : String)
  /-- A format of tokens, asked for a tree. -/
  | tokenFormatOnly (format : String)
  /-- A format in which tokens cannot be written. -/
  | notForTokens (format : Format)
  /-- A format in which trees cannot be written. -/
  | notForTrees (format : Format)
  /-- The source is no template. -/
  | parse (error : ParseError)
  /-- The regenerated template gives another tree. -/
  | roundTripMismatch (regenerated : String)
deriving DecidableEq

/-- The message of a failure. -/
def Failure.message : Failure → String
  | fileNotFound what => "File not found: " ++ what
  | notUtf8 => "IO error: stream did not contain valid UTF-8"
  | unreadable reason number =>
    "IO error: " ++ reason ++ " (os error " ++ Nat.repr number ++ ")"
  | unknownView name => "Invalid format: " ++ name
  | unknownStage stage => "Invalid stage: " ++ stage
  | unknownFormat format => "Invalid format type: " ++ format
  | treeFormatOnly format =>
    "Invalid format type: Format '" ++ format ++ "' only works with AST stage"
  | tokenFormatOnly format =>
    "Invalid format type: Format '" ++ format ++ "' only works with token stage"
  | notForTokens format => "Invalid format type: " ++ format.title ++ " is not a token format"
  | notForTrees format => "Invalid format type: " ++ format.title ++ " is not a document format"
  | parse e => e.display
  | roundTripMismatch _ => "Regenerated source does not parse to the same document"

/-! ### Names -/

namespace View

/-- The view of the regenerated template. -/
def source : View := ⟨.source, .source⟩

/-- The name of a view. -/
def name (v : View) : String :=
  match v.stage with
  | .source => "source"
  | .token => "token-" ++ v.format.name
  | .tree => "ast-" ++ v.format.name

/-- The views there are. -/
def available : List View :=
  [source, ⟨.token, .simple⟩, ⟨.token, .json⟩, ⟨.tree, .markup⟩, ⟨.tree, .outline⟩,
    ⟨.tree, .json⟩, ⟨.tree, .yaml⟩]

/-- The names of the views there are. -/
def availableNames : List String := available.map name

/-- The format of that name, for a stage other than the template itself. -/
def formatOf (stage : Stage) (name : String) : Except Failure Format :=
  match stage, name with
  | .token, "simple" => .ok .simple
  | _, "json" => .ok .json
  | .tree, "yaml" => .ok .yaml
  | .tree, "tag" => .ok .markup
  | .tree, "treeviz" => .ok .outline
  | .token, "tag" | .token, "treeviz" | .token, "yaml" => .error (.treeFormatOnly name)
  | .tree, "simple" => .error (.tokenFormatOnly name)
  | _, _ => .error (.unknownFormat name)

/-- The stage of that name. -/
def stageOf : String → Except Failure Stage
  | "token" => .ok .token
  | "ast" => .ok .tree
  | name => .error (.unknownStage name)

/-- Cuts a name at its first hyphen. -/
def splitName (name : String) : Option (String × String) :=
  let cs := name.toList
  match cs.dropWhile (· != '-') with
  | [] => none
  | _ :: format => some (String.ofList (cs.takeWhile (· != '-')), String.ofList format)

/-- The view of that name. -/
def ofName (name : String) : Except Failure View :=
  if name = "source" then .ok source
  else
    match splitName name with
    | none => .error (.unknownView name)
    | some (stageName, formatName) => do
      let stage ← stageOf stageName
      let format ← formatOf stage formatName
      pure { stage, format }

/-! ### Rendering -/

/-- Tokens in a format. -/
def renderTokens (format : Format) (tokens : List Token) : Except Failure String :=
  match format with
  | .simple => .ok (String.join (tokens.map Token.display))
  | .json => .ok (Json.pretty (.list (tokens.map Token.data)))
  | f => .error (.notForTokens f)

/-- A document in a format. -/
def renderDocument (format : Format) (d : Document) : Except Failure String :=
  match format with
  | .markup => .ok (Markup.document d)
  | .outline => .ok (Outline.document d)
  | .json => .ok (Json.pretty d.data)
  | .yaml => .ok (Yaml.document d.fields)
  | f => .error (.notForTrees f)

/-- The view of a source. -/
def render (v : View) (source : String) : Except Failure String :=
  match v.stage with
  | .source =>
    match parse source with
    | .ok d => .ok d.source
    | .error e => .error (.parse e)
  | .token =>
    match tokenize source with
    | .ok tokens => renderTokens v.format tokens
    | .error e => .error (.parse (.lexical e))
  | .tree =>
    match parse source with
    | .ok d => renderDocument v.format d
    | .error e => .error (.parse e)

end View

/-! ### Round trips -/

/-- The document of a source, if the template regenerated from it gives the same document. -/
def verifyRoundTrip (source : String) : Except Failure Document :=
  match parse source with
  | .error e => .error (.parse e)
  | .ok d =>
    match parse d.source with
    | .error e => .error (.parse e)
    | .ok again =>
      if again.agrees d then .ok d else .error (.roundTripMismatch d.source)

/-! ### Files -/

/-- What is found under a path. -/
inductive FileContents where
  /-- Nothing. -/
  | missing
  /-- A file with these bytes. -/
  | bytes (bytes : ByteArray)
  /-- Something that cannot be read, for a reason with a number. -/
  | unreadable (reason : String) (number : Nat)

/-- The text of a file. -/
def FileContents.text (path : String) : FileContents → Except Failure String
  | missing => .error (.fileNotFound path)
  | unreadable reason number => .error (.unreadable reason number)
  | bytes bs =>
    match String.fromUTF8? bs with
    | some text => .ok text
    | none => .error .notUtf8

end TagTemplate
