import TagTemplate.CommandLine.Arguments
import TagTemplate.Text.Terminal
import TagTemplate.Trace

/-!
# The command line

`CommandLine.run` is the whole program apart from its reading of the file and its printing:
it says what goes to which channel and with which code the program ends. A view that does not
exist is reported before the file is looked at; the file is read, then checked if that is
asked for, then shown. The printed text always ends with a line feed.

A run ends with code 0, with code 1 when the work failed, and with code 2 when the arguments
made no sense.
-/

namespace TagTemplate.CommandLine

/-- What a run leaves behind. -/
structure Outcome where
  /-- How the program ends. -/
  code : Nat
  /-- What goes to the standard output. -/
  stdout : String
  /-- What goes to the standard error channel. -/
  stderr : String
deriving DecidableEq

/-! ### Fixed texts -/

/-- What the program does. -/
def about : String := "Parse SmartScript templates and print them back"

/-- The program and its version. -/
def version : String := "smartscript 0.1.0\n"

/-- The help. -/
def help : String :=
  about ++ "\n\n" ++
    "Usage: smartscript [OPTIONS] [path]\n\n" ++
    "Arguments:\n" ++
    "  [path]  Path to the SmartScript document\n\n" ++
    "Options:\n" ++
    "  -f, --format <format>  Output format (e.g., 'source', 'token-simple', 'ast-treeviz') " ++
    "[default: source]\n" ++
    "      --verify           Check that the regenerated source parses to the same tree\n" ++
    "      --list-formats     List available output formats\n" ++
    "  -h, --help             Print help\n" ++
    "  -V, --version          Print version\n"

/-- What is printed about arguments that make no sense. What is quoted of them is cleaned of
control sequences. -/
def usageText : UsageError → String
  | .nothingGiven => help
  | .unexpectedArgument a => "error: unexpected argument '" ++ Terminal.clean a ++ "' found\n"
  | .missingValue o => "error: a value is required for '" ++ o.usage ++ "' but none was supplied\n"
  | .repeated o => "error: the argument '" ++ o.usage ++ "' cannot be used multiple times\n"
  | .unneededValue v o =>
    "error: unexpected value '" ++ Terminal.clean v ++ "' for '" ++ o.usage ++
      "' found; no more were expected\n"
  | .missingPath => "error: the following required arguments were not provided:\n"

/-- The names of views, each on a line of its own. -/
def viewLines : String :=
  String.join (View.availableNames.map fun name => "  " ++ name ++ "\n")

/-! ### Running -/

/-- A failure as an outcome, behind the lines told so far. -/
def failed (told : String) (f : Failure) : Outcome :=
  { code := 1, stdout := "", stderr := told ++ "Error: " ++ f.message ++ "\n" }

/-- A text with a line feed at its end. -/
def endLine (text : String) : String :=
  if text.toList.getLast? = some '\n' then text else text ++ "\n"

/-- The check of a source in a file: what is told of it, and the failure if there is one. -/
def verifyFile (path source : String) : List Event × Option Failure :=
  match verifyRoundTrip source with
  | .ok d => (Trace.verify source ++ [.verifiedFile path d.nodeCount], none)
  | .error f => (Trace.verify source, some f)

/-- Shows a source, behind the events so far. -/
def showSource (filter : Filter) (events : List Event) (v : View) (source : String) : Outcome :=
  let told := Trace.lines filter (events ++ Trace.render v source)
  match v.render source with
  | .ok text => { code := 0, stdout := endLine text, stderr := told }
  | .error f => failed told f

/-- Checks a source if that is asked for, then shows it. -/
def process (filter : Filter) (v : View) (verify : Bool) (path source : String) : Outcome :=
  if verify then
    match verifyFile path source with
    | (events, none) => showSource filter events v source
    | (events, some f) => failed (Trace.lines filter events) f
  else showSource filter [] v source

/-- Does what the options ask for; `read` gives what is found under a path. -/
def perform (filter : Filter) (read : String → FileContents) (o : Options) : Outcome :=
  if o.listFormats then
    { code := 0, stdout := "Available formats:\n\n" ++ viewLines, stderr := "" }
  else
    let path := o.path.getD ""
    match View.ofName (o.format.getD "source") with
    | .error f =>
      { code := 1, stdout := ""
        stderr := "Error: " ++ f.message ++ "\n\nAvailable formats:\n" ++ viewLines }
    | .ok v =>
      match (read path).text path with
      | .error f => failed "" f
      | .ok source => process filter v o.verify path source

/-- A whole run of the program. -/
def run (filter : Filter) (read : String → FileContents) (arguments : List String) : Outcome :=
  match Arguments.read arguments with
  | .error e => { code := 2, stdout := "", stderr := usageText e }
  | .ok .help => { code := 0, stdout := help, stderr := "" }
  | .ok .version => { code := 0, stdout := version, stderr := "" }
  | .ok (.run options) => perform filter read options

/-- The path whose contents a run looks at, if it looks at any. -/
def neededPath (arguments : List String) : Option String :=
  match Arguments.read arguments with
  | .ok (.run options) => if options.listFormats then none else options.path
  | _ => none

end TagTemplate.CommandLine
