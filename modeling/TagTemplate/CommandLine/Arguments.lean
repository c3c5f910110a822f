/-!
# Arguments of the command line

Arguments are read from left to right into `Options`. An option may have its value attached,
behind an equals sign or, with a single letter, right behind it; otherwise the next argument is
its value, unless that looks like an option itself. Behind two hyphens alone everything is a
path.

A value that stands apart is complete only when the next argument is known, so whether it is
missing or given twice is noticed then; an argument that fits nothing is reported in front of
that. Help and version are answered at once, whatever follows. What is missing altogether is
looked at last.

## Main definitions

* `Arguments.read`: what is asked for, or why the arguments make no sense.
-/

namespace TagTemplate

/-- The options of the command line. -/
inductive OptionName where
  | format
  | verify
  | listFormats
  | help
  | version
deriving DecidableEq

/-- How an option is named in messages. -/
def OptionName.usage : OptionName → String
  | format => "--format <format>"
  | verify => "--verify"
  | listFormats => "--list-formats"
  | help => "--help"
  | version => "--version"

/-- What was given. -/
structure Options where
  /-- The path of the file. -/
  path : Option String := none
  /-- The name of the view. -/
  format : Option String := none
  /-- Whether the round trip is to be checked. -/
  verify : Bool := false
  /-- Whether the names of the views are to be listed. -/
  listFormats : Bool := false
deriving DecidableEq

/-- What is asked for. -/
inductive Request where
  /-- To do the work. -/
  | run (options : Options)
  /-- To print the help. -/
  | help
  /-- To print the version. -/
  | version
deriving DecidableEq

/-- Why the arguments make no sense. -/
inductive UsageError where
  /-- Nothing was given at all. -/
  | nothingGiven
  /-- An option that does not exist, or a second path. -/
  | unexpectedArgument (argument : String)
  /-- An option without its value. -/
  | missingValue (option : OptionName)
  /-- An option given twice. -/
  | repeated (option : OptionName)
  /-- A value for an option that takes none. -/
  | unneededValue (value : String) (option : OptionName)
  /-- No path, where one is needed. -/
  | missingPath
deriving DecidableEq

namespace Arguments

/-- Options under way. -/
structure Progress where
  /-- What is complete. -/
  options : Options := {}
  /-- The format that is open, if one is, and its value, if that has been seen. -/
  pending : Option (Option String) := none
  /-- Whether two hyphens alone have been seen. -/
  onlyPaths : Bool := false

/-- Sets the format, which can be done once. -/
def setFormat (o : Options) (value : String) : Except UsageError Options :=
  if o.format.isSome then .error (.repeated .format) else .ok { o with format := some value }

/-- Completes an open format. -/
def settle (p : Progress) : Except UsageError Options :=
  match p.pending with
  | none => .ok p.options
  | some none => .error (.missingValue .format)
  | some (some value) => setFormat p.options value

/-- Sets one of the options without a value, which can be done once. -/
def setFlag (o : Options) : OptionName → Except UsageError Options
  | .verify => if o.verify then .error (.repeated .verify) else .ok { o with verify := true }
  | .listFormats =>
    if o.listFormats then .error (.repeated .listFormats) else .ok { o with listFormats := true }
  | _ => .ok o

/-- Cuts an argument at its first equals sign. -/
def splitValue (cs : List Char) : List Char × Option (List Char) :=
  match cs.dropWhile (· != '=') with
  | [] => (cs, none)
  | _ :: value => (cs.takeWhile (· != '='), some value)

/-- The option of a long name. -/
def ofLongName? : String → Option OptionName
  | "format" => some .format
  | "verify" => some .verify
  | "list-formats" => some .listFormats
  | "help" => some .help
  | "version" => some .version
  | _ => none

/-- The option of a letter. -/
def ofLetter? : Char → Option OptionName
  | 'f' => some .format
  | 'h' => some .help
  | 'V' => some .version
  | _ => none

/-- What one argument does: it answers the whole request, or the reading goes on. -/
inductive Effect where
  | answer (request : Request)
  | goOn (progress : Progress)

/-- Takes an option, with the value attached to it if there is one. -/
def takeOption (p : Progress) (option : OptionName) (value : Option String) :
    Except UsageError Effect :=
  match option, value with
  | .format, some v => do
    let o ← settle p
    let o ← setFormat o v
    pure (.goOn { options := o })
  | .format, none => do
    let o ← settle p
    pure (.goOn { options := o, pending := some none })
  | flag, some v => .error (.unneededValue v flag)
  | .help, none => do
    let _ ← settle p
    pure (.answer .help)
  | .version, none => do
    let _ ← settle p
    pure (.answer .version)
  | flag, none => do
    let o ← settle p
    let o ← setFlag o flag
    pure (.goOn { options := o })

/-- Takes a path. -/
def takePath (p : Progress) (argument : String) : Except UsageError Effect :=
  if p.options.path.isSome then .error (.unexpectedArgument argument)
  else do
    let o ← settle p
    pure (.goOn { p with options := { o with path := some argument }, pending := none })

/-- Takes an argument that does not look like an option: the value of an open option, or a
path. -/
def takeValue (p : Progress) (argument : String) : Except UsageError Effect :=
  match p.pending with
  | some none => .ok (.goOn { p with pending := some (some argument) })
  | _ => takePath p argument

/-- Takes an option written with two hyphens. -/
def takeLong (p : Progress) (cs : List Char) : Except UsageError Effect :=
  let (nameChars, value) := splitValue cs
  let name := String.ofList nameChars
  match ofLongName? name with
  | none => .error (.unexpectedArgument ("--" ++ name))
  | some option => takeOption p option (value.map String.ofList)

/-- Takes an option written with one hyphen: the letter decides, and what follows it is the
value of a format. -/
def takeShort (p : Progress) (letter : Char) (cs : List Char) : Except UsageError Effect :=
  match ofLetter? letter with
  | none => .error (.unexpectedArgument ("-" ++ String.singleton letter))
  | some .format =>
    match cs with
    | [] => takeOption p .format none
    | '=' :: value => takeOption p .format (some (String.ofList value))
    | value => takeOption p .format (some (String.ofList value))
  | some option => takeOption p option none

/-- Takes one argument. -/
def takeArgument (p : Progress) (argument : String) : Except UsageError Effect :=
  if p.onlyPaths then takePath p argument
  else
    match argument.toList with
    | ['-', '-'] => .ok (.goOn { p with onlyPaths := true })
    | '-' :: '-' :: cs => takeLong p cs
    | '-' :: letter :: cs => takeShort p letter cs
    | _ => takeValue p argument

/-- What is missing when all arguments have been read. -/
def finish (p : Progress) : Except UsageError Request := do
  let o ← settle p
  if o = {} then .error .nothingGiven
  else if o.path.isNone && !o.listFormats then .error .missingPath
  else .ok (.run o)

/-- Reads arguments. -/
def readFrom (p : Progress) : List String → Except UsageError Request
  | [] => finish p
  | argument :: more =>
    match takeArgument p argument with
    | .error e => .error e
    | .ok (.answer request) => .ok request
    | .ok (.goOn p') => readFrom p' more

/-- What is asked for, or why the arguments make no sense. -/
def read (arguments : List String) : Except UsageError Request := readFrom {} arguments

end Arguments

end TagTemplate
