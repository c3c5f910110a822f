import TagTemplate.CommandLine

/-!
# The program

Reads the file that is asked for, leaves the work to `CommandLine.run`, and prints. How much is
told about the work is set by the environment variable `SMARTSCRIPT_LOG`.
-/

namespace TagTemplate

/-- The number of an error of the system, with the words that came with it. -/
def systemError : IO.Error → Nat × String
  | .alreadyExists _ n words | .otherError n words | .resourceBusy n words
  | .resourceVanished n words | .unsupportedOperation n words | .hardwareFault n words
  | .unsatisfiedConstraints n words | .illegalOperation n words | .protocolError n words
  | .timeExpired n words | .interrupted _ n words | .noFileOrDirectory _ n words
  | .invalidArgument _ n words | .permissionDenied _ n words | .resourceExhausted _ n words
  | .inappropriateType _ n words | .noSuchThing _ n words => (n.toInt32.toInt.natAbs, words)
  | .unexpectedEof => (0, "")
  | .userError words => (0, words)

/-- How the system words the reasons for which a file usually cannot be read; other reasons are
left as they came. -/
def systemReason (number : Nat) (words : String) : String :=
  match number with
  | 13 => "Permission denied"
  | 20 => "Not a directory"
  | 21 => "Is a directory"
  | 36 => "File name too long"
  | 40 => "Too many levels of symbolic links"
  | _ => words

/-- What is found under a path; the number 2 stands for nothing at all. -/
def readContents (path : String) : IO FileContents := do
  try
    let bytes ← IO.FS.readBinFile path
    return .bytes bytes
  catch e =>
    match systemError e with
    | (2, _) => return .missing
    | (number, words) => return .unreadable (systemReason number words) number

end TagTemplate

open TagTemplate in
/-- The program. -/
def main (arguments : List String) : IO UInt32 := do
  let filter := Filter.ofRequest (← IO.getEnv "SMARTSCRIPT_LOG")
  let contents ←
    match CommandLine.neededPath arguments with
    | some path => readContents path
    | none => pure .missing
  let outcome := CommandLine.run filter (fun _ => contents) arguments
  IO.eprint outcome.stderr
  IO.print outcome.stdout
  return UInt32.ofNat outcome.code
