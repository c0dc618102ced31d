import SmallMl.Command.Invocation
import SmallMl.Command.Output
import SmallMl.Command.Source

/-!
# Outcomes of the command

What a run of the command prints and how it ends. The command reads its source from a file or from
standard input and prints the tokens of it, unless its arguments ask for something else or are
refused.
-/

namespace SmallMl

/-- How a run of the command ends. -/
inductive ExitStatus where
  | success
  /-- A token could not be printed. -/
  | outputFailed
  /-- The arguments have been refused. -/
  | usage
  /-- The source could not be read. -/
  | sourceUnreadable
  /-- The source has a lexical error. -/
  | lexicalError
  deriving DecidableEq, Repr

/-- The exit code of a status. -/
def ExitStatus.code : ExitStatus → UInt32
  | success => 0
  | outputFailed => 1
  | usage => 2
  | sourceUnreadable => 4
  | lexicalError => 5

/-- How a run ends that has printed some tokens and found the given result. -/
def ExitStatus.ofPrinting : Except PrintError Nat → ExitStatus
  | .ok _ => success
  | .error (.lexical _) => lexicalError
  | .error .output => outputFailed

/-- What a run of the command prints and how it ends. -/
structure Outcome where
  status : ExitStatus
  stdout : String := ""
  stderr : String := ""
  deriving DecidableEq, Repr

namespace Outcome

/-- The help text. -/
def helpText : String :=
  "Print the lexical tokens of an ML source file, one per line\n" ++
  "\n" ++
  "Usage: mlc [FILE]\n" ++
  "\n" ++
  "Arguments:\n" ++
  "  [FILE]  Input source file (reads standard input when omitted)\n" ++
  "\n" ++
  "Options:\n" ++
  "  -h, --help  Print help\n"

/-- The message about an argument that has been refused. -/
def refusalText (argument : String) : String :=
  "error: unexpected argument '" ++ argument ++ "' found\n\nUsage: mlc [FILE]\n"

/-- The outcome of printing the tokens of a source. -/
def ofText (device : OutputDevice) (source : String) : Outcome :=
  let (out, result) := Output.printTokens { device } 0 (.ofSource source)
  { status := .ofPrinting result, stdout := out.taken }

/-- The outcome for a source that may not be readable. -/
def ofSource (device : OutputDevice) : Except SourceError String → Outcome
  | .ok source => ofText device source
  | .error error => { status := .sourceUnreadable, stderr := error.message }

/-- The outcome of a run for which `bytes` tells what comes of reading a file, or standard input when
no path is given. Help is printed without a look at the device. -/
def ofReading (device : OutputDevice) (arguments : List String)
    (bytes : Option String → Except SourceError ByteArray) : Outcome :=
  match Invocation.ofArguments arguments with
  | .help => { status := .success, stdout := helpText }
  | .refuse argument => { status := .usage, stderr := refusalText argument }
  | .printTokens path => ofSource device (bytes path >>= decodedSource)

/-- The outcome of a run in a directory, with the bytes of standard input. -/
def ofRun (device : OutputDevice) (arguments : List String) (stdin : ByteArray)
    (directory : Directory) : Outcome :=
  ofReading device arguments fun
    | none => .ok stdin
    | some path => directory.read path

end Outcome

end SmallMl
