import SmallMl.Command.Outcome

/-!
# Command line

Prints the tokens of a file, or of standard input.
-/

namespace SmallMl

/-- The reason behind an error of the system. -/
def SourceError.ofSystem : IO.Error → SourceError
  | .noFileOrDirectory .. => .notFound
  | .inappropriateType _ code detail =>
      -- a failure to open a file carries the negated code
      if code = 21 ∨ -code = 21 then .isDirectory
      else if code = 20 ∨ -code = 20 then .notDirectory
      else .system detail
  | error => .system (toString error)

/-- The bytes of standard input, up to its end. -/
def standardInput : IO ByteArray := do
  let stream ← IO.getStdin
  let mut bytes := ByteArray.empty
  repeat
    let chunk ← stream.read 65536
    if chunk.isEmpty then break
    bytes := bytes ++ chunk
  return bytes

/-- The text of a source, read from a file or from standard input. -/
def readSource (path : Option String) : IO (Except SourceError String) := do
  try
    let bytes ← match path with
      | some path => IO.FS.readBinFile path
      | none => standardInput
    return decodedSource bytes
  catch error => return .error (.ofSystem error)

/-- Prints an outcome and returns its exit code. -/
def Outcome.print (outcome : Outcome) : IO UInt32 := do
  try
    let stdout ← IO.getStdout
    stdout.putStr outcome.stdout
    stdout.flush
    IO.eprint outcome.stderr
    return outcome.status.code
  catch _ => return ExitStatus.outputFailed.code

end SmallMl

/-- Prints the tokens of the source that the arguments name. -/
def main (arguments : List String) : IO UInt32 := do
  match SmallMl.Invocation.ofArguments arguments with
  | .help =>
      -- help succeeds even where it cannot be shown
      let _ ← SmallMl.Outcome.print { status := .success, stdout := SmallMl.Outcome.helpText }
      return SmallMl.ExitStatus.success.code
  | .refuse argument =>
      SmallMl.Outcome.print
        { status := .usage, stderr := SmallMl.Outcome.refusalText argument }
  | .printTokens path =>
      let source ← SmallMl.readSource path
      (SmallMl.Outcome.ofSource .working source).print
