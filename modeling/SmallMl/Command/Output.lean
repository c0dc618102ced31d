import SmallMl.Stream.Basic

/-!
# Standard output

Standard output keeps what is printed until a line ends, and then hands it to a device, which may
have no space for it. The tokens of a source are printed as they are read, each on a line of its
own, comments included. The first one that cannot be read or printed ends the printing.
-/

namespace SmallMl

/-- Whether standard output takes what is printed or has no space for anything. -/
inductive OutputDevice where
  | working | full
  deriving DecidableEq, Repr

/-- Why not all tokens of a source are printed. -/
inductive PrintError where
  | lexical (error : LexicalError)
  /-- The device has no space. -/
  | output
  deriving DecidableEq, Repr

/-- Standard output: the device behind it, what the device has taken, and what is kept for it. -/
structure Output where
  device : OutputDevice
  taken : String := ""
  kept : String := ""
  deriving DecidableEq, Repr

namespace Output

/-- Standard output after it has handed what it keeps to the device; `none` if the device does not
take it. A device is not asked to take nothing. -/
def flush (out : Output) : Option Output :=
  if out.kept = "" then some out
  else
    match out.device with
    | .working => some { device := out.device, taken := out.taken ++ out.kept }
    | .full => none

/-- Standard output after a line has been printed, which the end of the line hands to the device. -/
def printLine (out : Output) (line : String) : Option Output :=
  { out with kept := out.kept ++ line ++ "\n" }.flush

/-- Prints the tokens of a stream, `count` of which have been printed before. Returns how many have
been printed in all, or the reason why the printing stopped. -/
def printTokens (out : Output) (count : Nat) (stream : TokenStream) :
    Output × Except PrintError Nat :=
  match _yields : stream.next with
  | (none, _) =>
      match out.flush with
      | some flushed => (flushed, .ok count)
      | none => (out, .error .output)
  | (some (.error error), _) => (out, .error (.lexical error))
  | (some (.token located), after) =>
      match out.printLine located.text with
      | some printed => printed.printTokens (count + 1) after
      | none => (out, .error .output)
termination_by stream.remaining
decreasing_by exact TokenStream.remaining_next _yields

end Output

end SmallMl
