import SmallMl.Diagnostic
import SmallMl.Stream.Tokens

/-!
# The compiler

The stages of the compiler that this library holds: the tokens of a source, and the step from a
program with its closures extracted to one whose calls are classified. A classified program is what
code can be generated from.
-/

namespace SmallMl

/-- A program in which each call has its kind and each recursive function is marked. -/
structure ClassifiedProgram where
  program : Program
  census : CallCensus
  deriving DecidableEq, Repr

namespace Compiler

/-- The tokens of a source, without comments. -/
def tokens (source : String) : Except CompileError (List LocatedToken) :=
  (tokenize source).mapError .lexical

/-- Classifies the calls of a program. A failure leaves no program behind. -/
def classified (program : Program) : Except CompileError ClassifiedProgram :=
  let classification := program.classifyCalls
  match classification.outcome with
  | .ok census => .ok ⟨classification.program, census⟩
  | .error literal => .error (.leftover literal)

end Compiler

end SmallMl
