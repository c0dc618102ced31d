import SmallMl.Calls.Classification
import SmallMl.Stream.Error

/-!
# Diagnostics

Why a compilation has failed. A lexical error is a fault of the source; a function literal left in a
block is a fault of the compiler itself, and its message says so.
-/

namespace SmallMl

/-- What the literal is and where it has been left. -/
def LeftoverLiteral.message (leftover : LeftoverLiteral) : String :=
  let place := match leftover.owner with
    | some name => "the body of \x60" ++ name ++ "\x60"
    | none => "the entry block"
  "function literal \x60" ++ leftover.ident ++ "\x60 at " ++ leftover.span.text ++
    " was left inside " ++ place

/-- The reason why a compilation has failed. -/
inductive CompileError where
  | lexical (error : LexicalError)
  | leftover (literal : LeftoverLiteral)
  deriving DecidableEq, Repr

namespace CompileError

/-- Whether the compiler is at fault and not the source. -/
def isInternal : CompileError → Bool
  | lexical _ => false
  | leftover _ => true

/-- The message for the user of the compiler. -/
def message : CompileError → String
  | lexical error => error.message
  | leftover literal => "internal compiler error: " ++ literal.message

instance : ToString CompileError := ⟨message⟩

end CompileError

end SmallMl
