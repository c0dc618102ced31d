import SmallMl.Code.Program

/-!
# Calling conventions

How each call of a program is made. A primitive of the runtime stays one. Any other callee is looked
up among the closures first and the functions next; a callee found in neither table is a variable
that holds a function, and such values are closures.
-/

namespace SmallMl

namespace Program

/-- The kind of a call in a program. Whatever kind it had before counts only if it is external. -/
def kindOf (program : Program) (call : Call) : CallKind :=
  if call.kind = .external then .external
  else if call.callee ∈ program.closures then .closure
  else if call.callee ∈ program.functions then .known
  else .closure

/-- The call with its kind in a program. -/
def classify (program : Program) (call : Call) : Call :=
  { call with kind := program.kindOf call }

end Program

end SmallMl
