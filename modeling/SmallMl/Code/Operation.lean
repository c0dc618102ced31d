import SmallMl.Numeric.Binary64

/-!
# Operations and calls

What an instruction of the intermediate code computes from earlier bindings, which it names. An
operation has no code inside it. A call is kept apart, because its kind is decided late.
-/

namespace SmallMl

/-- The name of a binding, a function or an external symbol. -/
abbrev Name := String

/-- Operators of one operand; the second negates floats. -/
inductive UnaryOperator where
  | negate | floatNegate | not_
  deriving DecidableEq, Repr

/-- Operators of two operands. -/
inductive BinaryOperator where
  | add | subtract | multiply | divide | modulo
  | floatAdd | floatSubtract | floatMultiply | floatDivide
  | equal | notEqual | less | lessEqual | greater | greaterEqual
  | and_ | or_
  deriving DecidableEq, Repr

/-- A computation without control flow. -/
inductive Operation where
  | unit
  | bool (value : Bool)
  | int (value : Int64)
  | float (value : Binary64)
  | string (value : String)
  | reference (name : Name)
  | externalReference (name : Name)
  | unary (operator : UnaryOperator) (operand : Name)
  | binary (operator : BinaryOperator) (left right : Name)
  | makeClosure (captured : List Name) (function : Name)
  | tuple (elements : List Name)
  | tupleLoad (source : Name) (index : Nat)
  | array (size element : Name)
  | arrayLoad (source index : Name)
  | arrayStore (target index value : Name)
  | arrayLength (source : Name)
  deriving DecidableEq, Repr

/-- How the code of a call is to be generated. -/
inductive CallKind where
  /-- Not decided yet. -/
  | unclassified
  /-- A direct call of a function of the program. -/
  | known
  /-- A call through a closure value. -/
  | closure
  /-- A call of a primitive that the runtime provides. -/
  | external
  deriving DecidableEq, Repr

/-- The application of a callee to arguments. -/
structure Call where
  callee : Name
  arguments : List Name
  kind : CallKind := .unclassified
  deriving DecidableEq, Repr

/-- The call of a primitive of the runtime. -/
def Call.external (callee : Name) (arguments : List Name) : Call where
  callee := callee
  arguments := arguments
  kind := .external

end SmallMl
