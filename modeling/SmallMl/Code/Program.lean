import SmallMl.Code.Block
import SmallMl.Code.Table

/-!
# Programs

A program after its closures have been extracted: the functions and the closures by name, and the
entry block with the code that belongs to no function. A closure is listed with the names that it
captures.
-/

namespace SmallMl

/-- A function of a program. -/
structure Function where
  name : Name
  parameters : List Name
  body : Block
  /-- Whether the function is known to call itself. -/
  isRecursive : Bool := false
  span : Span := .generated
  deriving DecidableEq, Repr

/-- A whole program. The name under which a function is stored may differ from its own. -/
structure Program where
  functions : Table Function := ∅
  closures : Table (List Name) := ∅
  entry : Block := .done
  deriving DecidableEq, Repr

namespace Program

instance : Inhabited Program := ⟨{}⟩

/-- The program that has an entry block only. -/
def ofEntry (entry : Block) : Program :=
  { entry }

/-- Stores a function under a name, in the place of an earlier function of that name. -/
def insertFunction (program : Program) (key : Name) (function : Function) : Program :=
  { program with functions := program.functions.insert key function }

/-- Stores a function under its own name. -/
def addFunction (program : Program) (function : Function) : Program :=
  program.insertFunction function.name function

/-- Records a closure with the names it captures. -/
def addClosure (program : Program) (name : Name) (captured : List Name) : Program :=
  { program with closures := program.closures.insert name captured }

/-- Appends an instruction to the entry block. -/
def pushEntry (program : Program) (instruction : Instruction) : Program :=
  { program with entry := program.entry.push instruction }

/-- Appends an instruction to the body of the function stored under a name. -/
def pushTo? (program : Program) (key : Name) (instruction : Instruction) : Option Program :=
  (program.functions.get? key).map fun function =>
    program.insertFunction key { function with body := function.body.push instruction }

/-- The function stored under a name. -/
def function? (program : Program) (name : Name) : Option Function :=
  program.functions.get? name

/-- Whether a function is stored under the name. -/
def isFunction (program : Program) (name : Name) : Bool :=
  name ∈ program.functions

/-- Whether the name is that of a closure. -/
def isClosure (program : Program) (name : Name) : Bool :=
  name ∈ program.closures

/-- The names that a closure captures. -/
def captured? (program : Program) (name : Name) : Option (List Name) :=
  program.closures.get? name

end Program

end SmallMl
