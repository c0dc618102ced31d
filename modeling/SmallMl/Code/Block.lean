import SmallMl.Code.Operation
import SmallMl.Source.Span

/-!
# Blocks

A block is a sequence of instructions, each of which binds its result to a name. A branch owns the
two blocks it chooses from, and a function literal owns its body, so blocks nest. The blocks are one
inductive type, in which an instruction stands before the rest of its block; `Block.instructions`
shows a block as a list.
-/

namespace SmallMl

/-- A sequence of instructions, from first to last. -/
inductive Block where
  /-- The end of the block. -/
  | done
  /-- A computation without control flow. -/
  | compute (ident : Name) (span : Span) (operation : Operation) (next : Block)
  /-- A call. -/
  | apply (ident : Name) (span : Span) (call : Call) (next : Block)
  /-- A choice between two blocks. -/
  | branch (ident : Name) (span : Span) (condition : Name) (onTrue onFalse next : Block)
  /-- A function literal. -/
  | literal (ident : Name) (span : Span) (parameters : List Name) (body next : Block)
  deriving DecidableEq, Repr

/-- What a single instruction computes. -/
inductive Value where
  | operation (operation : Operation)
  | call (call : Call)
  | branch (condition : Name) (onTrue onFalse : Block)
  | literal (parameters : List Name) (body : Block)
  deriving DecidableEq, Repr

/-- An instruction: the name it binds, what it computes, and its place in the source. -/
structure Instruction where
  ident : Name
  value : Value
  span : Span := .generated
  deriving DecidableEq, Repr

namespace Block

instance : Inhabited Block := ⟨done⟩

/-- The block with an instruction in front. -/
def cons (instruction : Instruction) (next : Block) : Block :=
  match instruction.value with
  | .operation operation => compute instruction.ident instruction.span operation next
  | .call call => apply instruction.ident instruction.span call next
  | .branch condition onTrue onFalse =>
      branch instruction.ident instruction.span condition onTrue onFalse next
  | .literal parameters body => literal instruction.ident instruction.span parameters body next

/-- The block of a list of instructions. -/
def ofList (instructions : List Instruction) : Block :=
  instructions.foldr cons done

/-- The instructions of the block itself, without those of the blocks inside them. -/
def instructions : Block → List Instruction
  | done => []
  | compute ident span operation next => ⟨ident, .operation operation, span⟩ :: next.instructions
  | apply ident span call next => ⟨ident, .call call, span⟩ :: next.instructions
  | branch ident span condition onTrue onFalse next =>
      ⟨ident, .branch condition onTrue onFalse, span⟩ :: next.instructions
  | literal ident span parameters body next =>
      ⟨ident, .literal parameters body, span⟩ :: next.instructions

/-- The instructions of two blocks, one after the other. -/
def append : Block → Block → Block
  | done, after => after
  | compute ident span operation next, after => compute ident span operation (next.append after)
  | apply ident span call next, after => apply ident span call (next.append after)
  | branch ident span condition onTrue onFalse next, after =>
      branch ident span condition onTrue onFalse (next.append after)
  | literal ident span parameters body next, after =>
      literal ident span parameters body (next.append after)

instance : Append Block := ⟨append⟩

/-- The block with an instruction behind its last one. -/
def push (block : Block) (instruction : Instruction) : Block :=
  block ++ cons instruction done

@[simp]
theorem instructions_cons (instruction : Instruction) (next : Block) :
    (cons instruction next).instructions = instruction :: next.instructions := by
  obtain ⟨ident, value, span⟩ := instruction
  cases value <;> rfl

@[simp]
theorem instructions_ofList (list : List Instruction) : (ofList list).instructions = list := by
  induction list with
  | nil => rfl
  | cons instruction rest ih =>
      change (cons instruction (ofList rest)).instructions = _
      rw [instructions_cons, ih]

@[simp]
theorem ofList_instructions (block : Block) : ofList block.instructions = block := by
  induction block with
  | done => rfl
  | compute _ _ _ _ ih => exact congrArg _ ih
  | apply _ _ _ _ ih => exact congrArg _ ih
  | branch _ _ _ _ _ _ _ _ ih => exact congrArg _ ih
  | literal _ _ _ _ _ _ ih => exact congrArg _ ih

@[simp]
theorem instructions_append (first second : Block) :
    (first ++ second).instructions = first.instructions ++ second.instructions := by
  change (first.append second).instructions = _
  induction first with
  | done => rfl
  | compute _ _ _ _ ih => exact congrArg _ ih
  | apply _ _ _ _ ih => exact congrArg _ ih
  | branch _ _ _ _ _ _ _ _ ih => exact congrArg _ ih
  | literal _ _ _ _ _ _ ih => exact congrArg _ ih

@[simp]
theorem instructions_push (block : Block) (instruction : Instruction) :
    (block.push instruction).instructions = block.instructions ++ [instruction] := by
  simp [push, instructions]

end Block

end SmallMl
