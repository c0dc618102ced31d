import SmallMl.Code.Block

/-!
# Walks over blocks

A walk goes through a block from first to last and changes each call on its way; at a branch it goes
through the block for true, then through the one for false. It stops at the first function literal,
in whatever block that stands, and leaves all that follows as it was.
-/

namespace SmallMl

/-- A call and the name that its result is bound to. -/
structure CallSite where
  ident : Name
  call : Call
  deriving DecidableEq, Repr

/-- A function literal: the name it is bound to and its place in the source. -/
structure LiteralSite where
  ident : Name
  span : Span
  deriving DecidableEq, Repr

/-- What a walk leaves behind: the block, the calls it has reached, as they are now, and the literal
that stopped it. -/
structure Walk where
  block : Block
  calls : List CallSite
  stop : Option LiteralSite
  deriving DecidableEq, Repr

namespace Walk

/-- The walk that goes on with a block unless it has stopped before. -/
def unlessStopped (stop : Option LiteralSite) (block : Block) (onward : Unit → Walk) : Walk :=
  match stop with
  | some site => ⟨block, [], some site⟩
  | none => onward ()

end Walk

/-- Walks over a block and changes each call on the way. -/
def Block.walk (change : Call → Call) : Block → Walk
  | done => ⟨done, [], none⟩
  | compute ident span operation next =>
      let after := next.walk change
      ⟨compute ident span operation after.block, after.calls, after.stop⟩
  | apply ident span call next =>
      let after := next.walk change
      ⟨apply ident span (change call) after.block, ⟨ident, change call⟩ :: after.calls, after.stop⟩
  | branch ident span condition onTrue onFalse next =>
      let first := onTrue.walk change
      let second := Walk.unlessStopped first.stop onFalse fun _ => onFalse.walk change
      let after := Walk.unlessStopped second.stop next fun _ => next.walk change
      ⟨branch ident span condition first.block second.block after.block,
        first.calls ++ second.calls ++ after.calls, after.stop⟩
  | literal ident span parameters body next =>
      ⟨literal ident span parameters body next, [], some ⟨ident, span⟩⟩

end SmallMl
