/-!
# Spans of source text

A position is a line and a column, both counted from one; columns count bytes. A span runs from its
first position to the one just past its end. Code that no source text stands for carries the
generated span, whose four numbers are zero.
-/

namespace SmallMl

/-- A line and a byte column of a source text. -/
structure Position where
  line : Nat
  column : Nat
  deriving DecidableEq, Repr

/-- A region of source text; `stop` is the position just past its last byte. -/
structure Span where
  start : Position
  stop : Position
  deriving DecidableEq, Repr

namespace Position

/-- Line and column, separated by a colon. -/
def text (position : Position) : String :=
  toString position.line ++ ":" ++ toString position.column

end Position

namespace Span

/-- The span of code that no source text stands for. -/
def generated : Span where
  start := ⟨0, 0⟩
  stop := ⟨0, 0⟩

instance : Inhabited Span := ⟨generated⟩

/-- Whether the span marks code without a place in the source. -/
def isGenerated (span : Span) : Bool :=
  span == generated

/-- The two positions, separated by a hyphen. -/
def text (span : Span) : String :=
  span.start.text ++ "-" ++ span.stop.text

instance : ToString Span := ⟨text⟩

theorem isGenerated_iff {span : Span} : span.isGenerated = true ↔ span = generated := by
  simp [isGenerated]

end Span

end SmallMl
