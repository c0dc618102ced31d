import SmallMl.Source.Span

/-!
# Line tables

A line table holds the byte offset at which each line of a text starts, and turns offsets into
positions by binary search. Only a line feed ends a line, so a carriage return before it belongs to
the line that it ends.
-/

namespace SmallMl

/-- The number of bytes that the characters take in UTF-8. -/
def byteLength (text : List Char) : Nat :=
  text.foldr (fun c length => c.utf8Size + length) 0

@[simp]
theorem byteLength_nil : byteLength [] = 0 := rfl

@[simp]
theorem byteLength_cons (c : Char) (text : List Char) :
    byteLength (c :: text) = c.utf8Size + byteLength text := rfl

@[simp]
theorem byteLength_append (left right : List Char) :
    byteLength (left ++ right) = byteLength left + byteLength right := by
  induction left with
  | nil => simp
  | cons c left ih => simp [ih, Nat.add_assoc]

/-- The byte offsets at which the lines of a text start. The first line starts at zero. -/
structure LineTable where
  starts : Array Nat
  first_start : starts[0]? = some 0
  deriving DecidableEq, Repr

namespace LineTable

/-- The offsets just past each line feed of a text that itself begins at `offset`. -/
def startsAfter (offset : Nat) : List Char → List Nat
  | [] => []
  | c :: rest =>
      if c = '\n' then (offset + c.utf8Size) :: startsAfter (offset + c.utf8Size) rest
      else startsAfter (offset + c.utf8Size) rest

/-- The line table of a text. -/
def ofText (text : List Char) : LineTable where
  starts := (0 :: startsAfter 0 text).toArray
  first_start := by simp

/-- The least index from `low` up to `high` whose line starts beyond `offset`, or `high` if there is
none. Halves the range at each step, which is right because the starts increase. -/
def firstBeyond (starts : Array Nat) (offset low high : Nat) : Nat :=
  if low < high then
    let middle := (low + high) / 2
    if starts.getD middle 0 ≤ offset then firstBeyond starts offset (middle + 1) high
    else firstBeyond starts offset low middle
  else low
termination_by high - low

/-- The number of lines that start at `offset` or before it. -/
def linesUpTo (table : LineTable) (offset : Nat) : Nat :=
  firstBeyond table.starts offset 0 table.starts.size

/-- The offset at which the line with the given number starts; lines count from one. -/
def start (table : LineTable) (line : Nat) : Nat :=
  table.starts.getD (line - 1) 0

/-- The position of a byte offset: the last line that starts at or before it, and the distance from
that line's start. -/
def position (table : LineTable) (offset : Nat) : Position where
  line := table.linesUpTo offset
  column := offset - table.start (table.linesUpTo offset) + 1

/-- The span between two byte offsets. -/
def span (table : LineTable) (first beyond : Nat) : Span where
  start := table.position first
  stop := table.position beyond

end LineTable

end SmallMl
