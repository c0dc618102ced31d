import SmallMl.Proofs.Unambiguous

/-!
# Blocks are listed further to the right

A block inside others is listed as it is by itself, further to the right. Main statement: if no name
in a block holds a line feed, its listing inside other blocks is its own text with two spaces for
each of them in front of every line, and so is the part of it in the listings of functions and
programs.
-/

namespace SmallMl

/-- The lines of a text, each with that many spaces in front of it. -/
def indented (width : Nat) (text : String) : String :=
  String.join ((textLines text).map fun line =>
    String.ofList (List.replicate width ' ') ++ line ++ "\n")

/-- Every line of the text says something, and one line feed ends it. -/
structure IsLined (text : String) : Prop where
  ended : String.join ((textLines text).map (· ++ "\n")) = text
  filled : "" ∉ textLines text

/-! ## Lines further to the right -/

namespace Line

/-- What the line holds before its line feed. -/
def row (line : Line) : String :=
  String.ofList (List.replicate (2 * line.depth) ' ') ++ line.content

/-- The line inside that many more blocks. -/
def deeper (more : Nat) (line : Line) : Line :=
  { line with depth := line.depth + more }

/-- The line says something and holds no line feed. -/
structure Single (line : Line) : Prop where
  filled : line.content ≠ ""
  whole : '\n' ∉ line.content.toList

theorem row_deeper (more : Nat) (line : Line) :
    (line.deeper more).row = String.ofList (List.replicate (2 * more) ' ') ++ line.row := by
  apply String.toList_inj.mp
  simp only [row, deeper, String.toList_append, String.toList_ofList, ← List.append_assoc,
    List.replicate_append_replicate]
  rw [Nat.mul_add, Nat.add_comm]

namespace Single

variable {line : Line}

theorem row_ne_empty (single : line.Single) : line.row ≠ "" := by
  intro empty
  rw [row, String.append_eq_empty_iff] at empty
  exact single.filled empty.2

theorem lineFeed_not_mem_row (single : line.Single) : '\n' ∉ line.row.toList := by
  intro member
  rw [row, String.toList_append, String.toList_ofList, List.mem_append] at member
  rcases member with space | inside
  · exact absurd (List.eq_of_mem_replicate space) (by decide)
  · exact single.whole inside

end Single

end Line

theorem written_eq_join_rows (lines : List Line) :
    written lines = String.join ((lines.map Line.row).map (· ++ "\n")) := by
  rw [written, List.map_map]
  rfl

section Written

variable {lines : List Line} (single : ∀ line ∈ lines, line.Single)

include single

theorem textLines_written : textLines (written lines) = lines.map Line.row := by
  rw [written_eq_join_rows]
  apply textLines_join
  intro row member
  obtain ⟨line, inside, rfl⟩ := List.mem_map.mp member
  exact (single line inside).lineFeed_not_mem_row

theorem isLined_written : IsLined (written lines) where
  ended := by rw [textLines_written single, written_eq_join_rows]
  filled := by
    rw [textLines_written single]
    intro member
    obtain ⟨line, inside, empty⟩ := List.mem_map.mp member
    exact (single line inside).row_ne_empty empty

theorem written_deeper (more : Nat) :
    written (lines.map (Line.deeper more)) = indented (2 * more) (written lines) := by
  rw [indented, textLines_written single, written_eq_join_rows]
  simp only [List.map_map]
  congr 1
  apply List.map_congr_left
  intro line inside
  exact congrArg (· ++ "\n") (Line.row_deeper more line)

end Written

/-! ## Blocks -/

namespace Block

/-- Inside more blocks, a block has the same lines, deeper. The induction is on the block, for all
depths: the blocks in an instruction stand one deeper than the instruction. -/
theorem lines_add (block : Block) (depth more : Nat) :
    block.lines (depth + more) = (block.lines depth).map (Line.deeper more) := by
  induction block generalizing depth with
  | done => rfl
  | compute ident span operation next ih =>
      rw [lines, lines, List.map_cons, ih]
      rfl
  | apply ident span call next ih =>
      rw [lines, lines, List.map_cons, ih]
      rfl
  | branch ident span condition onTrue onFalse next ihTrue ihFalse ih =>
      have inner : depth + more + 1 = depth + 1 + more := Nat.add_right_comm depth more 1
      rw [lines, lines, ih, inner, ihTrue, ihFalse]
      simp only [List.map_cons, List.map_append, List.map_nil]
      rfl
  | literal ident span parameters body next ihBody ih =>
      have inner : depth + more + 1 = depth + 1 + more := Nat.add_right_comm depth more 1
      rw [lines, lines, ih, inner, ihBody]
      simp only [List.map_cons, List.map_append, List.map_nil]
      rfl

theorem single_lines {block : Block} (unbroken : ∀ name ∈ block.names, '\n' ∉ name.toList)
    (depth : Nat) : ∀ line ∈ block.lines depth, line.Single := by
  refine forall_mem_lines ?_ ?_ unbroken depth
  · intro instruction depth names
    have whole := instruction.lineFeed_not_mem_heading names
    refine ⟨?_, whole⟩
    show phrase [instruction.ident, "=", instruction.value.heading] ≠ ""
    rw [Instruction.heading_eq]
    simp
  · intro content mark depth
    have single := (by decide : ∀ content ∈ ["then \x7b", "else \x7b", "\x7d"],
      content ≠ "" ∧ '\n' ∉ content.toList) content mark
    exact ⟨single.1, single.2⟩

theorem listing_eq_indented {block : Block}
    (unbroken : ∀ name ∈ block.names, '\n' ∉ name.toList) (depth : Nat) :
    block.listing depth = indented (2 * depth) block.text := by
  have deeper := lines_add block 0 depth
  rw [Nat.zero_add] at deeper
  rw [text, listing_eq, listing_eq, deeper, written_deeper (single_lines unbroken 0)]

/-- If no name in a block holds a line feed, the block is listed inside others as by itself, with
two spaces for each of them in front of every line, and one line feed ends every line. Between the
first line and the closing brace of a function stands the text of its body, and in the entry section
of a program that of its entry block, both with two spaces in front of every line. -/
theorem listings_nest_by_indentation {block : Block}
    (unbroken : ∀ name ∈ block.names, '\n' ∉ name.toList) :
    (∀ depth, block.listing depth = indented (2 * depth) block.text ∧
        IsLined (block.listing depth)) ∧
      (∀ function : Function, function.body = block →
        function.text = function.heading ++ "\n" ++ indented 2 block.text ++ "\x7d\n" ∧
          ((∀ name ∈ function.name :: function.parameters, '\n' ∉ name.toList) →
            '\n' ∉ function.heading.toList)) ∧
      ∀ program : Program, program.entry = block →
        program.text =
          String.join (program.functions.values.map fun function => function.text ++ "\n") ++
            String.join (program.closures.entries.map fun (name, captured) =>
              Program.closureLine name captured) ++
            "entry \x7b\n" ++ indented 2 block.text ++ "\x7d\n" := by
  have flush : ∀ content, listingLine 0 content = content ++ "\n" := by
    intro content
    exact congrArg (· ++ "\n") String.empty_append
  have once : block.listing 1 = indented 2 block.text := listing_eq_indented unbroken 1
  refine ⟨fun depth => ⟨listing_eq_indented unbroken depth, ?_⟩, ?_, ?_⟩
  · rw [listing_eq]
    exact isLined_written (single_lines unbroken depth)
  · intro function body
    refine ⟨?_, Function.lineFeed_not_mem_heading⟩
    rw [Function.text_eq, body, once, flush, flush]
    rfl
  · intro program entry
    rw [Program.text, entry, once, flush, flush]
    rfl

/-- A branch with a literal in it and a call behind it; some names in them look like the lines
around blocks. -/
def disguisedBlock : Block :=
  .branch "\x7d" .generated "then \x7b"
    (.literal "" .generated ["a b", "else \x7b"]
      (.compute "s" .generated (.string "\x7d\n") .done) .done)
    .done (.apply "r" .generated ⟨"f", ["\x7d"], .known⟩ .done)

theorem listings_of_disguisedBlock_nest :
    let function : Function := { name := "f", parameters := ["x"], body := disguisedBlock }
    (∀ name ∈ disguisedBlock.names, '\n' ∉ name.toList) ∧
      disguisedBlock.listing 2 = indented 4 disguisedBlock.text ∧
      function.text = "fun f(x) \x7b\n" ++ indented 2 disguisedBlock.text ++ "\x7d\n" ∧
      '\n' ∉ function.heading.toList ∧
      (Program.ofEntry disguisedBlock).text =
        "entry \x7b\n" ++ indented 2 disguisedBlock.text ++ "\x7d\n" := by
  intro function
  have unbroken : ∀ name ∈ disguisedBlock.names, '\n' ∉ name.toList := by decide
  obtain ⟨inside, functions, programs⟩ := listings_nest_by_indentation unbroken
  obtain ⟨text, heading⟩ := functions function rfl
  exact ⟨unbroken, (inside 2).1, text, heading (by decide), programs (.ofEntry disguisedBlock) rfl⟩

/-- A name that holds a line feed goes on at the left. -/
example : (compute "a\nb" .generated .unit done).listing 1 ≠
    indented 2 (compute "a\nb" .generated .unit done).text := by
  decide +kernel

end Block

end SmallMl
