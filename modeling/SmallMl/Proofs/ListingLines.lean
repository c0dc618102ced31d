import SmallMl.Proofs.Phrases

/-!
# The lines of a listing

A listing is a sequence of lines, each with the number of blocks around it. Main statement: when
every line says something that does not start with a space and holds no line feed, the text of the
lines determines them.
-/

namespace SmallMl

/-- A line of a listing: how many blocks are around it, and what it says. -/
@[ext]
structure Line where
  depth : Nat
  content : String
  deriving DecidableEq, Repr

namespace Line

/-- The line as it is written. -/
def text (line : Line) : String :=
  listingLine line.depth line.content

/-- The line says something that does not start with a space and holds no line feed. -/
structure Clear (line : Line) : Prop where
  flush : ' ' ∉ line.content.toList.head?
  whole : '\n' ∉ line.content.toList

theorem toList_text (line : Line) :
    line.text.toList =
      (List.replicate (2 * line.depth) ' ' ++ line.content.toList) ++ ['\n'] := by
  simp [text, listingLine]

end Line

/-- Spaces before a text that starts with none are counted by their number. -/
theorem indentation_inj {m n : Nat} {first second : List Char} (one : ' ' ∉ first.head?)
    (two : ' ' ∉ second.head?)
    (same : List.replicate m ' ' ++ first = List.replicate n ' ' ++ second) :
    m = n ∧ first = second := by
  induction m generalizing n with
  | zero =>
      cases n with
      | zero => exact ⟨rfl, same⟩
      | succ n =>
          rw [List.replicate_zero, List.nil_append] at same
          exact absurd (same ▸ rfl) one
  | succ m ih =>
      cases n with
      | zero =>
          rw [List.replicate_zero, List.nil_append] at same
          exact absurd (same ▸ rfl) two
      | succ n =>
          obtain ⟨rfl, texts⟩ := ih (List.tail_eq_of_cons_eq same)
          exact ⟨rfl, texts⟩

namespace Line

/-- A phrase that starts with a word and holds no line feed is a clear line. -/
theorem clear_phrase {word : String} {rest : List String} (depth : Nat)
    (nonempty : word.toList ≠ []) (spaceless : Spaceless word)
    (whole : '\n' ∉ (phrase (word :: rest)).toList) :
    Clear ⟨depth, phrase (word :: rest)⟩ := by
  have front : (phrase (word :: rest)).toList.head? = word.toList.head? := by
    cases rest with
    | nil => rw [phrase_singleton]
    | cons next rest =>
        obtain ⟨c, others, letters⟩ := List.exists_cons_of_ne_nil nonempty
        rw [toList_phrase_cons_cons, letters]
        rfl
  refine ⟨fun space => ?_, whole⟩
  rw [front] at space
  exact spaceless (List.mem_of_mem_head? space)

/-- A clear line is found again at the front of a text. -/
theorem text_append_inj {first second : Line} (one : first.Clear) (two : second.Clear)
    {rest other : List Char} (same : first.text.toList ++ rest = second.text.toList ++ other) :
    first = second ∧ rest = other := by
  have free : ∀ line : Line, line.Clear →
      '\n' ∉ List.replicate (2 * line.depth) ' ' ++ line.content.toList := by
    intro line clear member
    rcases List.mem_append.mp member with space | inside
    · exact absurd (List.eq_of_mem_replicate space) (by decide)
    · exact clear.whole inside
  rw [toList_text, toList_text, List.append_assoc, List.append_assoc _ ['\n'] other] at same
  obtain ⟨lines, rests⟩ := append_cons_inj (free first one) (free second two) same
  obtain ⟨depths, contents⟩ := indentation_inj one.flush two.flush lines
  have levels : first.depth = second.depth := Nat.eq_of_mul_eq_mul_left (by decide) depths
  exact ⟨Line.ext levels (String.toList_inj.mp contents), rests⟩

end Line

/-- Lines that follow one another. -/
def written (lines : List Line) : String :=
  String.join (lines.map Line.text)

@[simp]
theorem written_nil : written [] = "" := rfl

@[simp]
theorem written_cons (line : Line) (rest : List Line) :
    written (line :: rest) = listingLine line.depth line.content ++ written rest := by
  simp [written, Line.text]

@[simp]
theorem written_append (first second : List Line) :
    written (first ++ second) = written first ++ written second := by
  simp [written]

/-- Clear lines are determined by their text. -/
theorem written_injective {first second : List Line} (one : ∀ line ∈ first, line.Clear)
    (two : ∀ line ∈ second, line.Clear) (same : written first = written second) :
    first = second := by
  have some_text : ∀ (line : Line) (rest : List Line), written (line :: rest) ≠ "" := by
    intro line rest none
    have texts := congrArg String.toList none
    simp [listingLine] at texts
  induction first generalizing second with
  | nil =>
      cases second with
      | nil => rfl
      | cons line second => exact absurd same.symm (some_text line second)
  | cons line first ih =>
      cases second with
      | nil => exact absurd same (some_text line first)
      | cons other second =>
          rw [List.forall_mem_cons] at one two
          rw [written_cons, written_cons] at same
          have texts := congrArg String.toList same
          rw [String.toList_append, String.toList_append] at texts
          obtain ⟨rfl, rests⟩ := Line.text_append_inj one.1 two.1 texts
          rw [ih one.2 two.2 (String.toList_inj.mp rests)]

/-! ## What the lines say -/

/-- What an instruction is listed as, behind the name that it binds and without the blocks in it. -/
def Value.heading : Value → String
  | .operation computed => computed.listing
  | .call made => made.listing
  | .branch condition _ _ => phrase ["if", condition]
  | .literal parameters _ => phrase ["fun", nameList parameters ++ " \x7b"]

/-- The first line of an instruction. -/
def Instruction.heading (instruction : Instruction) : String :=
  phrase [instruction.ident, "=", instruction.value.heading]

/-- The lines of a block that stands inside `depth` others. -/
def Block.lines (depth : Nat) : Block → List Line
  | done => []
  | compute ident span operation next =>
      ⟨depth, Instruction.heading ⟨ident, .operation operation, span⟩⟩ :: next.lines depth
  | apply ident span call next =>
      ⟨depth, Instruction.heading ⟨ident, .call call, span⟩⟩ :: next.lines depth
  | branch ident span condition onTrue onFalse next =>
      ⟨depth, Instruction.heading ⟨ident, .branch condition onTrue onFalse, span⟩⟩ ::
        (⟨depth, "then \x7b"⟩ :: (onTrue.lines (depth + 1) ++ [⟨depth, "\x7d"⟩]) ++
          (⟨depth, "else \x7b"⟩ :: (onFalse.lines (depth + 1) ++ [⟨depth, "\x7d"⟩])) ++
          next.lines depth)
  | literal ident span parameters body next =>
      ⟨depth, Instruction.heading ⟨ident, .literal parameters body, span⟩⟩ ::
        (body.lines (depth + 1) ++ [⟨depth, "\x7d"⟩] ++ next.lines depth)

theorem Instruction.heading_eq (ident heading : String) :
    phrase [ident, "=", heading] = ident ++ " = " ++ heading := by
  apply String.toList_inj.mp
  simp [phrase]

theorem Block.listing_eq (block : Block) (depth : Nat) :
    block.listing depth = written (block.lines depth) := by
  induction block generalizing depth with
  | done => rfl
  | compute ident span operation next ih =>
      rw [listing, lines, written_cons, ih, Instruction.heading, Instruction.heading_eq]
      rfl
  | apply ident span call next ih =>
      rw [listing, lines, written_cons, ih, Instruction.heading, Instruction.heading_eq]
      rfl
  | branch ident span condition onTrue onFalse next ihTrue ihFalse ih =>
      have first :
          ident ++ " = if " ++ condition = phrase [ident, "=", phrase ["if", condition]] := by
        apply String.toList_inj.mp
        simp [phrase]
      rw [listing, lines, ih, ihTrue, ihFalse, first]
      simp [String.append_assoc, Instruction.heading, Value.heading]
  | literal ident span parameters body next ihBody ih =>
      have first : ident ++ " = fun " ++ nameList parameters ++ " \x7b" =
          phrase [ident, "=", phrase ["fun", nameList parameters ++ " \x7b"]] := by
        apply String.toList_inj.mp
        simp [phrase]
      rw [listing, lines, ih, ihBody, first]
      simp [String.append_assoc, Instruction.heading, Value.heading]

/-- The first line of a function. -/
def Function.heading (function : Function) : String :=
  phrase ["fun", function.name ++ "(" ++ nameList function.parameters ++ ")" ++
    (if function.isRecursive then " rec \x7b" else " \x7b")]

theorem Function.text_eq (function : Function) :
    function.text =
      listingLine 0 function.heading ++ function.body.listing 1 ++ listingLine 0 "\x7d" := by
  have first : "fun " ++ function.name ++ "(" ++ nameList function.parameters ++ ")" ++
      (if function.isRecursive then " rec" else "") ++ " \x7b" = function.heading := by
    apply String.toList_inj.mp
    cases recursive : function.isRecursive <;> simp [phrase, heading, recursive]
  rw [text, first]

/-- The lines of a function, with the empty one behind it. -/
def Function.lines (function : Function) : List Line :=
  ⟨0, function.heading⟩ :: (function.body.lines 1 ++ [⟨0, "\x7d"⟩, ⟨0, ""⟩])

theorem Function.written_lines (function : Function) :
    written function.lines = function.text ++ "\n" := by
  have last : listingLine 0 "" = "\n" := rfl
  rw [text_eq, lines, Block.listing_eq]
  simp [String.append_assoc, last]

/-- The line of a closure. -/
def closureHeading (name : Name) (captured : List Name) : String :=
  phrase ["closure", name, "[" ++ nameList captured ++ "]"]

theorem Program.closureLine_eq (name : Name) (captured : List Name) :
    closureLine name captured = listingLine 0 (closureHeading name captured) := by
  have heading : "closure " ++ name ++ " [" ++ nameList captured ++ "]" =
      closureHeading name captured := by
    apply String.toList_inj.mp
    simp [phrase, closureHeading]
  rw [closureLine, heading]

/-- The closures, one a line. -/
def closureLines (closures : List (Name × List Name)) : List Line :=
  closures.map fun closure => ⟨0, closureHeading closure.1 closure.2⟩

/-- The lines of a program. -/
def Program.lines (program : Program) : List Line :=
  program.functions.values.flatMap Function.lines ++
    (closureLines program.closures.entries ++
      ⟨0, "entry \x7b"⟩ :: (program.entry.lines 1 ++ [⟨0, "\x7d"⟩]))

theorem Program.text_eq (program : Program) : program.text = written program.lines := by
  have functions : ∀ list : List Function,
      String.join (list.map fun function => function.text ++ "\n") =
        written (list.flatMap Function.lines) := by
    intro list
    induction list with
    | nil => rfl
    | cons function rest ih =>
        rw [List.map_cons, String.join_cons, ih, ← Function.written_lines, List.flatMap_cons,
          written_append]
  have closures : ∀ list : List (Name × List Name),
      String.join (list.map fun closure => closureLine closure.1 closure.2) =
        written (closureLines list) := by
    intro list
    induction list with
    | nil => rfl
    | cons closure rest ih =>
        rw [List.map_cons, String.join_cons, ih]
        change _ = written (⟨0, closureHeading closure.1 closure.2⟩ :: closureLines rest)
        rw [written_cons, ← closureLine_eq]
  have parts : program.text =
      String.join (program.functions.values.map fun function => function.text ++ "\n") ++
        String.join (program.closures.entries.map fun closure =>
          closureLine closure.1 closure.2) ++ listingLine 0 "entry \x7b" ++
        program.entry.listing 1 ++ listingLine 0 "\x7d" := rfl
  rw [parts, functions, closures, lines, Block.listing_eq]
  simp [String.append_assoc]

end SmallMl
