import SmallMl.Proofs.Headings
import SmallMl.Proofs.Places

/-!
# Listings are unambiguous

A listing shows everything of a program but the spans and the payloads of floats that are no number.
Main statement: two programs whose names are plain, and whose functions are stored under their own
names, have one listing exactly if they are the same apart from that.
-/

namespace SmallMl

/-! ## What a listing does not show -/

namespace Block

/-- The block without spans, and with one value in place of all floats that are no number. -/
def bare : Block → Block
  | done => done
  | compute ident _ operation next => compute ident .generated operation.canonical next.bare
  | apply ident _ call next => apply ident .generated call next.bare
  | branch ident _ condition onTrue onFalse next =>
      branch ident .generated condition onTrue.bare onFalse.bare next.bare
  | literal ident _ parameters body next =>
      literal ident .generated parameters body.bare next.bare

/-- The names in a block, those of the blocks inside it among them. -/
def names : Block → List Name
  | done => []
  | compute ident _ operation next => ident :: operation.names ++ next.names
  | apply ident _ call next => ident :: call.callee :: call.arguments ++ next.names
  | branch ident _ condition onTrue onFalse next =>
      ident :: condition :: onTrue.names ++ onFalse.names ++ next.names
  | literal ident _ parameters body next => ident :: parameters ++ body.names ++ next.names

end Block

namespace Function

/-- The function without spans, and with one value in place of all floats that are no number. -/
def bare (function : Function) : Function :=
  { function with body := function.body.bare, span := .generated }

/-- The names in a function. -/
def names (function : Function) : List Name :=
  function.name :: function.parameters ++ function.body.names

end Function

namespace Program

/-- The program without spans, and with one value in place of all floats that are no number. -/
def bare (program : Program) : Program where
  functions := program.functions.mapEntries fun _ _ => Function.bare
  closures := program.closures
  entry := program.entry.bare

/-- The names in a program. -/
def names (program : Program) : List Name :=
  program.functions.entries.flatMap (fun (key, function) => key :: function.names) ++
    program.closures.entries.flatMap (fun (name, captured) => name :: captured) ++
    program.entry.names

/-- Every function is stored under its own name, and all names are plain. -/
structure WellNamed (program : Program) : Prop where
  own : ∀ entry ∈ program.functions.entries, entry.2.name = entry.1
  plain : ∀ name ∈ program.names, IsPlain name

namespace WellNamed

variable {program : Program}

theorem functions (named : program.WellNamed) :
    ∀ function ∈ program.functions.values, ∀ name ∈ function.names, IsPlain name := by
  intro function inside name occurs
  obtain ⟨entry, stored, rfl⟩ := List.mem_map.mp inside
  apply named.plain
  rw [names, List.mem_append, List.mem_append]
  exact .inl (.inl (List.mem_flatMap.mpr ⟨entry, stored, List.mem_cons_of_mem _ occurs⟩))

theorem closures (named : program.WellNamed) :
    ∀ closure ∈ program.closures.entries, ∀ name ∈ closure.1 :: closure.2, IsPlain name := by
  intro closure stored name occurs
  apply named.plain
  rw [names, List.mem_append, List.mem_append]
  exact .inl (.inr (List.mem_flatMap.mpr ⟨closure, stored, occurs⟩))

theorem entry (named : program.WellNamed) : ∀ name ∈ program.entry.names, IsPlain name :=
  fun name occurs => named.plain name (List.mem_append_right _ occurs)

end WellNamed

end Program

/-! ## Clear lines -/

theorem clear_of {content : String} (clear : ' ' ∉ content.toList.head? ∧ '\n' ∉ content.toList)
    (depth : Nat) : Line.Clear ⟨depth, content⟩ :=
  ⟨clear.1, clear.2⟩

/-- What holds of the headings of instructions with good names, and of the lines around the blocks
in them, holds of all lines of a block with good names. -/
theorem Block.forall_mem_lines {good : Name → Prop} {holds : Line → Prop}
    (heading : ∀ (instruction : Instruction) (depth : Nat),
      (∀ name ∈ instruction.names, good name) → holds ⟨depth, instruction.heading⟩)
    (mark : ∀ content ∈ ["then \x7b", "else \x7b", "\x7d"], ∀ depth, holds ⟨depth, content⟩)
    {block : Block} (names : ∀ name ∈ block.names, good name) (depth : Nat) :
    ∀ line ∈ block.lines depth, holds line := by
  rw [List.forall_mem_cons, List.forall_mem_cons, List.forall_mem_singleton] at mark
  obtain ⟨thenMark, elseMark, closing⟩ := mark
  induction block generalizing depth with
  | done => exact fun line member => absurd member List.not_mem_nil
  | compute ident span operation next ih =>
      rw [Block.names, List.forall_mem_append] at names
      rw [lines, List.forall_mem_cons]
      exact ⟨heading ⟨ident, .operation operation, span⟩ depth names.1, ih names.2 depth⟩
  | apply ident span call next ih =>
      rw [Block.names, List.forall_mem_append] at names
      rw [lines, List.forall_mem_cons]
      exact ⟨heading ⟨ident, .call call, span⟩ depth names.1, ih names.2 depth⟩
  | branch ident span condition onTrue onFalse next ihTrue ihFalse ih =>
      simp only [Block.names, List.forall_mem_append, List.forall_mem_cons] at names
      obtain ⟨⟨⟨identGood, conditionGood, trueGood⟩, falseGood⟩, nextGood⟩ := names
      have first := heading ⟨ident, .branch condition onTrue onFalse, span⟩ depth
        (by simp [Instruction.names, Value.names, identGood, conditionGood])
      simp only [lines, List.forall_mem_cons, List.forall_mem_append, List.not_mem_nil,
        false_implies, implies_true, and_true]
      exact ⟨first, ⟨⟨thenMark depth, ihTrue trueGood (depth + 1), closing depth⟩, elseMark depth,
        ihFalse falseGood (depth + 1), closing depth⟩, ih nextGood depth⟩
  | literal ident span parameters body next ihBody ih =>
      rw [Block.names, List.forall_mem_append, List.forall_mem_append] at names
      have first := heading ⟨ident, .literal parameters body, span⟩ depth names.1.1
      simp only [lines, List.forall_mem_cons, List.forall_mem_append, List.not_mem_nil,
        false_implies, implies_true, and_true]
      exact ⟨first, ⟨ihBody names.1.2 (depth + 1), closing depth⟩, ih names.2 depth⟩

theorem Block.clear_lines {block : Block} (plain : ∀ name ∈ block.names, IsPlain name)
    (depth : Nat) : ∀ line ∈ block.lines depth, line.Clear := by
  apply forall_mem_lines (fun _ depth plain => Instruction.clear_heading plain depth) _ plain
  intro content mark
  have clear := (by decide : ∀ content ∈ ["then \x7b", "else \x7b", "\x7d"],
    ' ' ∉ content.toList.head? ∧ '\n' ∉ content.toList) content mark
  exact clear_of clear

theorem Function.lineFeed_not_mem_heading {function : Function}
    (unbroken : ∀ name ∈ function.name :: function.parameters, '\n' ∉ name.toList) :
    '\n' ∉ function.heading.toList := by
  rw [List.forall_mem_cons] at unbroken
  have name := unbroken.1
  have parameters : '\n' ∉ (nameList function.parameters).toList :=
    not_mem_nameList unbroken.2 (by decide)
  apply not_mem_phrase (by decide)
  rw [List.forall_mem_cons, List.forall_mem_singleton]
  refine ⟨by decide, ?_⟩
  cases function.isRecursive <;> simp [name, parameters]

theorem Function.clear_lines {function : Function}
    (plain : ∀ name ∈ function.names, IsPlain name) : ∀ line ∈ function.lines, line.Clear := by
  rw [names, List.forall_mem_append] at plain
  have heading : Line.Clear ⟨0, function.heading⟩ :=
    Line.clear_phrase 0 (by decide) (by decide)
      (lineFeed_not_mem_heading (not_mem_of_plain plain.1 (by decide)))
  simp only [lines, List.forall_mem_cons, List.forall_mem_append, List.not_mem_nil,
    false_implies, implies_true, and_true]
  exact ⟨heading, Block.clear_lines plain.2 1, clear_of (by decide) 0, clear_of (by decide) 0⟩

theorem clear_closureHeading {name : Name} {captured : List Name}
    (plain : ∀ other ∈ name :: captured, IsPlain other) :
    Line.Clear ⟨0, closureHeading name captured⟩ := by
  rw [List.forall_mem_cons] at plain
  have names : '\n' ∉ (nameList captured).toList :=
    not_mem_nameList (not_mem_of_plain plain.2 (by decide)) (by decide)
  apply Line.clear_phrase 0 (by decide) (by decide)
  apply not_mem_phrase (by decide)
  rw [List.forall_mem_cons, List.forall_mem_cons, List.forall_mem_singleton]
  exact ⟨by decide, plain.1.not_mem (by decide), by simp [names]⟩

theorem Program.clear_lines {program : Program} (named : program.WellNamed) :
    ∀ line ∈ program.lines, line.Clear := by
  simp only [lines, List.forall_mem_append, List.forall_mem_cons, List.not_mem_nil,
    false_implies, implies_true, and_true]
  refine ⟨?_, ?_, clear_of (by decide) 0, Block.clear_lines named.entry 1,
    clear_of (by decide) 0⟩
  · intro line member
    obtain ⟨function, inside, here⟩ := List.mem_flatMap.mp member
    exact Function.clear_lines (named.functions function inside) line here
  · intro line member
    obtain ⟨closure, stored, rfl⟩ := List.mem_map.mp member
    exact clear_closureHeading (named.closures closure stored)

/-! ## Blocks -/

/-- The lines of the blocks in a value that stands inside `depth` others. -/
def Value.lines (depth : Nat) : Value → List Line
  | .operation _ => []
  | .call _ => []
  | .branch _ onTrue onFalse =>
      (⟨depth, "then \x7b"⟩ :: (onTrue.lines (depth + 1) ++ [⟨depth, "\x7d"⟩])) ++
        (⟨depth, "else \x7b"⟩ :: (onFalse.lines (depth + 1) ++ [⟨depth, "\x7d"⟩]))
  | .literal _ body => body.lines (depth + 1) ++ [⟨depth, "\x7d"⟩]

namespace Block

theorem lines_cons (instruction : Instruction) (next : Block) (depth : Nat) :
    (cons instruction next).lines depth =
      ⟨depth, instruction.heading⟩ :: (instruction.value.lines depth ++ next.lines depth) := by
  obtain ⟨ident, value, span⟩ := instruction
  cases value <;> rfl

theorem eq_done_or_cons (block : Block) :
    block = done ∨ ∃ instruction next, block = cons instruction next := by
  rw [← ofList_instructions block]
  cases block.instructions with
  | nil => exact .inl rfl
  | cons instruction rest => exact .inr ⟨instruction, ofList rest, rfl⟩

/-- The names in the heading of an instruction are among those of a block that starts with it. -/
theorem names_subset_cons (instruction : Instruction) (next : Block) :
    instruction.names ⊆ (cons instruction next).names := by
  obtain ⟨ident, value, span⟩ := instruction
  cases value with
  | operation operation => exact List.subset_append_left _ _
  | call call => exact List.subset_append_left _ _
  | branch condition onTrue onFalse =>
      intro name member
      exact List.mem_append_left _ (List.mem_append_left _ (List.mem_append_left onTrue.names member))
  | literal parameters body =>
      intro name member
      exact List.mem_append_left _ (List.mem_append_left _ member)

/-- A block whose lines start like those of an instruction starts with one that has the same ident
and differs in its blocks at most. -/
theorem exists_of_lines_cons {instruction : Instruction} {next block : Block}
    (one : ∀ name ∈ (cons instruction next).names, IsPlain name)
    (two : ∀ name ∈ block.names, IsPlain name) {depth : Nat} {rest other : List Line}
    (same : (cons instruction next).lines (depth + 1) ++ ⟨depth, "\x7d"⟩ :: rest =
      block.lines (depth + 1) ++ ⟨depth, "\x7d"⟩ :: other) :
    ∃ instruction' next', block = cons instruction' next' ∧
      instruction.ident = instruction'.ident ∧
      instruction.value.hollow = instruction'.value.hollow ∧
      instruction.value.lines (depth + 1) ++
          (next.lines (depth + 1) ++ ⟨depth, "\x7d"⟩ :: rest) =
        instruction'.value.lines (depth + 1) ++
          (next'.lines (depth + 1) ++ ⟨depth, "\x7d"⟩ :: other) := by
  rw [lines_cons, List.cons_append, List.append_assoc] at same
  rcases block.eq_done_or_cons with rfl | ⟨instruction', next', rfl⟩
  · have depths := congrArg Line.depth (List.head_eq_of_cons_eq same)
    exact absurd depths (Nat.succ_ne_self depth)
  · rw [lines_cons, List.cons_append, List.append_assoc] at same
    obtain ⟨heads, rests⟩ := List.cons.inj same
    obtain ⟨idents, values⟩ := Instruction.heading_inj
      (fun name member => one name (names_subset_cons _ _ member))
      (fun name member => two name (names_subset_cons _ _ member))
      (congrArg Line.content heads)
    exact ⟨instruction', next', rfl, idents, values, rests⟩

/-- A block is found again in front of the line that closes the block around it. The induction is on
the block: each heading tells the form of its instruction, so both blocks go on alike, and the
closing line has one indentation less than any line of the block. -/
theorem bare_of_lines {first second : Block} (one : ∀ name ∈ first.names, IsPlain name)
    (two : ∀ name ∈ second.names, IsPlain name) {depth : Nat} {rest other : List Line}
    (same : first.lines (depth + 1) ++ ⟨depth, "\x7d"⟩ :: rest =
      second.lines (depth + 1) ++ ⟨depth, "\x7d"⟩ :: other) :
    first.bare = second.bare ∧ rest = other := by
  induction first generalizing second depth rest other with
  | done =>
      rcases second.eq_done_or_cons with rfl | ⟨instruction, next, rfl⟩
      · exact ⟨rfl, List.tail_eq_of_cons_eq same⟩
      · rw [lines_cons] at same
        have depths := congrArg Line.depth (List.head_eq_of_cons_eq same)
        exact absurd depths (Nat.succ_ne_self depth).symm
  | compute ident span operation next ih =>
      obtain ⟨⟨ident', value, span'⟩, next', rfl, (rfl : ident = ident'), values, rests⟩ :=
        @exists_of_lines_cons ⟨ident, .operation operation, span⟩ _ _ one two _ _ _ same
      cases value with
      | operation operation' =>
          have operations : operation.canonical = operation'.canonical :=
            Value.operation.inj values
          rw [cons, names, List.forall_mem_append] at two
          rw [names, List.forall_mem_append] at one
          obtain ⟨nexts, tails⟩ := ih one.2 two.2 rests
          exact ⟨by rw [cons, bare, bare, operations, nexts], tails⟩
      | _ => exact absurd values (by simp [Value.hollow])
  | apply ident span call next ih =>
      obtain ⟨⟨ident', value, span'⟩, next', rfl, (rfl : ident = ident'), values, rests⟩ :=
        @exists_of_lines_cons ⟨ident, .call call, span⟩ _ _ one two _ _ _ same
      cases value with
      | call call' =>
          have calls : call = call' := Value.call.inj values
          rw [cons, names, List.forall_mem_append] at two
          rw [names, List.forall_mem_append] at one
          obtain ⟨nexts, tails⟩ := ih one.2 two.2 rests
          exact ⟨by rw [cons, bare, bare, calls, nexts], tails⟩
      | _ => exact absurd values (by simp [Value.hollow])
  | branch ident span condition onTrue onFalse next ihTrue ihFalse ih =>
      obtain ⟨⟨ident', value, span'⟩, next', rfl, (rfl : ident = ident'), values, rests⟩ :=
        @exists_of_lines_cons ⟨ident, .branch condition onTrue onFalse, span⟩ _ _ one two _ _ _ same
      cases value with
      | branch condition' onTrue' onFalse' =>
          have conditions : condition = condition' := (Value.branch.inj values).1
          simp only [names, List.forall_mem_append, List.forall_mem_cons] at one
          simp only [cons, names, List.forall_mem_append, List.forall_mem_cons] at two
          obtain ⟨⟨⟨_, _, trueOne⟩, falseOne⟩, nextOne⟩ := one
          obtain ⟨⟨⟨_, _, trueTwo⟩, falseTwo⟩, nextTwo⟩ := two
          simp only [Value.lines, List.append_assoc, List.cons_append, List.nil_append] at rests
          obtain ⟨trues, behindTrue⟩ := ihTrue trueOne trueTwo (List.tail_eq_of_cons_eq rests)
          obtain ⟨falses, behindFalse⟩ :=
            ihFalse falseOne falseTwo (List.tail_eq_of_cons_eq behindTrue)
          obtain ⟨nexts, tails⟩ := ih nextOne nextTwo behindFalse
          exact ⟨by rw [cons, bare, bare, conditions, trues, falses, nexts], tails⟩
      | _ => exact absurd values (by simp [Value.hollow])
  | literal ident span parameters body next ihBody ih =>
      obtain ⟨⟨ident', value, span'⟩, next', rfl, (rfl : ident = ident'), values, rests⟩ :=
        @exists_of_lines_cons ⟨ident, .literal parameters body, span⟩ _ _ one two _ _ _ same
      cases value with
      | literal parameters' body' =>
          have lists : parameters = parameters' := (Value.literal.inj values).1
          rw [names, List.forall_mem_append, List.forall_mem_append] at one
          rw [cons, names, List.forall_mem_append, List.forall_mem_append] at two
          simp only [Value.lines, List.append_assoc, List.cons_append, List.nil_append] at rests
          obtain ⟨bodies, behindBody⟩ := ihBody one.1.2 two.1.2 rests
          obtain ⟨nexts, tails⟩ := ih one.2 two.2 behindBody
          exact ⟨by rw [cons, bare, bare, lists, bodies, nexts], tails⟩
      | _ => exact absurd values (by simp [Value.hollow])

end Block

/-! ## Functions and programs -/

namespace Function

/-- Functions with plain names and one heading have one name, the same parameters and one flag. -/
theorem heading_inj {first second : Function} (one : ∀ name ∈ first.names, IsPlain name)
    (two : ∀ name ∈ second.names, IsPlain name) (same : first.heading = second.heading) :
    first.name = second.name ∧ first.parameters = second.parameters ∧
      first.isRecursive = second.isRecursive := by
  simp only [names, List.forall_mem_append, List.forall_mem_cons] at one two
  obtain ⟨⟨nameOne, parametersOne⟩, _⟩ := one
  obtain ⟨⟨nameTwo, parametersTwo⟩, _⟩ := two
  have shape : ∀ function : Function,
      (function.name ++ "(" ++ nameList function.parameters ++ ")" ++
        (if function.isRecursive then " rec \x7b" else " \x7b")).toList =
        function.name.toList ++ '(' :: ((nameList function.parameters).toList ++ ')' ::
          (if function.isRecursive then " rec \x7b" else " \x7b").toList) := by
    intro function
    simp
  have texts := congrArg String.toList (phrase_tail_inj same)
  rw [phrase_singleton, phrase_singleton, shape, shape] at texts
  obtain ⟨names, behind⟩ := append_cons_inj (nameOne.not_mem (by decide))
    (nameTwo.not_mem (by decide)) texts
  obtain ⟨lists, marks⟩ := append_cons_inj
    (not_mem_nameList (not_mem_of_plain parametersOne (by decide)) (by decide))
    (not_mem_nameList (not_mem_of_plain parametersTwo (by decide)) (by decide)) behind
  refine ⟨String.toList_inj.mp names,
    nameList_injective parametersOne parametersTwo (String.toList_inj.mp lists), ?_⟩
  cases flag : first.isRecursive <;> cases flag' : second.isRecursive <;>
    first | rfl | exact absurd marks (by rw [flag, flag']; decide)

theorem firstWord_heading (function : Function) : firstWord function.heading = "fun".toList :=
  firstWord_phrase (by decide) _

/-- Functions are found again in front of lines that do not start with one. -/
theorem bare_of_lines {first second : List Function}
    (one : ∀ function ∈ first, ∀ name ∈ function.names, IsPlain name)
    (two : ∀ function ∈ second, ∀ name ∈ function.names, IsPlain name) {rest other : List Line}
    (ends : ∀ line ∈ rest.head?, firstWord line.content ≠ "fun".toList)
    (stops : ∀ line ∈ other.head?, firstWord line.content ≠ "fun".toList)
    (same : first.flatMap lines ++ rest = second.flatMap lines ++ other) :
    first.map bare = second.map bare ∧ rest = other := by
  have foreign : ∀ (function : Function) (tail others : List Line),
      (∀ line ∈ tail.head?, firstWord line.content ≠ "fun".toList) →
        tail ≠ ⟨0, function.heading⟩ :: others := by
    rintro function _ others differs rfl
    exact differs _ rfl function.firstWord_heading
  induction first generalizing second with
  | nil =>
      cases second with
      | nil => exact ⟨rfl, same⟩
      | cons function second => exact absurd same (foreign function rest _ ends)
  | cons function first ih =>
      cases second with
      | nil => exact absurd same.symm (foreign function other _ stops)
      | cons function' second =>
          rw [List.forall_mem_cons] at one two
          simp only [List.flatMap_cons, lines, List.cons_append, List.append_assoc,
            List.nil_append] at same
          obtain ⟨heads, behind⟩ := List.cons.inj same
          obtain ⟨names, lists, flags⟩ := heading_inj one.1 two.1 (congrArg Line.content heads)
          have bodyOne := fun name member => one.1 name (List.mem_append_right _ member)
          have bodyTwo := fun name member => two.1 name (List.mem_append_right _ member)
          obtain ⟨bodies, tails⟩ := Block.bare_of_lines bodyOne bodyTwo behind
          obtain ⟨functions, ending⟩ := ih one.2 two.2 (List.tail_eq_of_cons_eq tails)
          have heads : function.bare = function'.bare := by
            rw [bare, bare, names, lists, bodies, flags]
          exact ⟨by rw [List.map_cons, List.map_cons, heads, functions], ending⟩

end Function

/-- Closures with plain names and one heading are one closure. -/
theorem closureHeading_inj {name other : Name} {captured others : List Name}
    (one : ∀ each ∈ name :: captured, IsPlain each) (two : ∀ each ∈ other :: others, IsPlain each)
    (same : closureHeading name captured = closureHeading other others) :
    name = other ∧ captured = others := by
  rw [List.forall_mem_cons] at one two
  obtain ⟨names, lists⟩ :=
    phrase_cons_inj one.1.spaceless two.1.spaceless (phrase_tail_inj same)
  have texts := congrArg String.toList lists
  simp only [phrase_singleton, String.toList_append] at texts
  have inside := List.append_cancel_right (List.cons.inj texts).2
  exact ⟨names, nameList_injective one.2 two.2 (String.toList_inj.mp inside)⟩

/-- Closures are found again in front of the entry block. -/
theorem eq_of_closureLines {first second : List (Name × List Name)}
    (one : ∀ closure ∈ first, ∀ name ∈ closure.1 :: closure.2, IsPlain name)
    (two : ∀ closure ∈ second, ∀ name ∈ closure.1 :: closure.2, IsPlain name)
    {rest other : List Line}
    (same : closureLines first ++ ⟨0, "entry \x7b"⟩ :: rest =
      closureLines second ++ ⟨0, "entry \x7b"⟩ :: other) :
    first = second ∧ rest = other := by
  have foreign : ∀ closure : Name × List Name,
      "entry \x7b" ≠ closureHeading closure.1 closure.2 := by
    intro closure heads
    have words := congrArg firstWord heads
    rw [closureHeading, firstWord_phrase (by decide)] at words
    exact absurd words (by decide)
  induction first generalizing second with
  | nil =>
      cases second with
      | nil => exact ⟨rfl, List.tail_eq_of_cons_eq same⟩
      | cons closure second =>
          exact absurd (congrArg Line.content (List.head_eq_of_cons_eq same)) (foreign closure)
  | cons closure first ih =>
      cases second with
      | nil =>
          exact absurd (congrArg Line.content (List.head_eq_of_cons_eq same)).symm
            (foreign closure)
      | cons closure' second =>
          rw [List.forall_mem_cons] at one two
          obtain ⟨heads, behind⟩ := List.cons.inj same
          obtain ⟨names, lists⟩ := closureHeading_inj one.1 two.1 (congrArg Line.content heads)
          obtain ⟨rfl, ending⟩ := ih one.2 two.2 behind
          exact ⟨by rw [Prod.ext names lists], ending⟩

namespace Program

/-- Neither a closure nor the entry block starts like a function. -/
theorem head_behind_functions (closures : List (Name × List Name)) (rest : List Line) :
    ∀ line ∈ (closureLines closures ++ ⟨0, "entry \x7b"⟩ :: rest).head?,
      firstWord line.content ≠ "fun".toList := by
  cases closures with
  | nil =>
      rintro line ⟨⟩
      decide
  | cons closure closures =>
      rintro line ⟨⟩
      change firstWord (closureHeading closure.1 closure.2) ≠ "fun".toList
      rw [closureHeading, firstWord_phrase (by decide)]
      decide

/-- Functions stored under their own names are all that the table of them holds. -/
theorem entries_bare {program : Program} (named : program.WellNamed) :
    program.bare.functions.entries =
      (program.functions.values.map Function.bare).map
        fun function => (function.name, function) := by
  rw [bare, Table.entries_mapEntries_same, Table.values, List.map_map, List.map_map]
  apply List.map_congr_left
  intro entry stored
  have own : entry.2.bare.name = entry.1 := named.own entry stored
  simp [own]

/-- The lines of programs with plain names determine them up to what no listing shows. -/
theorem bare_of_lines {first second : Program} (one : first.WellNamed) (two : second.WellNamed)
    (same : first.lines = second.lines) : first.bare = second.bare := by
  obtain ⟨functions, behind⟩ := Function.bare_of_lines one.functions two.functions
    (head_behind_functions _ _) (head_behind_functions _ _) same
  obtain ⟨closures, last⟩ := eq_of_closureLines one.closures two.closures behind
  obtain ⟨entries, _⟩ := Block.bare_of_lines one.entry two.entry last
  have tables : first.bare.functions = second.bare.functions := by
    apply Table.ext_entries
    rw [entries_bare one, entries_bare two, functions]
  have captured : first.closures = second.closures := Table.ext_entries closures
  calc first.bare = ⟨first.bare.functions, first.closures, first.entry.bare⟩ := rfl
    _ = ⟨second.bare.functions, second.closures, second.entry.bare⟩ := by
        rw [tables, captured, entries]
    _ = second.bare := rfl

end Program

/-! ## The listing of a program without spans -/

theorem Operation.listing_canonical (operation : Operation) :
    operation.canonical.listing = operation.listing := by
  cases operation with
  | float value =>
      have texts : floatStyle.text value.canonical = floatStyle.text value :=
        floatStyle.text_eq_iff.mpr value.canonical_canonical
      rw [canonical, listing, listing, texts]
  | _ => rfl

theorem Block.lines_bare (block : Block) (depth : Nat) :
    block.bare.lines depth = block.lines depth := by
  induction block generalizing depth with
  | done => rfl
  | compute ident span operation next ih =>
      have heading : Instruction.heading ⟨ident, .operation operation.canonical, .generated⟩ =
          Instruction.heading ⟨ident, .operation operation, span⟩ := by
        simp only [Instruction.heading, Value.heading, operation.listing_canonical]
      rw [bare, lines, lines, ih, heading]
  | apply ident span call next ih =>
      rw [bare, lines, lines, ih]
      rfl
  | branch ident span condition onTrue onFalse next ihTrue ihFalse ih =>
      rw [bare, lines, lines, ih, ihTrue, ihFalse]
      rfl
  | literal ident span parameters body next ihBody ih =>
      rw [bare, lines, lines, ih, ihBody]
      rfl

theorem Function.lines_bare (function : Function) : function.bare.lines = function.lines := by
  rw [lines, lines, bare, Block.lines_bare]
  rfl

namespace Program

/-- A listing shows neither spans nor the payloads of floats that are no number. -/
theorem text_bare (program : Program) : program.bare.text = program.text := by
  have functions : program.bare.functions.values.flatMap Function.lines =
      program.functions.values.flatMap Function.lines := by
    rw [bare, Table.values_mapEntries_same, Table.values, List.flatMap_map, List.flatMap_map]
    simp only [Function.lines_bare]
  rw [text_eq, text_eq, lines, lines, functions, bare, Block.lines_bare]

/-- Two programs whose functions are stored under their own names, and in which every name is a word
of letters, digits, underscores, apostrophes and dollar signs, have one listing exactly if they are
the same up to spans and up to the payloads of floats that are no number. -/
theorem listings_unambiguous {first second : Program} (one : first.WellNamed)
    (two : second.WellNamed) : first.text = second.text ↔ first.bare = second.bare := by
  constructor
  · intro same
    rw [text_eq, text_eq] at same
    exact bare_of_lines one two (written_injective (clear_lines one) (clear_lines two) same)
  · intro same
    rw [← text_bare first, same, text_bare]

/-- A block with a branch, an empty tuple, a literal without parameters and a string that looks like
the end of a block. -/
def tangledBlock (span : Span) (value : Binary64) (kind : CallKind) : Block :=
  .branch "b'" span "c$1"
    (.compute "t" span (.float value) (.compute "u" span (.tuple []) .done)) .done
    (.apply "r" span ⟨"f", ["b'", "t"], kind⟩
      (.literal "g" span [] (.compute "s" span (.string "\"\n\x7d") .done) .done))

/-- A program with a recursive function and two closures, the first of which has the name of the
function and captures nothing. -/
def tangledProgram (span : Span) (value : Binary64) (kind : CallKind) : Program :=
  let function : Function :=
    { name := "f", parameters := ["x", "y_0"], body := tangledBlock span value kind,
      isRecursive := true, span }
  (((ofEntry (tangledBlock span value kind)).addFunction function).addClosure "f" []).addClosure
    "k" ["x", "y_0"]

/-- Other spans and another payload leave the listing as it is, another call kind does not. -/
theorem listings_unambiguous_of_tangledProgram :
    (tangledProgram ⟨⟨1, 2⟩, ⟨3, 4⟩⟩ ⟨0x7ff0000000000001⟩ .known).text =
        (tangledProgram .generated ⟨0xfff8000000000000⟩ .known).text ∧
      (tangledProgram .generated ⟨0xfff8000000000000⟩ .known).text ≠
        (tangledProgram .generated ⟨0xfff8000000000000⟩ .closure).text := by
  have placed : (tangledProgram ⟨⟨1, 2⟩, ⟨3, 4⟩⟩ ⟨0x7ff0000000000001⟩ .known).WellNamed :=
    ⟨by decide, by decide⟩
  have known : (tangledProgram .generated ⟨0xfff8000000000000⟩ .known).WellNamed :=
    ⟨by decide, by decide⟩
  have closure : (tangledProgram .generated ⟨0xfff8000000000000⟩ .closure).WellNamed :=
    ⟨by decide, by decide⟩
  refine ⟨(listings_unambiguous placed known).mpr (by decide), fun same => ?_⟩
  exact absurd ((listings_unambiguous known closure).mp same) (by decide)

end Program

end SmallMl
