import Mathlib.Data.List.Forall2
import SmallMl.Proofs.Classification

/-!
# Classifications in the history of a program

A program is built by edits, and it may be classified at any time in between. Main statement: the
classifications before the last one leave no trace in what the last one reports, nor in the program
it leaves when it succeeds. Two histories are compared that differ in these classifications only:
their programs agree up to the kinds that a classification decides anew and up to flags that a call
in the body justifies.
-/

namespace SmallMl

namespace Call

/-- The call without a kind that a classification has decided. -/
def untagged (call : Call) : Call :=
  if call.kind = .external then call else { call with kind := .unclassified }

theorem callee_untagged (call : Call) : call.untagged.callee = call.callee := by
  unfold untagged
  split <;> rfl

end Call

namespace Block

/-- The block without kinds that a classification has decided. -/
def untagged (block : Block) : Block :=
  block.mapCalls fun _ => Call.untagged

theorem untagged_mapCalls {change : Nat → Call → Call}
    (keeps : ∀ place call, (change place call).untagged = call.untagged) (block : Block) :
    (block.mapCalls change).untagged = block.untagged := by
  rw [untagged, untagged, mapCalls_mapCalls]
  apply mapCalls_congr
  intro place _
  funext call
  exact keeps place call

theorem untagged_push {first second : Block} (same : first.untagged = second.untagged)
    (instruction : Instruction) :
    (first.push instruction).untagged = (second.push instruction).untagged := by
  unfold untagged at same ⊢
  rw [push, push, mapCalls_append, mapCalls_append, same]

/-- A change that decides the kinds anew does not see how they were decided before. -/
theorem mapCalls_of_untagged {change : Call → Call}
    (blind : ∀ call, change call.untagged = change call) {first second : Block}
    (same : first.untagged = second.untagged) :
    (first.mapCalls fun _ => change) = second.mapCalls fun _ => change := by
  have through : ∀ block : Block,
      (block.mapCalls fun _ => change) = block.untagged.mapCalls fun _ => change := by
    intro block
    simp only [untagged, mapCalls_mapCalls, blind]
  rw [through first, same, ← through second]

theorem any_calls_of_untagged {first second : Block} (same : first.untagged = second.untagged)
    (callee : Name) :
    first.traversal.any (Station.calls callee) = second.traversal.any (Station.calls callee) := by
  have through : ∀ block : Block, block.untagged.traversal.any (Station.calls callee) =
      block.traversal.any (Station.calls callee) := by
    intro block
    rw [untagged, traversal_mapCalls_same, List.any_map]
    congr 1
    funext station
    exact Station.calls_mapCall Call.callee_untagged callee station
  rw [← through first, same, through second]

theorem firstLiteral?_of_untagged {first second : Block}
    (same : first.untagged = second.untagged) : first.firstLiteral? = second.firstLiteral? := by
  rw [← firstLiteral?_mapCalls (fun _ => Call.untagged) first,
    ← firstLiteral?_mapCalls (fun _ => Call.untagged) second]
  exact congrArg _ same

end Block

namespace Program

/-- A step in the making of a program. -/
inductive Edit where
  | addFunction (function : Function)
  | insertFunction (key : Name) (function : Function)
  | addClosure (name : Name) (captured : List Name)
  /-- Appends to the body of a stored function; without that function, nothing happens. -/
  | pushTo (key : Name) (instruction : Instruction)
  | pushEntry (instruction : Instruction)
  deriving DecidableEq, Repr

/-- The program after an edit. -/
def edited (program : Program) : Edit → Program
  | .addFunction function => program.addFunction function
  | .insertFunction key function => program.insertFunction key function
  | .addClosure name captured => program.addClosure name captured
  | .pushTo key instruction => (program.pushTo? key instruction).getD program
  | .pushEntry instruction => program.pushEntry instruction

/-- What may happen to a program. -/
inductive Event where
  | edit (edit : Edit)
  | classification
  deriving DecidableEq, Repr

/-- Whether the event is an edit. -/
def Event.isEdit : Event → Bool
  | edit _ => true
  | classification => false

/-- The program after an event; a classification may fail on the way. -/
def following (program : Program) : Event → Program
  | .edit edit => program.edited edit
  | .classification => program.classifyCalls.program

/-- The program after a history. -/
def after (program : Program) (history : List Event) : Program :=
  history.foldl following program

/-! ## Programs that differ in earlier classifications -/

theorem untagged_classify (program : Program) (call : Call) :
    (program.classify call).untagged = call.untagged := by
  by_cases external : call.kind = .external
  · have same : program.classify call = call := by
      rw [classify, kindOf, if_pos external, ← external]
    rw [same]
  · have tagged : program.kindOf call ≠ .external := by
      simp only [kindOf, external, if_false]
      split
      · simp
      · split <;> simp
    simp only [classify, Call.untagged, tagged, external, if_false]

theorem untagged_classifyIf (program : Program) (reached : Prop) [Decidable reached]
    (call : Call) : (if reached then program.classify call else call).untagged = call.untagged := by
  by_cases here : reached
  · rw [if_pos here, untagged_classify]
  · rw [if_neg here]

theorem classify_untagged (program : Program) (call : Call) :
    program.classify call.untagged = program.classify call := by
  by_cases external : call.kind = .external
  · simp only [Call.untagged, external, if_true]
  · simp only [classify, kindOf, Call.untagged, external, if_false]
    simp

/-- Two functions stored under one name that differ in earlier classifications only. A flag that
such a classification has set is justified by a call in the body. -/
structure FunctionAlike (key : Name) (run clean : Function) : Prop where
  name : run.name = clean.name
  parameters : run.parameters = clean.parameters
  span : run.span = clean.span
  body : run.body.untagged = clean.body.untagged
  kept : clean.isRecursive = true → run.isRecursive = true
  justified : run.isRecursive = true →
    clean.isRecursive = true ∨ clean.body.traversal.any (Station.calls key) = true

/-- Two stored functions that differ in earlier classifications only. -/
def EntryAlike (run clean : Name × Function) : Prop :=
  run.1 = clean.1 ∧ FunctionAlike clean.1 run.2 clean.2

/-- Two programs that differ in earlier classifications only. -/
structure Alike (run clean : Program) : Prop where
  functions : List.Forall₂ EntryAlike run.functions.entries clean.functions.entries
  closures : run.closures = clean.closures
  entry : run.entry.untagged = clean.entry.untagged

theorem FunctionAlike.refl (key : Name) (function : Function) :
    FunctionAlike key function function :=
  ⟨rfl, rfl, rfl, rfl, id, Or.inl⟩

theorem FunctionAlike.push {key : Name} {run clean : Function} (alike : FunctionAlike key run clean)
    (instruction : Instruction) :
    FunctionAlike key { run with body := run.body.push instruction }
      { clean with body := clean.body.push instruction } where
  name := alike.name
  parameters := alike.parameters
  span := alike.span
  body := Block.untagged_push alike.body instruction
  kept := alike.kept
  justified := by
    intro marked
    rcases alike.justified marked with before | called
    · exact Or.inl before
    · refine Or.inr ?_
      rw [Block.push, Block.traversal_append, List.any_append, called, Bool.true_or]

/-- A classification of the one function up to some place changes nothing of this. -/
theorem FunctionAlike.before {key : Name} {run clean : Function}
    (alike : FunctionAlike key run clean) (program : Program) (stop : Place) (body : Nat) :
    FunctionAlike key (program.functionBefore stop body key run) clean where
  name := alike.name
  parameters := alike.parameters
  span := alike.span
  body := by
    rw [← alike.body]
    refine Block.untagged_mapCalls ?_ run.body
    intro place call
    exact untagged_classifyIf program _ call
  kept := by
    intro marked
    simp only [functionBefore, alike.kept marked, Bool.true_or]
  justified := by
    intro marked
    simp only [functionBefore, Bool.or_eq_true] at marked
    rcases marked with marked | called
    · exact alike.justified marked
    · refine Or.inr ?_
      rw [← Block.any_calls_of_untagged alike.body key]
      obtain ⟨⟨station, place⟩, member, calls⟩ := List.any_eq_true.mp called
      rw [Bool.and_eq_true] at calls
      exact List.any_eq_true.mpr ⟨station, List.fst_mem_of_mem_zipIdx member, calls.2⟩

theorem Alike.refl (program : Program) : Alike program program where
  functions := List.forall₂_same.mpr fun entry _ => ⟨rfl, FunctionAlike.refl entry.1 entry.2⟩
  closures := rfl
  entry := rfl

/-- Changes that keep functions alike keep the entries of a table alike. -/
theorem EntryAlike.mapIdx {change : Nat → Name → Function → Function}
    (keeps : ∀ place key first second, FunctionAlike key first second →
      FunctionAlike key (change place key first) second)
    {run clean : List (Name × Function)} (alike : List.Forall₂ EntryAlike run clean) :
    List.Forall₂ EntryAlike
      (run.mapIdx fun place entry => (entry.1, change place entry.1 entry.2)) clean := by
  induction alike generalizing change with
  | nil => exact .nil
  | cons head _ ih =>
      obtain ⟨names, functions⟩ := head
      rw [List.mapIdx_cons]
      refine .cons ⟨names, ?_⟩ (ih fun place key => keeps (place + 1) key)
      rw [names]
      exact keeps 0 _ _ _ functions

theorem Alike.before {run clean : Program} (alike : Alike run clean) (stop : Place) :
    Alike (run.classifiedBefore stop) clean where
  functions := by
    refine EntryAlike.mapIdx ?_ alike.functions
    intro place key first second functions
    exact functions.before run stop place
  closures := alike.closures
  entry := by
    rw [← alike.entry]
    refine Block.untagged_mapCalls ?_ run.entry
    intro place call
    exact untagged_classifyIf run _ call

theorem EntryAlike.insertInto {key : Name} {first second : Function}
    (new : FunctionAlike key first second) {run clean : List (Name × Function)}
    (alike : List.Forall₂ EntryAlike run clean) :
    List.Forall₂ EntryAlike (Table.insertInto key first run)
      (Table.insertInto key second clean) := by
  induction alike with
  | nil => exact .cons ⟨rfl, new⟩ .nil
  | @cons runEntry cleanEntry runRest cleanRest head tail ih =>
      obtain ⟨name, function⟩ := runEntry
      obtain ⟨otherName, other⟩ := cleanEntry
      obtain ⟨names, functions⟩ := head
      simp only at names functions
      subst names
      by_cases found : name = key
      · subst found
        simp only [Table.insertInto, if_true]
        exact .cons ⟨rfl, new⟩ tail
      · simp only [Table.insertInto, found, if_false]
        exact .cons ⟨rfl, functions⟩ ih

theorem Alike.insertFunction {run clean : Program} (alike : Alike run clean) {key : Name}
    {first second : Function} (new : FunctionAlike key first second) :
    Alike (run.insertFunction key first) (clean.insertFunction key second) where
  functions := EntryAlike.insertInto new alike.functions
  closures := alike.closures
  entry := alike.entry

theorem EntryAlike.lookup {key : Name} {run clean : List (Name × Function)}
    (alike : List.Forall₂ EntryAlike run clean) :
    (run.lookup key = none ∧ clean.lookup key = none) ∨
      ∃ first second, run.lookup key = some first ∧ clean.lookup key = some second ∧
        FunctionAlike key first second := by
  induction alike with
  | nil => exact Or.inl ⟨rfl, rfl⟩
  | @cons runEntry cleanEntry runRest cleanRest head tail ih =>
      obtain ⟨name, function⟩ := runEntry
      obtain ⟨otherName, other⟩ := cleanEntry
      obtain ⟨names, functions⟩ := head
      simp only at names functions
      subst names
      simp only [Table.lookup_entry]
      by_cases found : key = name
      · subst found
        exact Or.inr ⟨function, other, if_pos rfl, if_pos rfl, functions⟩
      · simp only [found, if_false]
        exact ih

theorem Alike.pushTo {run clean : Program} (alike : Alike run clean) (key : Name)
    (instruction : Instruction) :
    Alike ((run.pushTo? key instruction).getD run)
      ((clean.pushTo? key instruction).getD clean) := by
  rcases @EntryAlike.lookup key _ _ alike.functions with
    ⟨missing, absent⟩ | ⟨first, second, found, stored, functions⟩
  · simp only [pushTo?, Table.get?, missing, absent]
    exact alike
  · simp only [pushTo?, Table.get?, found, stored]
    exact alike.insertFunction (functions.push instruction)

/-- An edit keeps two programs the same but for earlier classifications. -/
theorem Alike.edited {run clean : Program} (alike : Alike run clean) (edit : Edit) :
    Alike (run.edited edit) (clean.edited edit) := by
  cases edit with
  | addFunction function => exact alike.insertFunction (.refl _ function)
  | insertFunction key function => exact alike.insertFunction (.refl key function)
  | addClosure name captured =>
      exact ⟨alike.functions, congrArg (fun table => table.insert name captured) alike.closures,
        alike.entry⟩
  | pushTo key instruction => exact alike.pushTo key instruction
  | pushEntry instruction =>
      exact ⟨alike.functions, alike.closures, Block.untagged_push alike.entry instruction⟩

/-- A history and the same one without its classifications lead to the same program but for
them. -/
theorem Alike.after {run clean : Program} (alike : Alike run clean) (history : List Event) :
    Alike (run.after history) (clean.after (history.filter Event.isEdit)) := by
  induction history generalizing run clean with
  | nil => exact alike
  | cons event rest ih =>
      cases event with
      | edit edit => exact ih (alike.edited edit)
      | classification =>
          refine ih ?_
          rw [following, classifyCalls_program]
          exact alike.before run.stop

/-- What is told of entries alike in the same way is the same for two lists of them. -/
theorem EntryAlike.map_eq {β : Type} {first second : Name × Function → β}
    (agree : ∀ run clean, EntryAlike run clean → first run = second clean)
    {run clean : List (Name × Function)} (alike : List.Forall₂ EntryAlike run clean) :
    run.map first = clean.map second := by
  have related : List.Forall₂ Eq (run.map first) (clean.map second) := by
    rw [List.forall₂_map_left_iff, List.forall₂_map_right_iff]
    exact alike.imp agree
  rwa [List.forall₂_eq_eq_eq] at related

theorem Alike.classify {run clean : Program} (alike : Alike run clean) :
    run.classify = clean.classify := by
  have keys : run.functions.keys = clean.functions.keys :=
    EntryAlike.map_eq (fun _ _ entries => entries.1) alike.functions
  have members : ∀ name, (name ∈ run.functions) = (name ∈ clean.functions) :=
    fun name => congrArg (fun names : List Name => name ∈ names) keys
  funext call
  simp only [Program.classify, kindOf, alike.closures, members]

theorem Alike.firstLeftover? {run clean : Program} (alike : Alike run clean) :
    run.firstLeftover? = clean.firstLeftover? := by
  have reports : (run.functions.entries.map fun entry => entry.2.body.firstLiteral?.map fun site =>
        (⟨site.ident, some entry.1, site.span⟩ : LeftoverLiteral)) =
      clean.functions.entries.map fun entry => entry.2.body.firstLiteral?.map fun site =>
        ⟨site.ident, some entry.1, site.span⟩ := by
    refine EntryAlike.map_eq ?_ alike.functions
    intro first second entries
    rw [entries.1, Block.firstLiteral?_of_untagged entries.2.body]
  have functions := congrArg (List.findSome? id) reports
  rw [List.findSome?_map, List.findSome?_map] at functions
  rw [Program.firstLeftover?, Program.firstLeftover?, Block.firstLiteral?_of_untagged alike.entry]
  exact congrArg (Option.or · _) functions

theorem FunctionAlike.throughout {key : Name} {run clean : Function}
    (alike : FunctionAlike key run clean) {first second : Program}
    (rule : first.classify = second.classify) :
    first.functionThroughout key run = second.functionThroughout key clean := by
  have body := Block.mapCalls_of_untagged (classify_untagged second) alike.body
  have calls := Block.any_calls_of_untagged alike.body key
  have marked : (run.isRecursive || clean.body.traversal.any (Station.calls key)) =
      (clean.isRecursive || clean.body.traversal.any (Station.calls key)) := by
    rw [Bool.eq_iff_iff, Bool.or_eq_true, Bool.or_eq_true]
    constructor
    · rintro (marked | called)
      · exact alike.justified marked
      · exact Or.inr called
    · rintro (marked | called)
      · exact Or.inl (alike.kept marked)
      · exact Or.inr called
  simp only [functionThroughout, alike.name, alike.parameters, alike.span, rule, body, calls,
    marked]

theorem Alike.throughout {run clean : Program} (alike : Alike run clean) :
    run.classifiedThroughout = clean.classifiedThroughout := by
  have rule := alike.classify
  have functions : (run.functions.mapEntries fun _ => run.functionThroughout) =
      clean.functions.mapEntries fun _ => clean.functionThroughout := by
    apply Table.ext_entries
    rw [Table.entries_mapEntries_same, Table.entries_mapEntries_same]
    refine EntryAlike.map_eq ?_ alike.functions
    intro first second entries
    rw [entries.1, entries.2.throughout rule]
  have entry := Block.mapCalls_of_untagged (classify_untagged clean) alike.entry
  simp only [classifiedThroughout, functions, alike.closures, rule, entry]

/-- Classifications in the history of a program are invisible to a later one. -/
theorem earlier_classifications_invisible (entry : Block) (history : List Event) :
    let run := (ofEntry entry).after history
    let clean := (ofEntry entry).after (history.filter Event.isEdit)
    run.classifyCalls.outcome = clean.classifyCalls.outcome ∧
      ∀ census, run.classifyCalls.outcome = .ok census →
        run.classifyCalls.program = clean.classifyCalls.program := by
  intro run clean
  have alike : Alike run clean := (Alike.refl (ofEntry entry)).after history
  cases found : clean.firstLeftover? with
  | some leftover =>
      have failed := classifyCalls_outcome_of_leftover (alike.firstLeftover?.trans found)
      refine ⟨failed.trans (classifyCalls_outcome_of_leftover found).symm, ?_⟩
      intro census succeeds
      rw [failed] at succeeds
      exact absurd succeeds (by simp)
  | none =>
      obtain ⟨result, outcome⟩ :=
        classifyCalls_of_free (firstLeftover?_eq_none_iff.mp (alike.firstLeftover?.trans found))
      obtain ⟨cleanResult, cleanOutcome⟩ :=
        classifyCalls_of_free (firstLeftover?_eq_none_iff.mp found)
      have throughout := alike.throughout
      refine ⟨?_, ?_⟩
      · rw [outcome, cleanOutcome, throughout]
      · intro _ _
        rw [result, cleanResult, throughout]

/-- A history with three classifications. The second meets a literal in a function that is replaced
later; a closure comes to shadow a function that was known before. -/
def interruptedHistory : List Event :=
  [.edit (.addFunction
      { name := "f"
        parameters := []
        body := .apply "a" .generated ⟨"g", [], .unclassified⟩ .done }),
    .edit (.addFunction { name := "g", parameters := [], body := .done }),
    .classification,
    .edit (.pushTo "f" ⟨"b", .call ⟨"f", [], .unclassified⟩, .generated⟩),
    .edit (.insertFunction "h"
      { name := "h", parameters := [], body := .literal "l" .generated [] .done .done }),
    .classification,
    .edit (.insertFunction "h" { name := "h", parameters := [], body := .done }),
    .edit (.addClosure "g" []),
    .edit (.pushEntry ⟨"r", .call ⟨"f", [], .unclassified⟩, .generated⟩),
    .classification]

theorem earlier_classifications_invisible_in_interruptedHistory :
    let run := (ofEntry .done).after interruptedHistory
    let clean := (ofEntry .done).after (interruptedHistory.filter Event.isEdit)
    run ≠ clean ∧
      run.classifyCalls.outcome =
        .ok { known := 2, closure := 1, external := 0, recursiveFunctions := 1 } ∧
      run.classifyCalls.program = clean.classifyCalls.program := by
  have succeeds : ((ofEntry .done).after interruptedHistory).classifyCalls.outcome =
      .ok { known := 2, closure := 1, external := 0, recursiveFunctions := 1 } := by
    decide +kernel
  refine ⟨by decide +kernel, succeeds, ?_⟩
  exact (earlier_classifications_invisible .done interruptedHistory).2 _ succeeds

end Program

end SmallMl
