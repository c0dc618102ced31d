import SmallMl.Proofs.Classification

/-!
# Functions apart from each other

The tables of a program lend a classification their names and nothing else, and only the calls in a
function's own body mark it. Main statement: what a successful classification makes of a function or
of the entry block is the same in any two programs with the same names, whatever else they hold.
-/

namespace SmallMl

namespace Program

/-- The two programs have functions of the same names and closures of the same names. -/
structure SameNames (first second : Program) : Prop where
  functions : ∀ name, name ∈ first.functions ↔ name ∈ second.functions
  closures : ∀ name, name ∈ first.closures ↔ name ∈ second.closures

theorem SameNames.classify {first second : Program} (same : SameNames first second) :
    first.classify = second.classify := by
  funext call
  simp only [Program.classify, kindOf, same.functions call.callee, same.closures call.callee]

/-- A successful classification makes what is stored under a name from what was stored there. -/
theorem get?_classifyCalls_of_ok {program : Program} {census : CallCensus}
    (succeeds : program.classifyCalls.outcome = .ok census) (key : Name) :
    program.classifyCalls.program.functions.get? key =
      (program.functions.get? key).map (program.functionThroughout key) := by
  rw [(classifyCalls_of_ok succeeds).1]
  exact Table.get?_mapEntries_same program.functions program.functionThroughout key

theorem entry_classifyCalls_of_ok {program : Program} {census : CallCensus}
    (succeeds : program.classifyCalls.outcome = .ok census) :
    program.classifyCalls.program.entry = program.entry.mapCalls fun _ => program.classify := by
  rw [(classifyCalls_of_ok succeeds).1]
  rfl

/-- In two programs with the same names, successful classifications make the same of equal functions
and of equal entry blocks. -/
theorem functions_classified_apart {first second : Program} (same : SameNames first second)
    {census other : CallCensus} (succeeds : first.classifyCalls.outcome = .ok census)
    (alsoSucceeds : second.classifyCalls.outcome = .ok other) :
    (∀ key function, first.functions.get? key = some function →
      second.functions.get? key = some function →
        ∃ result, first.classifyCalls.program.functions.get? key = some result ∧
          second.classifyCalls.program.functions.get? key = some result) ∧
      (first.entry = second.entry →
        first.classifyCalls.program.entry = second.classifyCalls.program.entry) := by
  have rule := same.classify
  refine ⟨?_, ?_⟩
  · intro key function stored alsoStored
    have made : second.functionThroughout key function = first.functionThroughout key function := by
      simp only [functionThroughout, rule]
    refine ⟨first.functionThroughout key function, ?_, ?_⟩
    · rw [get?_classifyCalls_of_ok succeeds, stored, Option.map_some]
    · rw [get?_classifyCalls_of_ok alsoSucceeds, alsoStored, Option.map_some, made]
  · intro entries
    rw [entry_classifyCalls_of_ok succeeds, entry_classifyCalls_of_ok alsoSucceeds, rule, entries]

/-- A program with a function `f` that calls itself, a closure and the function beside it, which is
given together with the names that the closure captures. -/
def neighbouring (beside : Function) (captured : List Name) : Program :=
  (((ofEntry (.apply "r" .generated ⟨"f", ["x"], .unclassified⟩ .done)).addFunction
    { name := "f"
      parameters := ["x"]
      body :=
        .branch "b" .generated "x" (.apply "s" .generated ⟨"f", ["x"], .closure⟩ .done)
          (.apply "t" .generated ⟨"k", ["x"], .known⟩ .done)
          (.apply "u" .generated ⟨"g", ["x"], .unclassified⟩ .done) }).insertFunction "g"
    beside).addClosure "k" captured

/-- A function without calls. -/
def idle : Function where
  name := "g"
  parameters := []
  body := .done

/-- A function that calls the runtime under `g`, which is not its name, and the function `f`, and is
known to be recursive. -/
def busy : Function where
  name := "h"
  parameters := ["y"]
  body :=
    .apply "c" .generated ⟨"g", ["y"], .external⟩
      (.apply "d" .generated ⟨"f", ["y"], .closure⟩ .done)
  isRecursive := true

theorem function_classified_apart_from_neighbour :
    SameNames (neighbouring idle []) (neighbouring busy ["a", "x"]) ∧
      (neighbouring idle []).classifyCalls.outcome =
        .ok { known := 3, closure := 1, external := 0, recursiveFunctions := 1 } ∧
      (neighbouring busy ["a", "x"]).classifyCalls.outcome =
        .ok { known := 4, closure := 1, external := 1, recursiveFunctions := 2 } ∧
      (∃ result, (neighbouring idle []).classifyCalls.program.functions.get? "f" = some result ∧
        (neighbouring busy ["a", "x"]).classifyCalls.program.functions.get? "f" = some result) ∧
      (neighbouring idle []).classifyCalls.program.entry =
        (neighbouring busy ["a", "x"]).classifyCalls.program.entry := by
  have same : SameNames (neighbouring idle []) (neighbouring busy ["a", "x"]) :=
    ⟨fun _ => Iff.rfl, fun _ => Iff.rfl⟩
  have succeeds : (neighbouring idle []).classifyCalls.outcome =
      .ok { known := 3, closure := 1, external := 0, recursiveFunctions := 1 } := by
    rfl
  have alsoSucceeds : (neighbouring busy ["a", "x"]).classifyCalls.outcome =
      .ok { known := 4, closure := 1, external := 1, recursiveFunctions := 2 } := by
    rfl
  obtain ⟨functions, entries⟩ := functions_classified_apart same succeeds alsoSucceeds
  exact ⟨same, succeeds, alsoSucceeds, functions "f" _ rfl rfl, entries rfl⟩

end Program

end SmallMl
