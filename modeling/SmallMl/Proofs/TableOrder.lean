import SmallMl.Proofs.Classification

/-!
# The order of the tables

The functions and the closures of a program are stored in some order, and a classification goes
through the functions in theirs. Main statement: the order decides neither whether a classification
succeeds nor what it reports nor what it makes of any function; it only stays what it was.
-/

namespace SmallMl

namespace Table

variable {α : Type}

/-- The value of a name is the one that stands in its entry. -/
theorem get?_eq_some_iff {table : Table α} {key : Name} {value : α} :
    table.get? key = some value ↔ (key, value) ∈ table.entries := by
  obtain ⟨entries, distinct⟩ := table
  change entries.lookup key = some value ↔ (key, value) ∈ entries
  induction entries with
  | nil => simp
  | cons entry rest ih =>
      obtain ⟨name, held⟩ := entry
      rw [List.map_cons, List.nodup_cons] at distinct
      rw [lookup_entry, List.mem_cons, Prod.mk.injEq]
      by_cases here : key = name
      · subst here
        have elsewhere : (key, value) ∉ rest := by
          intro member
          exact distinct.1 (List.mem_map.mpr ⟨(key, value), member, rfl⟩)
        simp [elsewhere, eq_comm]
      · simp [here, ih distinct.2]

/-- The order of the entries does not matter to a lookup. -/
theorem get?_of_perm {first second : Table α} (same : first.entries.Perm second.entries)
    (key : Name) : first.get? key = second.get? key := by
  apply Option.ext
  intro value
  rw [get?_eq_some_iff, get?_eq_some_iff, same.mem_iff]

theorem keys_perm {first second : Table α} (same : first.entries.Perm second.entries) :
    first.keys.Perm second.keys :=
  same.map Prod.fst

theorem values_perm {first second : Table α} (same : first.entries.Perm second.entries) :
    first.values.Perm second.values :=
  same.map Prod.snd

theorem mem_of_perm {first second : Table α} (same : first.entries.Perm second.entries)
    (key : Name) : key ∈ first ↔ key ∈ second :=
  (keys_perm same).mem_iff

@[simp]
theorem keys_mapEntries (table : Table α) (change : Nat → Name → α → α) :
    (table.mapEntries change).keys = table.keys := by
  apply List.ext_getElem?
  intro place
  simp only [keys, mapEntries, List.getElem?_map, List.getElem?_mapIdx, Option.map_map]
  rfl

end Table

theorem CallCensus.ofCalls_of_perm {calls others : List CallSite} {functions more : List Function}
    (sites : calls.Perm others) (stored : functions.Perm more) :
    ofCalls calls functions = ofCalls others more := by
  simp only [ofCalls, sites.countP_eq, stored.countP_eq]

namespace Program

/-- The two programs store the same functions and closures, each in an order of its own. -/
structure Reordered (first second : Program) : Prop where
  functions : first.functions.entries.Perm second.functions.entries
  closures : first.closures.entries.Perm second.closures.entries
  entry : first.entry = second.entry

namespace Reordered

variable {first second : Program}

/-- The kind of a call is told from the names in the tables. -/
theorem classify (same : Reordered first second) : first.classify = second.classify := by
  funext call
  have closures := Table.mem_of_perm same.closures call.callee
  have functions := Table.mem_of_perm same.functions call.callee
  simp only [Program.classify, kindOf, closures, functions]

theorem bodies (same : Reordered first second) : first.bodies.Perm second.bodies := by
  have stored := (Table.values_perm same.functions).map Function.body
  rw [Program.bodies, Program.bodies, same.entry]
  exact stored.append_right [second.entry]

theorem literalFree (same : Reordered first second) :
    first.LiteralFree ↔ second.LiteralFree := by
  constructor
  · intro free body member
    exact free body (same.bodies.mem_iff.mpr member)
  · intro free body member
    exact free body (same.bodies.mem_iff.mp member)

theorem calls (same : Reordered first second) : first.calls.Perm second.calls :=
  same.bodies.flatMap_right _

/-- With every call classified, the two programs still differ in their orders only. -/
theorem throughout (same : Reordered first second) :
    Reordered first.classifiedThroughout second.classifiedThroughout where
  functions := by
    have change : first.functionThroughout = second.functionThroughout := by
      funext key function
      simp only [functionThroughout, same.classify]
    simp only [classifiedThroughout, Table.entries_mapEntries_same, change]
    exact same.functions.map _
  closures := same.closures
  entry := by
    simp only [classifiedThroughout, same.entry, same.classify]

theorem census (same : Reordered first second) :
    CallCensus.ofCalls first.calls first.functions.values =
      CallCensus.ofCalls second.calls second.functions.values :=
  CallCensus.ofCalls_of_perm same.calls (Table.values_perm same.functions)

end Reordered

/-- The order of the tables decides neither whether a classification succeeds nor what it counts nor
what becomes of a function or of the entry block, and each program keeps its own order. -/
theorem classification_ignores_table_order {first second : Program}
    (same : Reordered first second) :
    let one := first.classifyCalls
    let two := second.classifyCalls
    ((∃ census, one.outcome = .ok census) ↔ ∃ census, two.outcome = .ok census) ∧
      ∀ census other, one.outcome = .ok census → two.outcome = .ok other →
        census = other ∧
        (∀ key, one.program.functions.get? key = two.program.functions.get? key) ∧
        one.program.entry = two.program.entry ∧
        (one.program.functions.keys = first.functions.keys ∧
          one.program.closures = first.closures) ∧
        (two.program.functions.keys = second.functions.keys ∧
          two.program.closures = second.closures) := by
  intro one two
  refine ⟨?_, ?_⟩
  · rw [classifyCalls_ok_iff, classifyCalls_ok_iff]
    exact same.literalFree
  · intro census other succeeds alsoSucceeds
    obtain ⟨result, counted⟩ := classifyCalls_of_ok succeeds
    obtain ⟨otherResult, otherCounted⟩ := classifyCalls_of_ok alsoSucceeds
    have throughout := same.throughout
    have functions := Table.get?_of_perm throughout.functions
    rw [result, otherResult, counted, otherCounted]
    refine ⟨throughout.census, functions, throughout.entry, ⟨?_, rfl⟩, ⟨?_, rfl⟩⟩
    · exact Table.keys_mapEntries first.functions _
    · exact Table.keys_mapEntries second.functions _

/-- Functions and closures of the given names, in the given orders. Each function calls itself in
one branch and `even` in the other, each closure captures its own name, and the entry block calls
`odd`. -/
def shuffled (functions : List Name) (closures : List Name) : Program :=
  let body (name : Name) : Block :=
    .branch "b" .generated "x" (.apply "s" .generated ⟨name, ["x"], .unclassified⟩ .done)
      (.apply "t" .generated ⟨"even", ["x"], .known⟩ .done) .done
  let withFunctions := functions.foldl
    (fun program name => program.addFunction ⟨name, ["x"], body name, false, .generated⟩)
    (ofEntry (.apply "r" .generated ⟨"odd", ["x"], .unclassified⟩ .done))
  closures.foldl (fun program name => program.addClosure name [name]) withFunctions

theorem classification_ignores_order_of_shuffled :
    Reordered (shuffled ["even", "odd"] ["even", "k"]) (shuffled ["odd", "even"] ["k", "even"]) ∧
      (shuffled ["even", "odd"] ["even", "k"]).classifyCalls.outcome =
        .ok { known := 2, closure := 3, external := 0, recursiveFunctions := 2 } ∧
      (shuffled ["odd", "even"] ["k", "even"]).classifyCalls.outcome =
        .ok { known := 2, closure := 3, external := 0, recursiveFunctions := 2 } := by
  have same : Reordered (shuffled ["even", "odd"] ["even", "k"])
      (shuffled ["odd", "even"] ["k", "even"]) :=
    ⟨List.Perm.swap _ _ _, List.Perm.swap _ _ _, rfl⟩
  have succeeds : (shuffled ["even", "odd"] ["even", "k"]).classifyCalls.outcome =
      .ok { known := 2, closure := 3, external := 0, recursiveFunctions := 2 } := by
    rfl
  obtain ⟨together, agree⟩ := classification_ignores_table_order same
  obtain ⟨census, alsoSucceeds⟩ := together.mp ⟨_, succeeds⟩
  refine ⟨same, succeeds, ?_⟩
  rw [alsoSucceeds, ← (agree _ _ succeeds alsoSucceeds).1]

end Program

end SmallMl
