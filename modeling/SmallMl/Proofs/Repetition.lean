import SmallMl.Proofs.Histories

/-!
# A second classification

A classification decides each kind from the names in the tables, which it leaves as they are, and it
keeps every literal in its place. Main statement: a second classification, made directly after the
first, stops where the first has stopped, reports the same and changes nothing, whether or not it
meets a literal.
-/

namespace SmallMl

/-- A change that keeps the callees keeps who is called at the stations of some places. -/
theorem Station.any_zipIdx_mapIdx {change : Nat → Call → Call}
    (keeps : ∀ place call, (change place call).callee = call.callee) (reached : Nat → Bool)
    (callee : Name) (stations : List Station) (first : Nat) :
    ((stations.mapIdx fun place station => station.mapCall (change place)).zipIdx first).any
        (fun (station, place) => reached place && station.calls callee) =
      (stations.zipIdx first).any fun (station, place) =>
        reached place && station.calls callee := by
  induction stations generalizing change first with
  | nil => rfl
  | cons station rest ih =>
      have later := ih (fun place => keeps (place + 1)) (first + 1)
      simp only [List.mapIdx_cons, List.zipIdx_cons, List.any_cons, later,
        calls_mapCall (keeps 0)]

namespace Program

/-- What a classification that stops at a place makes of a call at a station of a body. -/
def callBefore (program : Program) (stop : Place) (body station : Nat) (call : Call) : Call :=
  if (⟨body, station⟩ : Place) < stop then program.classify call else call

theorem callee_callBefore (program : Program) (stop : Place) (body station : Nat) (call : Call) :
    (program.callBefore stop body station call).callee = call.callee := by
  unfold callBefore
  split
  · rfl
  · rfl

/-- A kind decided by the tables is decided in the same way again. -/
theorem classify_classify (program : Program) (call : Call) :
    program.classify (program.classify call) = program.classify call := by
  rw [← classify_untagged, untagged_classify, classify_untagged]

theorem callBefore_callBefore (program : Program) (stop : Place) (body station : Nat)
    (call : Call) :
    program.callBefore stop body station (program.callBefore stop body station call) =
      program.callBefore stop body station call := by
  unfold callBefore
  split
  · exact classify_classify program call
  · rfl

theorem mapCalls_callBefore_twice (program : Program) (stop : Place) (body : Nat)
    (block : Block) :
    (block.mapCalls (program.callBefore stop body)).mapCalls (program.callBefore stop body) =
      block.mapCalls (program.callBefore stop body) := by
  simp only [Block.mapCalls_mapCalls, callBefore_callBefore]

theorem functionBefore_functionBefore (program : Program) (stop : Place) (body : Nat) (key : Name)
    (function : Function) :
    program.functionBefore stop body key (program.functionBefore stop body key function) =
      program.functionBefore stop body key function := by
  have block := mapCalls_callBefore_twice program stop body function.body
  have marks := Station.any_zipIdx_mapIdx (callee_callBefore program stop body)
    (fun place => decide ((⟨body, place⟩ : Place) < stop)) key function.body.traversal 0
  rw [← Block.traversal_mapCalls] at marks
  unfold callBefore at block marks
  simp only [functionBefore, block, marks, Bool.or_assoc, Bool.or_self]

/-- A program classified up to a place stays as it is when the calls before that place are
classified again. -/
theorem classifiedBefore_classifiedBefore (program : Program) (stop : Place) :
    (program.classifiedBefore stop).classifiedBefore stop = program.classifiedBefore stop := by
  have rule : (program.classifiedBefore stop).classify = program.classify :=
    ((Alike.refl program).before stop).classify
  have change : (program.classifiedBefore stop).functionBefore stop =
      program.functionBefore stop := by
    funext body key function
    simp only [functionBefore, rule]
  have functions : ((program.functions.mapEntries (program.functionBefore stop)).mapEntries
      (program.functionBefore stop)) =
        program.functions.mapEntries (program.functionBefore stop) := by
    apply Table.ext_entries
    simp only [Table.mapEntries, List.mapIdx_mapIdx, Function.comp_def,
      functionBefore_functionBefore]
  have entry := mapCalls_callBefore_twice program stop program.functions.entries.length
    program.entry
  have count : (program.classifiedBefore stop).functions.entries.length =
      program.functions.entries.length := by
    simp only [classifiedBefore, Table.mapEntries, List.length_mapIdx]
  unfold callBefore at entry
  rw [classifiedBefore, change, rule, count]
  simp only [classifiedBefore, functions, entry]

/-- A classification made again stops at the same place. -/
theorem stop_classifiedBefore (program : Program) (stop : Place) :
    (program.classifiedBefore stop).stop = program.stop := by
  have holdsLiteral : ∀ run clean : Name × Function, EntryAlike run clean →
      run.2.body.firstLiteral?.isSome = clean.2.body.firstLiteral?.isSome :=
    fun _ _ entries => congrArg Option.isSome (Block.firstLiteral?_of_untagged entries.2.body)
  have literals := EntryAlike.map_eq holdsLiteral ((Alike.refl program).before stop).functions
  have body : (program.classifiedBefore stop).stopBody = program.stopBody := by
    have found := congrArg (List.findIdx id) literals
    rwa [List.findIdx_map, List.findIdx_map] at found
  rw [Program.stop, body, bodies_classifiedBefore, List.getElem?_mapIdx, Program.stop]
  cases program.bodies[program.stopBody]? with
  | none => rfl
  | some block => simp only [Option.map_some, Option.elim_some, Block.reach_mapCalls]

/-- Programs that differ in earlier classifications only are reported on alike. -/
theorem Alike.outcome {run clean : Program} (alike : Alike run clean) :
    run.classifyCalls.outcome = clean.classifyCalls.outcome := by
  rw [classifyCalls_outcome, classifyCalls_outcome, alike.firstLeftover?, alike.throughout]

theorem outcome_classifyCalls_program (program : Program) :
    program.classifyCalls.program.classifyCalls.outcome = program.classifyCalls.outcome := by
  rw [classifyCalls_program]
  exact ((Alike.refl program).before program.stop).outcome

theorem stop_classifyCalls_program (program : Program) :
    program.classifyCalls.program.stop = program.stop := by
  rw [classifyCalls_program, stop_classifiedBefore]

theorem program_classifyCalls_program (program : Program) :
    program.classifyCalls.program.classifyCalls.program = program.classifyCalls.program := by
  rw [classifyCalls_program program.classifyCalls.program, stop_classifyCalls_program,
    classifyCalls_program, classifiedBefore_classifiedBefore]

/-- A second classification reports what the first has reported and leaves the program as the
first has left it, after a success and after a failure. -/
theorem second_classification_changes_nothing (program : Program) :
    let first := program.classifyCalls
    let second := first.program.classifyCalls
    second.outcome = first.outcome ∧ second.program = first.program := by
  intro first second
  refine ⟨?_, ?_⟩
  · exact outcome_classifyCalls_program program
  · exact program_classifyCalls_program program

end Program

end SmallMl
