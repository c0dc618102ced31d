import SmallMl.Proofs.Classification

/-!
# The census of a program

A classification counts the calls that its walks have reached, and the functions that are marked
when it ends. Main statement: where it succeeds, these are the numbers of calls of each kind and of
marked functions in the program that it leaves, and every call of the program it was given is
counted once.
-/

namespace SmallMl

namespace Block

/-- The number of calls that pass a test, in a block and in all blocks inside it. -/
def callCount (passes : Call → Bool) : Block → Nat
  | done => 0
  | compute _ _ _ next => next.callCount passes
  | apply _ _ call next => (if passes call then 1 else 0) + next.callCount passes
  | branch _ _ _ onTrue onFalse next =>
      onTrue.callCount passes + onFalse.callCount passes + next.callCount passes
  | literal _ _ _ body next => body.callCount passes + next.callCount passes

theorem literalFree_branch_iff {ident : Name} {span : Span} {condition : Name}
    {onTrue onFalse next : Block} :
    (branch ident span condition onTrue onFalse next).LiteralFree ↔
      onTrue.LiteralFree ∧ onFalse.LiteralFree ∧ next.LiteralFree := by
  simp only [LiteralFree, traversal, List.forall_mem_cons, List.forall_mem_append,
    Station.literal?, true_and, and_assoc]

/-- Where there is no literal, the stations of a block hold all its calls. -/
theorem callCount_of_free {block : Block} (free : block.LiteralFree) (passes : Call → Bool) :
    block.callCount passes =
      (Station.callsAt block.traversal).countP fun site => passes site.call := by
  induction block with
  | done => rfl
  | compute ident span operation next ih =>
      exact ih fun station member => free station (List.mem_cons_of_mem _ member)
  | apply ident span call next ih =>
      have later := ih fun station member => free station (List.mem_cons_of_mem _ member)
      change _ = List.countP _ (⟨ident, call⟩ :: Station.callsAt next.traversal)
      rw [callCount, later, List.countP_cons, Nat.add_comm]
  | branch ident span condition onTrue onFalse next ihTrue ihFalse ih =>
      obtain ⟨freeTrue, freeFalse, freeNext⟩ := literalFree_branch_iff.mp free
      change _ = List.countP _ (Station.callsAt
        (onTrue.traversal ++ onFalse.traversal ++ next.traversal))
      rw [callCount, ihTrue freeTrue, ihFalse freeFalse, ih freeNext, Station.callsAt_append,
        Station.callsAt_append, List.countP_append, List.countP_append]
  | literal ident span parameters body next =>
      exact absurd (free _ (List.mem_cons_self ..)) (by simp [Station.literal?])

end Block

/-- Calls that all have a kind are those that are known, closures or external. -/
theorem CallCensus.total_ofCalls {calls : List CallSite}
    (settled : ∀ site ∈ calls, site.call.kind ≠ .unclassified) (functions : List Function) :
    (ofCalls calls functions).known + (ofCalls calls functions).closure +
      (ofCalls calls functions).external = calls.length := by
  induction calls with
  | nil => rfl
  | cons site rest ih =>
      have later := ih fun other member => settled other (List.mem_cons_of_mem _ member)
      have here := settled site (List.mem_cons_self ..)
      simp only [ofCalls, List.countP_cons, List.length_cons] at later ⊢
      cases kind : site.call.kind with
      | unclassified => exact absurd kind here
      | known => simp; omega
      | closure => simp; omega
      | external => simp; omega

namespace Program

/-- The number of calls that pass a test, in the bodies of the functions and in the entry block. -/
def callCount (passes : Call → Bool) (program : Program) : Nat :=
  program.bodies.foldr (fun body total => body.callCount passes + total) 0

theorem callCount_of_free {program : Program} (free : program.LiteralFree)
    (passes : Call → Bool) :
    program.callCount passes = program.calls.countP fun site => passes site.call := by
  unfold LiteralFree at free
  unfold callCount calls
  generalize program.bodies = bodies at free ⊢
  induction bodies with
  | nil => rfl
  | cons body rest ih =>
      have here := free body (List.mem_cons_self ..)
      have later := ih fun other member => free other (List.mem_cons_of_mem _ member)
      rw [List.foldr_cons, List.flatMap_cons, List.countP_append, later,
        Block.callCount_of_free here]

theorem calls_classifiedThroughout (program : Program) :
    program.classifiedThroughout.calls =
      program.calls.map fun site => ⟨site.ident, program.classify site.call⟩ := by
  simp only [calls, bodies_classifiedThroughout, List.flatMap_map, List.map_flatMap,
    Block.callsAt_mapCalls_same]

theorem literalFree_classifiedThroughout {program : Program} (free : program.LiteralFree) :
    program.classifiedThroughout.LiteralFree := by
  intro block member
  rw [bodies_classifiedThroughout] at member
  obtain ⟨body, inProgram, rfl⟩ := List.mem_map.mp member
  rw [Block.literalFree_iff, Block.firstLiteral?_mapCalls, ← Block.literalFree_iff]
  exact free body inProgram

/-- The census of a successful classification counts the calls of each kind and the marked
functions in the program that is left. Each call of the program before is counted once, and a
function that was marked before still is. -/
theorem census_counts_result {program : Program} {census : CallCensus}
    (succeeds : program.classifyCalls.outcome = .ok census) :
    let result := program.classifyCalls.program
    census.known = result.callCount (fun call => call.kind = .known) ∧
      census.closure = result.callCount (fun call => call.kind = .closure) ∧
      census.external = result.callCount (fun call => call.kind = .external) ∧
      census.known + census.closure + census.external = program.callCount (fun _ => true) ∧
      census.recursiveFunctions =
        result.functions.entries.countP (fun entry => entry.2.isRecursive) ∧
      ∀ key function, program.functions.get? key = some function →
        function.isRecursive = true →
          ∃ after, result.functions.get? key = some after ∧ after.isRecursive = true := by
  intro result
  obtain ⟨left, counted⟩ := classifyCalls_of_ok succeeds
  have free : program.LiteralFree := classifyCalls_ok_iff.mp ⟨census, succeeds⟩
  have freeAfter := literalFree_classifiedThroughout free
  have settled : ∀ site ∈ program.classifiedThroughout.calls,
      site.call.kind ≠ .unclassified := by
    intro site member
    rw [calls_classifiedThroughout] at member
    obtain ⟨before, _, rfl⟩ := List.mem_map.mp member
    exact kind_classify_ne program before.call
  subst counted
  simp only [result, left, callCount_of_free freeAfter, callCount_of_free free]
  refine ⟨rfl, rfl, rfl, ?_, ?_, ?_⟩
  · rw [CallCensus.total_ofCalls settled, calls_classifiedThroughout, List.length_map,
      List.countP_true]
  · exact List.countP_map
  · intro key function stored marked
    refine ⟨program.functionThroughout key function, ?_, ?_⟩
    · rw [classifiedThroughout, Table.get?_mapEntries_same, stored, Option.map_some]
    · rw [functionThroughout, marked, Bool.true_or]

/-- A program with calls in branches of branches. Its function `f` is stored under another name and
calls that name; `g` was marked before and makes no call. -/
def branching : Program :=
  (((ofEntry
    (.apply "r" .generated ⟨"loop", ["x"], .unclassified⟩
      (.branch "b" .generated "x" .done
        (.apply "p" .generated ⟨"print", ["x"], .external⟩ .done) .done))).insertFunction "loop"
    { name := "f"
      parameters := ["x"]
      body :=
        .branch "b" .generated "x"
          (.branch "c" .generated "x"
            (.apply "s" .generated ⟨"loop", ["x"], .closure⟩ .done)
            (.apply "t" .generated ⟨"k", ["x"], .known⟩ .done)
            (.apply "u" .generated ⟨"f", ["x"], .known⟩ .done))
          .done
          (.apply "v" .generated ⟨"g", ["x"], .unclassified⟩ .done) }).addFunction
    { name := "g", parameters := [], body := .done, isRecursive := true }).addClosure "k" []

theorem census_counts_result_of_branching :
    branching.classifyCalls.outcome =
        .ok { known := 3, closure := 2, external := 1, recursiveFunctions := 2 } ∧
      branching.classifyCalls.program.callCount (fun call => call.kind = .known) = 3 ∧
      branching.classifyCalls.program.callCount (fun call => call.kind = .closure) = 2 ∧
      branching.classifyCalls.program.callCount (fun call => call.kind = .external) = 1 ∧
      branching.callCount (fun _ => true) = 6 ∧
      ∃ after, branching.classifyCalls.program.functions.get? "g" = some after ∧
        after.isRecursive = true := by
  have succeeds : branching.classifyCalls.outcome =
      .ok { known := 3, closure := 2, external := 1, recursiveFunctions := 2 } := by
    rfl
  obtain ⟨known, closure, external, all, -, marks⟩ := census_counts_result succeeds
  exact ⟨succeeds, known.symm, closure.symm, external.symm, all.symm, marks "g" _ rfl rfl⟩

end Program

end SmallMl
