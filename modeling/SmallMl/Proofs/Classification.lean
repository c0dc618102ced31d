import SmallMl.Calls.Classification
import SmallMl.Proofs.Places

/-!
# What a classification does

A classification stops at the first function literal it meets, or else at the end of the entry
block, and has then classified the calls before that place. Main statement: it succeeds where no
literal is in reach, and each call has the kind that the two tables give it.
-/

namespace SmallMl

namespace Program

/-- The number of the body in which a classification ends. -/
def stopBody (program : Program) : Nat :=
  program.functions.entries.findIdx fun entry => entry.2.body.firstLiteral?.isSome

/-- The place at which a classification ends: the first literal, or the end of the entry block. -/
def stop (program : Program) : Place where
  body := program.stopBody
  station := (program.bodies[program.stopBody]?).elim 0 Block.reach

theorem callsItself_visit (program : Program) (key : Name) (function : Function) :
    (program.visit key function).callsItself =
      (function.body.traversal.take function.body.reach).any (Station.calls key) := by
  rw [Block.take_reach]
  simp only [Visit.callsItself, visit, Block.walk_calls, List.any_map, Station.callsAt,
    List.any_filterMap]
  rfl

theorem result_visit (program : Program) (key : Name) (function : Function) :
    (program.visit key function).result =
      program.functionUpTo function.body.reach key function := by
  rw [Visit.result, callsItself_visit]
  simp only [functionUpTo, visit, Block.walk_block]

theorem stop_of_function {program : Program} {body : Nat} {key : Name} {function : Function}
    (found : program.functions.entries[body]? = some (key, function))
    (last : program.stopBody = body) : program.stop = ⟨body, function.body.reach⟩ := by
  simp only [stop, last, bodies_function found, Option.elim_some]

theorem visitedFunctions_eq (program : Program) :
    program.visitedFunctions =
      program.functions.mapEntries (program.functionBefore program.stop) := by
  have ends : (fun entry : Name × Function =>
      (program.visit entry.1 entry.2).walk.stop.isSome) =
        fun entry => entry.2.body.firstLiteral?.isSome := by
    funext entry
    simp only [visit, Block.walk_stop]
  apply Table.ext_entries
  simp only [visitedFunctions, Table.mapThrough, Table.mapEntries, Table.changeThrough_eq_mapIdx,
    ends]
  rw [List.mapIdx_eq_mapIdx_iff]
  intro body inside
  have found := List.getElem?_eq_getElem inside
  change (if body ≤ program.stopBody then _ else _) = _
  rcases Nat.lt_trichotomy body program.stopBody with earlier | here | later
  · have free := List.not_of_lt_findIdx earlier
    simp only [Option.isSome_eq_false_iff, Option.isNone_iff_eq_none] at free
    rw [if_pos (Nat.le_of_lt earlier), functionBefore_earlier earlier, result_visit,
      functionUpTo_of_free program _ free]
  · rw [if_pos (Nat.le_of_eq here), stop_of_function found here.symm, functionBefore_here,
      result_visit]
    rfl
  · rw [if_neg (by omega), functionBefore_later later]

/-- What a list of visits reports is what the first body with a literal holds. -/
theorem leftover_visitsTo (program : Program) (entries : List (Name × Function)) :
    (program.visitsTo entries).findSome? Visit.leftover? =
      entries.findSome? fun entry =>
        entry.2.body.firstLiteral?.map fun site => ⟨site.ident, some entry.1, site.span⟩ := by
  induction entries with
  | nil => rfl
  | cons entry rest ih =>
      obtain ⟨key, function⟩ := entry
      simp only [visitsTo, List.findSome?_cons, Visit.leftover?, visit, Block.walk_stop]
      cases function.body.firstLiteral? with
      | some site => rfl
      | none => exact ih

/-- The first literal of the program, with the name of the function that it stands in. -/
def firstLeftover? (program : Program) : Option LeftoverLiteral :=
  (program.functions.entries.findSome? fun entry =>
    entry.2.body.firstLiteral?.map fun site => ⟨site.ident, some entry.1, site.span⟩).or
  (program.entry.firstLiteral?.map fun site => ⟨site.ident, none, site.span⟩)

theorem stopBody_lt {program : Program} {leftover : LeftoverLiteral}
    (found : program.visits.findSome? Visit.leftover? = some leftover) :
    program.stopBody < program.functions.entries.length := by
  rw [visits, leftover_visitsTo] at found
  obtain ⟨entry, member, here⟩ := List.exists_of_findSome?_eq_some found
  obtain ⟨site, literal, _⟩ := Option.map_eq_some_iff.mp here
  exact List.findIdx_lt_length_of_exists ⟨entry, member, by simp [literal]⟩

/-- Where no function holds a literal, a classification ends in the entry block. -/
theorem stop_of_entry {program : Program}
    (free : program.visits.findSome? Visit.leftover? = none) :
    program.stop = ⟨program.functions.entries.length, program.entry.reach⟩ := by
  rw [visits, leftover_visitsTo, List.findSome?_eq_none_iff] at free
  have last : program.stopBody = program.functions.entries.length := by
    apply List.findIdx_eq_length.mpr
    intro entry member
    have here := Option.map_eq_none_iff.mp (free entry member)
    simp only [here, Option.isSome_none]
  simp only [stop, last, bodies_entry, Option.elim_some]

theorem classifyCalls_program (program : Program) :
    program.classifyCalls.program = program.classifiedBefore program.stop := by
  cases found : program.visits.findSome? Visit.leftover? with
  | some leftover =>
      have early : ∀ station,
          ¬ (⟨program.functions.entries.length, station⟩ : Place) < program.stop := by
        intro station less
        have short := stopBody_lt found
        rcases less with less | ⟨same, _⟩
        · exact absurd less (Nat.lt_asymm short)
        · exact absurd same (Nat.ne_of_gt short)
      simp only [classifyCalls, found, visitedFunctions_eq, classifiedBefore, early, if_false,
        Block.mapCalls_id]
  | none =>
      have walked : (program.entry.walk program.classify).block =
          (program.classifiedBefore program.stop).entry := by
        rw [Block.walk_block, stop_of_entry found]
        simp only [classifiedBefore, Place.lt_iff_of_body]
        rfl
      have functions : program.visitedFunctions =
          (program.classifiedBefore program.stop).functions := visitedFunctions_eq program
      simp only [classifyCalls, found]
      cases (program.entry.walk program.classify).stop with
      | some site => simp only [walked, functions]; rfl
      | none => simp only [walked, functions]; rfl

/-- A classification fails with the first literal if there is one. -/
theorem classifyCalls_outcome_of_leftover {program : Program} {leftover : LeftoverLiteral}
    (found : program.firstLeftover? = some leftover) :
    program.classifyCalls.outcome = .error leftover := by
  have reported := leftover_visitsTo program program.functions.entries
  rw [firstLeftover?, ← reported] at found
  change ((program.visits.findSome? Visit.leftover?).or _) = _ at found
  cases early : program.visits.findSome? Visit.leftover? with
  | some first =>
      rw [early] at found
      cases found
      simp only [classifyCalls, early]
  | none =>
      rw [early, Option.none_or] at found
      obtain ⟨site, literal, rfl⟩ := Option.map_eq_some_iff.mp found
      simp only [classifyCalls, early, Block.walk_stop, literal]

theorem firstLeftover?_eq_none_iff {program : Program} :
    program.firstLeftover? = none ↔ program.LiteralFree := by
  simp only [firstLeftover?, Option.or_eq_none_iff, List.findSome?_eq_none_iff,
    Option.map_eq_none_iff, ← Block.literalFree_iff]
  constructor
  · rintro ⟨functions, entry⟩ body member
    rcases mem_bodies.mp member with ⟨function, stored, rfl⟩ | rfl
    · exact functions function stored
    · exact entry
  · intro free
    refine ⟨?_, free _ (mem_bodies.mpr (Or.inr rfl))⟩
    intro function stored
    exact free _ (mem_bodies.mpr (Or.inl ⟨function, stored, rfl⟩))

theorem visitsTo_of_free {program : Program} {entries : List (Name × Function)}
    (free : ∀ entry ∈ entries, entry.2.body.LiteralFree) :
    program.visitsTo entries = entries.map fun entry => program.visit entry.1 entry.2 := by
  induction entries with
  | nil => rfl
  | cons entry rest ih =>
      obtain ⟨key, function⟩ := entry
      have here := Block.literalFree_iff.mp (free _ (List.mem_cons_self ..))
      have later := ih fun other member => free other (List.mem_cons_of_mem _ member)
      have goesOn : (program.visit key function).walk.stop.isSome = false := by
        simp only [visit, Block.walk_stop, here, Option.isSome_none]
      simp only [visitsTo, goesOn, Bool.false_eq_true, if_false, List.map_cons, later]

/-- Without a literal, neither a visit nor the entry block reports one. -/
theorem nothing_reported {program : Program} (free : program.LiteralFree) :
    program.visits.findSome? Visit.leftover? = none ∧ program.entry.firstLiteral? = none := by
  have none := firstLeftover?_eq_none_iff.mpr free
  have reported := leftover_visitsTo program program.functions.entries
  rw [firstLeftover?, ← reported, Option.or_eq_none_iff, Option.map_eq_none_iff] at none
  exact none

theorem visitedFunctions_of_free {program : Program} (free : program.LiteralFree) :
    program.visitedFunctions =
      program.functions.mapEntries fun _ => program.functionThroughout := by
  rw [visitedFunctions_eq, stop_of_entry (nothing_reported free).1]
  apply Table.ext_entries
  simp only [Table.mapEntries]
  rw [List.mapIdx_eq_mapIdx_iff]
  intro body inside
  rw [functionBefore_earlier inside]

theorem classifyCalls_of_free {program : Program} (free : program.LiteralFree) :
    program.classifyCalls.program = program.classifiedThroughout ∧
      program.classifyCalls.outcome =
        .ok (.ofCalls program.classifiedThroughout.calls
          program.classifiedThroughout.functions.values) := by
  obtain ⟨visited, walked⟩ := nothing_reported free
  have functions := visitedFunctions_of_free free
  have entry := Block.mapCalls_of_free walked program.classify
  have bodies : ∀ stored ∈ program.functions.entries, stored.2.body.LiteralFree :=
    fun stored member => free _ (mem_bodies.mpr (Or.inl ⟨stored, member, rfl⟩))
  have calls : program.visits.flatMap (fun visit => visit.walk.calls) ++
      (program.entry.walk program.classify).calls = program.classifiedThroughout.calls := by
    rw [Program.calls, bodies_classifiedThroughout, visits, visitsTo_of_free bodies]
    simp only [Program.bodies, Table.values, List.flatMap_append, List.flatMap_map,
      List.flatMap_cons, List.flatMap_nil, List.append_nil, Block.walk_calls_of_free walked]
    congr 1
    rw [List.flatMap_def, List.flatMap_def]
    congr 1
    apply List.map_congr_left
    intro stored member
    exact Block.walk_calls_of_free (Block.literalFree_iff.mp (bodies stored member)) _
  constructor
  · simp only [classifyCalls, visited, Block.walk_stop, walked, functions, Block.walk_block, entry]
    rfl
  · simp only [classifyCalls, visited, Block.walk_stop, walked, functions, calls]
    rfl

/-- A classification that succeeds has met no literal, and has classified and counted every call. -/
theorem classifyCalls_of_ok {program : Program} {census : CallCensus}
    (succeeds : program.classifyCalls.outcome = .ok census) :
    program.classifyCalls.program = program.classifiedThroughout ∧
      census = .ofCalls program.classifiedThroughout.calls
        program.classifiedThroughout.functions.values := by
  cases found : program.firstLeftover? with
  | some leftover =>
      rw [classifyCalls_outcome_of_leftover found] at succeeds
      exact absurd succeeds (by simp)
  | none =>
      obtain ⟨result, outcome⟩ := classifyCalls_of_free (firstLeftover?_eq_none_iff.mp found)
      rw [outcome] at succeeds
      cases succeeds
      exact ⟨result, rfl⟩

/-- What a classification reports is told from the first literal and from the program with every
call classified. -/
theorem classifyCalls_outcome (program : Program) :
    program.classifyCalls.outcome =
      match program.firstLeftover? with
      | some leftover => .error leftover
      | none => .ok (.ofCalls program.classifiedThroughout.calls
          program.classifiedThroughout.functions.values) := by
  cases found : program.firstLeftover? with
  | some leftover => exact classifyCalls_outcome_of_leftover found
  | none => exact (classifyCalls_of_free (firstLeftover?_eq_none_iff.mp found)).2

theorem classifyCalls_ok_iff {program : Program} :
    (∃ census, program.classifyCalls.outcome = .ok census) ↔ program.LiteralFree := by
  constructor
  · rintro ⟨census, succeeds⟩
    apply firstLeftover?_eq_none_iff.mp
    cases found : program.firstLeftover? with
    | none => rfl
    | some leftover =>
        rw [classifyCalls_outcome_of_leftover found] at succeeds
        exact absurd succeeds (by simp)
  · intro free
    exact ⟨_, (classifyCalls_of_free free).2⟩

/-- A classification without a literal in reach succeeds and settles the kind of every call by the
two tables; a function is recursive if it was so before or a call of its own key is in reach. -/
theorem classifyCalls_settles_every_call (program : Program) :
    let settled (call : Call) : Call :=
      { call with
        kind :=
          if call.kind = .external then .external
          else if call.callee ∈ program.closures then .closure
          else if call.callee ∈ program.functions then .known
          else .closure }
    ((∃ census, program.classifyCalls.outcome = .ok census) ↔
      ∀ body ∈ program.bodies, ∀ station ∈ body.traversal, station.literal? = none) ∧
    ∀ census, program.classifyCalls.outcome = .ok census →
      program.classifyCalls.program =
        { functions := program.functions.mapEntries fun _ key function =>
            { function with
              body := function.body.mapCalls fun _ => settled
              isRecursive :=
                function.isRecursive || function.body.traversal.any (Station.calls key) }
          closures := program.closures
          entry := program.entry.mapCalls fun _ => settled } ∧
      ∀ site ∈ program.classifyCalls.program.calls, site.call.kind ≠ .unclassified := by
  intro settled
  have free_of_ok : ∀ census, program.classifyCalls.outcome = .ok census →
      program.LiteralFree := by
    intro census succeeds
    apply firstLeftover?_eq_none_iff.mp
    cases found : program.firstLeftover? with
    | none => rfl
    | some leftover =>
        rw [classifyCalls_outcome_of_leftover found] at succeeds
        exact absurd succeeds (by simp)
  refine ⟨⟨?_, ?_⟩, ?_⟩
  · rintro ⟨census, succeeds⟩
    exact free_of_ok census succeeds
  · intro free
    exact ⟨_, (classifyCalls_of_free free).2⟩
  · intro census succeeds
    have free := free_of_ok census succeeds
    rw [(classifyCalls_of_free free).1]
    refine ⟨rfl, ?_⟩
    intro site member
    simp only [calls, bodies_classifiedThroughout, List.mem_flatMap, List.mem_map] at member
    obtain ⟨_, ⟨body, _, rfl⟩, inBody⟩ := member
    rw [Block.callsAt_mapCalls_same] at inBody
    obtain ⟨before, _, rfl⟩ := List.mem_map.mp inBody
    exact kind_classify_ne program before.call

/-- A program with two functions. The first is stored under a name that is not its own and is
shadowed by a closure; in one branch it calls its own name, and in the other the runtime under the
name where it is stored. The second calls itself. -/
def shadowing : Program :=
  (((ofEntry (.apply "r" .generated ⟨"loop", ["n"], .known⟩ .done)).insertFunction "loop"
    { name := "step"
      parameters := ["x"]
      body :=
        .branch "b" .generated "x" (.apply "s" .generated ⟨"step", ["x"], .known⟩ .done)
          (.apply "t" .generated ⟨"loop", ["x"], .external⟩ .done) .done }).insertFunction "help"
    { name := "help"
      parameters := []
      body := .apply "h" .generated ⟨"help", [], .closure⟩ .done }).addClosure "loop" ["n"]

theorem classifyCalls_settles_shadowed_calls :
    shadowing.classifyCalls.outcome =
        .ok { known := 1, closure := 2, external := 1, recursiveFunctions := 2 } ∧
      shadowing.classifyCalls.program.calls.map (fun site => (site.ident, site.call.kind)) =
        [("s", .closure), ("t", .external), ("h", .known), ("r", .closure)] ∧
      shadowing.classifyCalls.program.functions.values.map Function.isRecursive = [true, true] := by
  have succeeds : shadowing.classifyCalls.outcome =
      .ok { known := 1, closure := 2, external := 1, recursiveFunctions := 2 } := by
    rfl
  have result := ((classifyCalls_settles_every_call shadowing).2 _ succeeds).1
  refine ⟨succeeds, ?_, ?_⟩
  · rw [result]
    decide +kernel
  · rw [result]
    decide +kernel

end Program

end SmallMl
