import SmallMl.Proofs.Classification

/-!
# Where a classification fails

Main statement: a classification that meets function literals reports the first of them, and the
program it leaves is classified before that literal and nowhere else.
-/

namespace SmallMl

namespace Program

/-- The first literal in the order of the places. -/
def FirstLiteral (program : Program) (place : Place) (site : LiteralSite) : Prop :=
  (program.station? place).bind Station.literal? = some site ∧
    ∀ earlier < place, ∀ station, program.station? earlier = some station →
      station.literal? = none

theorem literal?_before_stop {program : Program} {place : Place} {station : Station}
    (before : place < program.stop) (found : program.station? place = some station) :
    station.literal? = none := by
  obtain ⟨body, inBody, inside⟩ := Option.bind_eq_some_iff.mp found
  rcases before with earlier | ⟨same, earlier⟩
  · have short : place.body < program.functions.entries.length :=
      Nat.lt_of_lt_of_le earlier List.findIdx_le_length
    have free := List.not_of_lt_findIdx earlier
    simp only [Option.isSome_eq_false_iff, Option.isNone_iff_eq_none] at free
    rw [bodies_function (List.getElem?_eq_getElem short)] at inBody
    cases inBody
    exact Block.literalFree_iff.mpr free station (List.mem_of_getElem? inside)
  · have here : program.stop.station = body.reach := by
      rw [same] at inBody
      simp only [stop] at inBody ⊢
      rw [inBody, Option.elim_some]
    exact Block.literal?_of_lt_reach (here ▸ earlier) inside

theorem literal?_at_stop {program : Program} {leftover : LeftoverLiteral}
    (found : program.firstLeftover? = some leftover) :
    (program.station? program.stop).bind Station.literal? =
        some ⟨leftover.ident, leftover.span⟩ ∧
      program.owner? program.stop.body = leftover.owner := by
  have reported := leftover_visitsTo program program.functions.entries
  rw [firstLeftover?, Option.or_eq_some_iff] at found
  rcases found with inFunction | ⟨noFunction, inEntry⟩
  · obtain ⟨before, ⟨key, function⟩, after, split, here, free⟩ :=
      List.findSome?_eq_some_iff.mp inFunction
    obtain ⟨site, literal, rfl⟩ := Option.map_eq_some_iff.mp here
    have stored : program.functions.entries[before.length]? = some (key, function) := by
      simp [split]
    have last : program.stopBody = before.length := by
      have none : before.findIdx (fun entry => entry.2.body.firstLiteral?.isSome) =
          before.length := by
        apply List.findIdx_eq_length_of_false
        intro entry member
        have missing := Option.map_eq_none_iff.mp (free entry member)
        simp only [missing, Option.isSome_none]
      rw [stopBody, split, List.findIdx_append, none, if_neg (Nat.lt_irrefl _), List.findIdx_cons]
      simp [literal]
    rw [stop_of_function stored last]
    refine ⟨?_, ?_⟩
    · rw [station?, bodies_function stored]
      exact Block.literal?_at_reach literal
    · simp [owner?, Table.keys, stored]
  · rw [← reported] at noFunction
    obtain ⟨site, literal, rfl⟩ := Option.map_eq_some_iff.mp inEntry
    rw [stop_of_entry noFunction]
    refine ⟨?_, ?_⟩
    · rw [station?, bodies_entry]
      exact Block.literal?_at_reach literal
    · simp [owner?, Table.keys]

/-- There is one first literal, and a classification stops there. -/
theorem FirstLiteral.eq_stop {program : Program} {place : Place} {site : LiteralSite}
    (first : program.FirstLiteral place site) :
    place = program.stop ∧
      program.firstLeftover? = some ⟨site.ident, program.owner? place.body, site.span⟩ := by
  obtain ⟨literal, earliest⟩ := first
  obtain ⟨station, here, isLiteral⟩ := Option.bind_eq_some_iff.mp literal
  cases found : program.firstLeftover? with
  | none =>
      obtain ⟨body, inBody, inside⟩ := Option.bind_eq_some_iff.mp here
      have free := firstLeftover?_eq_none_iff.mp found body (List.mem_of_getElem? inBody)
      rw [free station (List.mem_of_getElem? inside)] at isLiteral
      exact absurd isLiteral (by simp)
  | some leftover =>
      obtain ⟨atStop, owner⟩ := literal?_at_stop found
      obtain ⟨other, there, otherLiteral⟩ := Option.bind_eq_some_iff.mp atStop
      rcases Place.trichotomy place program.stop with before | rfl | beyond
      · rw [literal?_before_stop before here] at isLiteral
        exact absurd isLiteral (by simp)
      · rw [literal] at atStop
        cases atStop
        exact ⟨rfl, by rw [owner]⟩
      · rw [earliest _ beyond other there] at otherLiteral
        exact absurd otherLiteral (by simp)

/-- A classification that reports a literal stops at the first one. -/
theorem firstLiteral_stop {program : Program} {leftover : LeftoverLiteral}
    (found : program.firstLeftover? = some leftover) :
    program.FirstLiteral program.stop ⟨leftover.ident, leftover.span⟩ := by
  refine ⟨(literal?_at_stop found).1, ?_⟩
  intro earlier before station here
  exact literal?_before_stop before here

/-- A classification that meets a literal reports the first one, classifies the calls before it and
leaves everything else as it was. -/
theorem classifyCalls_stops_at_first_literal (program : Program) :
    let settled (call : Call) : Call :=
      { call with
        kind :=
          if call.kind = .external then .external
          else if call.callee ∈ program.closures then .closure
          else if call.callee ∈ program.functions then .known
          else .closure }
    (¬ program.LiteralFree → ∃ place site, program.FirstLiteral place site) ∧
    ∀ place site, program.FirstLiteral place site →
      program.classifyCalls.outcome =
          .error ⟨site.ident, program.owner? place.body, site.span⟩ ∧
        program.classifyCalls.program = program.classifiedBefore place ∧
        ∀ other, program.classifyCalls.program.station? other =
          (program.station? other).map fun station =>
            if other < place then station.mapCall settled else station := by
  intro settled
  refine ⟨?_, ?_⟩
  · intro reachable
    cases found : program.firstLeftover? with
    | none => exact absurd (firstLeftover?_eq_none_iff.mp found) reachable
    | some leftover => exact ⟨_, _, firstLiteral_stop found⟩
  · intro place site first
    obtain ⟨rfl, found⟩ := first.eq_stop
    have result := classifyCalls_program program
    refine ⟨classifyCalls_outcome_of_leftover found, result, ?_⟩
    intro other
    rw [result]
    exact station?_classifiedBefore program program.stop other

/-- A program whose function `f` makes a call with a literal behind it in one branch, and another
call in the other. -/
def interrupted : Program :=
  (ofEntry (.apply "r" .generated ⟨"f", ["x"], .known⟩ .done)).addFunction
    { name := "f"
      parameters := ["x"]
      body :=
        .branch "b" .generated "x"
          (.apply "t" .generated ⟨"f", ["x"], .unclassified⟩
            (.literal "g" ⟨⟨3, 9⟩, ⟨3, 21⟩⟩ ["y"]
              (.apply "u" .generated ⟨"f", ["y"], .unclassified⟩ .done) .done))
          (.apply "e" .generated ⟨"f", ["x"], .unclassified⟩ .done) .done }

/-- The literal of the interrupted program stands in the body of its function, third from the
front. -/
theorem classifyCalls_stops_in_branch :
    ¬ interrupted.LiteralFree ∧
      interrupted.FirstLiteral ⟨0, 2⟩ ⟨"g", ⟨⟨3, 9⟩, ⟨3, 21⟩⟩⟩ ∧
      interrupted.classifyCalls.outcome = .error ⟨"g", some "f", ⟨⟨3, 9⟩, ⟨3, 21⟩⟩⟩ ∧
      interrupted.classifyCalls.program.station? ⟨0, 1⟩ =
        some (.call "t" .generated ⟨"f", ["x"], .known⟩) ∧
      interrupted.classifyCalls.program.station? ⟨0, 3⟩ =
        some (.call "e" .generated ⟨"f", ["x"], .unclassified⟩) := by
  have found : interrupted.firstLeftover? = some ⟨"g", some "f", ⟨⟨3, 9⟩, ⟨3, 21⟩⟩⟩ := by
    decide +kernel
  have atStop : interrupted.stop = ⟨0, 2⟩ := by decide +kernel
  have first := firstLiteral_stop found
  rw [atStop] at first
  obtain ⟨reported, -, stations⟩ :=
    (classifyCalls_stops_at_first_literal interrupted).2 _ _ first
  refine ⟨?_, first, reported, ?_, ?_⟩
  · intro free
    rw [firstLeftover?_eq_none_iff.mpr free] at found
    exact absurd found (by simp)
  · rw [stations]
    decide +kernel
  · rw [stations]
    decide +kernel

end Program

end SmallMl
