import SmallMl.Calls.Walk

/-!
# Traversals of blocks

The stations of a block are its instructions in the order in which a walk may reach them: those of
the blocks of a branch stand behind the branch, first the ones for true, and the body of a function
literal has none. Main statement: a walk changes the calls at the stations before the first literal
and nothing else, and that literal is what stops it.
-/

namespace SmallMl

/-- An instruction as a station of its block. A branch stands here without its blocks. -/
inductive Station where
  | compute (ident : Name) (span : Span) (operation : Operation)
  | call (ident : Name) (span : Span) (call : Call)
  | branch (ident : Name) (span : Span) (condition : Name)
  | literal (ident : Name) (span : Span) (parameters : List Name) (body : Block)
  deriving DecidableEq, Repr

namespace Station

/-- The literal that stands at the station. -/
def literal? : Station → Option LiteralSite
  | literal ident span _ _ => some ⟨ident, span⟩
  | _ => none

/-- The call that is made at the station. -/
def call? : Station → Option CallSite
  | call ident _ made => some ⟨ident, made⟩
  | _ => none

/-- Whether a call of the callee is made at the station, of whatever kind. -/
def calls (callee : Name) (station : Station) : Bool :=
  station.call?.any fun site => site.call.callee = callee

/-- The station with its call changed. -/
def mapCall (change : Call → Call) : Station → Station
  | call ident span made => call ident span (change made)
  | station => station

theorem mapCall_id (station : Station) : (station.mapCall fun call => call) = station := by
  cases station <;> rfl

@[simp]
theorem literal?_mapCall (change : Call → Call) (station : Station) :
    (station.mapCall change).literal? = station.literal? := by
  cases station <;> rfl

@[simp]
theorem call?_mapCall (change : Call → Call) (station : Station) :
    (station.mapCall change).call? =
      station.call?.map fun site => ⟨site.ident, change site.call⟩ := by
  cases station <;> rfl

/-- A change that keeps the callees keeps who is called. -/
theorem calls_mapCall {change : Call → Call}
    (keeps : ∀ call, (change call).callee = call.callee) (callee : Name) (station : Station) :
    (station.mapCall change).calls callee = station.calls callee := by
  cases station <;> simp [calls, call?, mapCall, keeps]

/-- The stations before the first literal. -/
def beforeLiteral (stations : List Station) : List Station :=
  stations.takeWhile fun station => station.literal?.isNone

/-- The calls that are made at some stations. -/
def callsAt (stations : List Station) : List CallSite :=
  stations.filterMap call?

@[simp]
theorem callsAt_append (first second : List Station) :
    callsAt (first ++ second) = callsAt first ++ callsAt second :=
  List.filterMap_append

theorem beforeLiteral_of_free {stations : List Station}
    (free : ∀ station ∈ stations, station.literal? = none) :
    beforeLiteral stations = stations := by
  induction stations with
  | nil => rfl
  | cons station rest ih =>
      have here := free station (List.mem_cons_self ..)
      have later := ih fun other member => free other (List.mem_cons_of_mem _ member)
      simp only [beforeLiteral, List.takeWhile_cons, here, Option.isNone_none, if_true]
      exact congrArg _ later

theorem callsAt_map (change : Call → Call) (stations : List Station) :
    callsAt (stations.map (mapCall change)) =
      (callsAt stations).map fun site => ⟨site.ident, change site.call⟩ := by
  rw [callsAt, List.filterMap_map, callsAt, List.map_filterMap]
  congr 1
  funext station
  exact call?_mapCall change station

/-- A change of the calls leaves the literals where they are. -/
theorem beforeLiteral_mapIdx (change : Nat → Call → Call) (stations : List Station) :
    beforeLiteral (stations.mapIdx fun place station => station.mapCall (change place)) =
      (beforeLiteral stations).mapIdx fun place station => station.mapCall (change place) := by
  induction stations generalizing change with
  | nil => rfl
  | cons station rest ih =>
      have later := ih fun place => change (place + 1)
      simp only [beforeLiteral] at later ⊢
      simp only [List.mapIdx_cons, List.takeWhile_cons, literal?_mapCall]
      split
      · rw [List.mapIdx_cons, later]
      · rfl

theorem beforeLiteral_append_of_free {first second : List Station}
    (free : first.findSome? literal? = none) :
    beforeLiteral (first ++ second) = first ++ beforeLiteral second := by
  apply List.takeWhile_append_of_pos
  intro station member
  simp only [List.findSome?_eq_none_iff.mp free station member, Option.isNone_none]

theorem beforeLiteral_append_of_literal {first second : List Station} {site : LiteralSite}
    (found : first.findSome? literal? = some site) :
    beforeLiteral (first ++ second) = beforeLiteral first := by
  obtain ⟨before, station, after, rfl, literal, free⟩ := List.findSome?_eq_some_iff.mp found
  have none := List.findSome?_eq_none_iff.mpr free
  rw [List.append_assoc, beforeLiteral_append_of_free none, beforeLiteral_append_of_free none]
  simp [beforeLiteral, literal]

end Station

namespace Block

/-- The stations of a block, in order. -/
def traversal : Block → List Station
  | done => []
  | compute ident span operation next => .compute ident span operation :: next.traversal
  | apply ident span call next => .call ident span call :: next.traversal
  | branch ident span condition onTrue onFalse next =>
      .branch ident span condition ::
        (onTrue.traversal ++ onFalse.traversal ++ next.traversal)
  | literal ident span parameters body next =>
      .literal ident span parameters body :: next.traversal

/-- The block with the call at each station changed; the change is told the station's place. -/
def mapCalls (change : Nat → Call → Call) : Block → Block
  | done => done
  | compute ident span operation next =>
      compute ident span operation (next.mapCalls fun place => change (place + 1))
  | apply ident span call next =>
      apply ident span (change 0 call) (next.mapCalls fun place => change (place + 1))
  | branch ident span condition onTrue onFalse next =>
      let beyondTrue := onTrue.traversal.length + 1
      let beyondBoth := (onTrue.traversal ++ onFalse.traversal).length + 1
      branch ident span condition (onTrue.mapCalls fun place => change (place + 1))
        (onFalse.mapCalls fun place => change (place + beyondTrue))
        (next.mapCalls fun place => change (place + beyondBoth))
  | literal ident span parameters body next =>
      literal ident span parameters body (next.mapCalls fun place => change (place + 1))

/-- No walk can reach a function literal in the block. -/
def LiteralFree (block : Block) : Prop :=
  ∀ station ∈ block.traversal, station.literal? = none

instance (block : Block) : Decidable block.LiteralFree :=
  inferInstanceAs (Decidable (∀ station ∈ block.traversal, station.literal? = none))

/-- The first function literal that a walk can reach. -/
def firstLiteral? (block : Block) : Option LiteralSite :=
  block.traversal.findSome? Station.literal?

theorem literalFree_iff {block : Block} : block.LiteralFree ↔ block.firstLiteral? = none :=
  List.findSome?_eq_none_iff.symm

/-- The number of stations before the first literal. -/
def reach (block : Block) : Nat :=
  (Station.beforeLiteral block.traversal).length

theorem traversal_mapCalls (change : Nat → Call → Call) (block : Block) :
    (block.mapCalls change).traversal =
      block.traversal.mapIdx fun place station => station.mapCall (change place) := by
  induction block generalizing change with
  | done => rfl
  | compute ident span operation next ih =>
      simp only [mapCalls, traversal, List.mapIdx_cons, ih]
      rfl
  | apply ident span call next ih =>
      simp only [mapCalls, traversal, List.mapIdx_cons, ih]
      rfl
  | branch ident span condition onTrue onFalse next ihTrue ihFalse ih =>
      simp only [mapCalls, traversal, List.mapIdx_cons, List.mapIdx_append, ihTrue, ihFalse, ih]
      rfl
  | literal ident span parameters body next _ ih =>
      simp only [mapCalls, traversal, List.mapIdx_cons, ih]
      rfl

@[simp]
theorem length_traversal_mapCalls (change : Nat → Call → Call) (block : Block) :
    (block.mapCalls change).traversal.length = block.traversal.length := by
  rw [traversal_mapCalls, List.length_mapIdx]

theorem traversal_mapCalls_same (change : Call → Call) (block : Block) :
    (block.mapCalls fun _ => change).traversal = block.traversal.map (Station.mapCall change) := by
  rw [traversal_mapCalls]
  exact List.ext_getElem? fun place => by simp

theorem callsAt_mapCalls_same (change : Call → Call) (block : Block) :
    Station.callsAt (block.mapCalls fun _ => change).traversal =
      (Station.callsAt block.traversal).map fun site => ⟨site.ident, change site.call⟩ := by
  rw [traversal_mapCalls_same, Station.callsAt_map]

/-- Only what a change does at the places of a block matters. -/
theorem mapCalls_congr {first second : Nat → Call → Call} {block : Block}
    (agree : ∀ place < block.traversal.length, first place = second place) :
    block.mapCalls first = block.mapCalls second := by
  induction block generalizing first second with
  | done => rfl
  | compute ident span operation next ih =>
      simp only [traversal, List.length_cons] at agree
      simp only [mapCalls]
      rw [ih fun place inside => agree (place + 1) (by omega)]
  | apply ident span call next ih =>
      simp only [traversal, List.length_cons] at agree
      simp only [mapCalls]
      rw [ih fun place inside => agree (place + 1) (by omega), agree 0 (by omega)]
  | branch ident span condition onTrue onFalse next ihTrue ihFalse ih =>
      simp only [traversal, List.length_cons, List.length_append] at agree
      simp only [mapCalls, List.length_append]
      rw [ihTrue fun place inside => agree (place + 1) (by omega),
        ihFalse fun place inside => agree (place + (onTrue.traversal.length + 1)) (by omega),
        ih fun place inside => agree _ (by omega)]
  | literal ident span parameters body next _ ih =>
      simp only [traversal, List.length_cons] at agree
      simp only [mapCalls]
      rw [ih fun place inside => agree (place + 1) (by omega)]

theorem mapCalls_id (block : Block) : (block.mapCalls fun _ call => call) = block := by
  induction block with
  | done => rfl
  | compute _ _ _ _ ih => simp only [mapCalls, ih]
  | apply _ _ _ _ ih => simp only [mapCalls, ih]
  | branch _ _ _ _ _ _ ihTrue ihFalse ih => simp only [mapCalls, ihTrue, ihFalse, ih]
  | literal _ _ _ _ _ _ ih => simp only [mapCalls, ih]

/-- One change after the other is the change of both. -/
theorem mapCalls_mapCalls (first second : Nat → Call → Call) (block : Block) :
    (block.mapCalls first).mapCalls second =
      block.mapCalls fun place call => second place (first place call) := by
  induction block generalizing first second with
  | done => rfl
  | compute _ _ _ _ ih => simp only [mapCalls, ih]
  | apply _ _ _ _ ih => simp only [mapCalls, ih]
  | branch _ _ _ _ _ _ ihTrue ihFalse ih =>
      simp only [mapCalls, ihTrue, ihFalse, ih, List.length_append, length_traversal_mapCalls]
  | literal _ _ _ _ _ _ ih => simp only [mapCalls, ih]

theorem traversal_append (first second : Block) :
    (first ++ second).traversal = first.traversal ++ second.traversal := by
  change (first.append second).traversal = _
  induction first with
  | done => rfl
  | compute _ _ _ _ ih => exact congrArg _ ih
  | apply _ _ _ _ ih => exact congrArg _ ih
  | branch _ _ _ _ _ _ _ _ ih =>
      simp only [append, traversal, ih, List.cons_append, List.append_assoc]
  | literal _ _ _ _ _ _ ih => exact congrArg _ ih

theorem mapCalls_append (change : Call → Call) (first second : Block) :
    ((first ++ second).mapCalls fun _ => change) =
      (first.mapCalls fun _ => change) ++ second.mapCalls fun _ => change := by
  change ((first.append second).mapCalls fun _ => change) =
    (first.mapCalls fun _ => change).append _
  induction first with
  | done => rfl
  | compute _ _ _ _ ih => exact congrArg _ ih
  | apply _ _ _ _ ih => exact congrArg _ ih
  | branch _ _ _ _ _ _ _ _ ih => exact congrArg _ ih
  | literal _ _ _ _ _ _ ih => exact congrArg _ ih

theorem firstLiteral?_mapCalls (change : Nat → Call → Call) (block : Block) :
    (block.mapCalls change).firstLiteral? = block.firstLiteral? := by
  rw [firstLiteral?, firstLiteral?, traversal_mapCalls]
  generalize block.traversal = stations
  induction stations generalizing change with
  | nil => rfl
  | cons station rest ih =>
      simp only [List.mapIdx_cons, List.findSome?_cons, Station.literal?_mapCall,
        ih fun place => change (place + 1)]

theorem reach_mapCalls (change : Nat → Call → Call) (block : Block) :
    (block.mapCalls change).reach = block.reach := by
  rw [reach, reach, traversal_mapCalls, Station.beforeLiteral_mapIdx, List.length_mapIdx]

theorem take_reach (block : Block) :
    block.traversal.take block.reach = Station.beforeLiteral block.traversal :=
  (List.prefix_iff_eq_take.mp (List.takeWhile_prefix _)).symm

/-- The stations in reach are no literals. -/
theorem literal?_of_lt_reach {block : Block} {place : Nat} {station : Station}
    (before : place < block.reach) (found : block.traversal[place]? = some station) :
    station.literal? = none := by
  have member : station ∈ Station.beforeLiteral block.traversal := by
    rw [← take_reach]
    exact List.mem_of_getElem? (by rw [List.getElem?_take_of_lt before, found])
  have free := List.all_eq_true.mp List.all_takeWhile station member
  simpa using free

/-- The first literal stands behind the stations before it. -/
theorem literal?_at_reach {block : Block} {site : LiteralSite}
    (found : block.firstLiteral? = some site) :
    block.traversal[block.reach]?.bind Station.literal? = some site := by
  obtain ⟨before, station, after, split, literal, free⟩ := List.findSome?_eq_some_iff.mp found
  have reaches : block.reach = before.length := by
    rw [reach, split,
      Station.beforeLiteral_append_of_free (List.findSome?_eq_none_iff.mpr free)]
    simp [Station.beforeLiteral, literal]
  rw [reaches, split]
  simpa using literal

/-! ## Walks -/

theorem walk_stop (change : Call → Call) (block : Block) :
    (block.walk change).stop = block.firstLiteral? := by
  induction block with
  | done => rfl
  | compute _ _ _ _ ih => exact ih
  | apply _ _ _ _ ih => exact ih
  | branch _ _ _ onTrue onFalse next ihTrue ihFalse ih =>
      simp only [firstLiteral?] at ihTrue ihFalse ih ⊢
      simp only [walk, traversal, List.findSome?_cons, List.findSome?_append, Station.literal?,
        ← ihTrue, ← ihFalse, ← ih]
      cases (onTrue.walk change).stop with
      | some site => rfl
      | none =>
          simp only [Walk.unlessStopped, Option.none_or]
          cases (onFalse.walk change).stop <;> rfl
  | literal _ _ _ _ _ => rfl

/-- A change of the calls at the places before a limit. -/
def changeBefore (limit : Nat) (change : Call → Call) (place : Nat) (call : Call) : Call :=
  if place < limit then change call else call

/-- Moving the places and the limit alike changes nothing. -/
theorem changeBefore_add (limit first : Nat) (change : Call → Call) :
    (fun place => changeBefore (limit + first) change (place + first)) =
      changeBefore limit change := by
  funext place call
  simp only [changeBefore, Nat.add_lt_add_iff_right]

theorem beforeLiteral_branch (ident : Name) (span : Span) (condition : Name)
    (rest : List Station) :
    Station.beforeLiteral (.branch ident span condition :: rest) =
      .branch ident span condition :: Station.beforeLiteral rest := rfl

theorem reach_le_length (block : Block) : block.reach ≤ block.traversal.length :=
  (List.takeWhile_sublist _).length_le

theorem reach_of_free {block : Block} (free : block.firstLiteral? = none) :
    block.reach = block.traversal.length := by
  rw [reach, Station.beforeLiteral_of_free (literalFree_iff.mpr free)]

/-- A change that starts beyond a block leaves it as it is. -/
theorem mapCalls_of_beyond {limit first : Nat} (beyond : limit ≤ first) (change : Call → Call)
    (block : Block) :
    (block.mapCalls fun place => changeBefore limit change (place + first)) = block := by
  have same := mapCalls_id block
  rwa [mapCalls_congr] at same
  intro place _
  funext call
  exact (if_neg (by omega)).symm

/-- A change that ends beyond a block reaches all its calls. -/
theorem mapCalls_of_within {limit first : Nat} {block : Block}
    (within : first + block.traversal.length ≤ limit) (change : Call → Call) :
    (block.mapCalls fun place => changeBefore limit change (place + first)) =
      block.mapCalls fun _ => change := by
  apply mapCalls_congr
  intro place inside
  funext call
  exact if_pos (by omega)

theorem mapCalls_of_free {block : Block} (free : block.firstLiteral? = none)
    (change : Call → Call) :
    block.mapCalls (changeBefore block.reach change) = block.mapCalls fun _ => change := by
  have whole := reach_of_free free
  exact @mapCalls_of_within block.reach 0 block (by omega) change

/-! A walk of a branch ends in one of its two blocks or in the block behind it. -/

theorem reach_branch_of_true {ident : Name} {span : Span} {condition : Name}
    {onTrue onFalse next : Block} {site : LiteralSite} (found : onTrue.firstLiteral? = some site) :
    (branch ident span condition onTrue onFalse next).reach = onTrue.reach + 1 := by
  rw [reach, traversal, List.append_assoc, beforeLiteral_branch,
    Station.beforeLiteral_append_of_literal found, List.length_cons, reach]

theorem reach_branch_of_false {ident : Name} {span : Span} {condition : Name}
    {onTrue onFalse next : Block} {site : LiteralSite} (free : onTrue.firstLiteral? = none)
    (found : onFalse.firstLiteral? = some site) :
    (branch ident span condition onTrue onFalse next).reach =
      onFalse.reach + (onTrue.traversal.length + 1) := by
  rw [reach, traversal, List.append_assoc, beforeLiteral_branch,
    Station.beforeLiteral_append_of_free free, Station.beforeLiteral_append_of_literal found,
    List.length_cons, List.length_append, reach]
  omega

theorem reach_branch_of_free {ident : Name} {span : Span} {condition : Name}
    {onTrue onFalse next : Block} (freeTrue : onTrue.firstLiteral? = none)
    (freeFalse : onFalse.firstLiteral? = none) :
    (branch ident span condition onTrue onFalse next).reach =
      next.reach + ((onTrue.traversal ++ onFalse.traversal).length + 1) := by
  rw [reach, traversal, List.append_assoc, beforeLiteral_branch,
    Station.beforeLiteral_append_of_free freeTrue, Station.beforeLiteral_append_of_free freeFalse,
    List.length_cons, List.length_append, List.length_append, List.length_append, reach]
  omega

theorem walk_block (change : Call → Call) (block : Block) :
    (block.walk change).block = block.mapCalls (changeBefore block.reach change) := by
  induction block with
  | done => rfl
  | compute ident span operation next ih =>
      have reaches : (compute ident span operation next).reach = next.reach + 1 := rfl
      simp only [walk, mapCalls, reaches, changeBefore_add, ih]
  | apply ident span call next ih =>
      have reaches : (apply ident span call next).reach = next.reach + 1 := rfl
      simp only [walk, mapCalls, reaches, changeBefore_add, ih]
      rfl
  | branch ident span condition onTrue onFalse next ihTrue ihFalse ih =>
      have short := reach_le_length onTrue
      have shorter := reach_le_length onFalse
      have both : (onTrue.traversal ++ onFalse.traversal).length =
          onTrue.traversal.length + onFalse.traversal.length := List.length_append
      simp only [walk, mapCalls, walk_stop, ihTrue]
      cases inTrue : onTrue.firstLiteral? with
      | some site =>
          simp only [Walk.unlessStopped, reach_branch_of_true inTrue, changeBefore_add]
          rw [mapCalls_of_beyond (by omega), mapCalls_of_beyond (by omega)]
      | none =>
          simp only [Walk.unlessStopped, walk_stop, ihFalse]
          cases inFalse : onFalse.firstLiteral? with
          | some site =>
              rw [reach_branch_of_false inTrue inFalse, changeBefore_add,
                mapCalls_of_within (by omega), mapCalls_of_free inTrue,
                mapCalls_of_beyond (by omega)]
          | none =>
              simp only [ih]
              rw [reach_branch_of_free inTrue inFalse, changeBefore_add,
                mapCalls_of_within (by omega), mapCalls_of_free inTrue,
                mapCalls_of_within (by omega), mapCalls_of_free inFalse]
  | literal ident span parameters body next =>
      have reaches : (literal ident span parameters body next).reach = 0 := rfl
      simp only [walk, mapCalls, reaches, mapCalls_of_beyond (Nat.zero_le 1) change next]

theorem walk_calls (change : Call → Call) (block : Block) :
    (block.walk change).calls =
      (Station.callsAt (Station.beforeLiteral block.traversal)).map
        fun site => ⟨site.ident, change site.call⟩ := by
  induction block with
  | done => rfl
  | compute _ _ _ _ ih => exact ih
  | apply _ _ _ _ ih => exact congrArg _ ih
  | branch ident span condition onTrue onFalse next ihTrue ihFalse ih =>
      simp only [walk, walk_stop, traversal, beforeLiteral_branch, List.append_assoc, ihTrue]
      change _ = (Station.callsAt (Station.beforeLiteral _)).map _
      cases inTrue : onTrue.firstLiteral? with
      | some site =>
          rw [Station.beforeLiteral_append_of_literal inTrue]
          simp only [Walk.unlessStopped, List.append_nil]
      | none =>
          have allTrue := Station.beforeLiteral_of_free (literalFree_iff.mpr inTrue)
          rw [Station.beforeLiteral_append_of_free inTrue, allTrue]
          simp only [Walk.unlessStopped, walk_stop, ihFalse, Station.callsAt_append,
            List.map_append, List.append_cancel_left_eq]
          cases inFalse : onFalse.firstLiteral? with
          | some site =>
              rw [Station.beforeLiteral_append_of_literal inFalse, List.append_nil]
          | none =>
              have allFalse :=
                Station.beforeLiteral_of_free (literalFree_iff.mpr inFalse)
              rw [Station.beforeLiteral_append_of_free inFalse, allFalse]
              simp only [ih, Station.callsAt_append, List.map_append]
  | literal _ _ _ _ _ => rfl

theorem walk_calls_of_free {block : Block} (free : block.firstLiteral? = none)
    (change : Call → Call) :
    (block.walk change).calls = Station.callsAt (block.mapCalls fun _ => change).traversal := by
  rw [walk_calls, Station.beforeLiteral_of_free (literalFree_iff.mpr free),
    callsAt_mapCalls_same]

end Block

end SmallMl
