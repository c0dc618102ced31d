import SmallMl.Calls.Convention
import SmallMl.Proofs.Traversal

/-!
# Places of a program

A classification goes through the bodies of a program: those of the functions in the order of their
table, then the entry block. A place is a station of one of these bodies, and the places are ordered
as they are reached. Main definition: the program with the calls before a place classified, and all
else as it was. Main statement: each station of that program is the old one, changed only before the
place.
-/

namespace SmallMl

namespace Table

variable {α : Type}

theorem ext_entries {first second : Table α} (same : first.entries = second.entries) :
    first = second := by
  cases first
  cases second
  cases same
  rfl

/-- The table with its values changed; the change is told the place of the entry and its name. -/
def mapEntries (table : Table α) (change : Nat → Name → α → α) : Table α where
  entries := table.entries.mapIdx fun place entry => (entry.1, change place entry.1 entry.2)
  distinct := by
    have names : (table.entries.mapIdx fun place entry =>
        (entry.1, change place entry.1 entry.2)).map Prod.fst = table.entries.map Prod.fst := by
      apply List.ext_getElem
      · simp
      · intro place _ _
        simp
    exact names ▸ table.distinct

theorem entries_mapEntries_same (table : Table α) (change : Name → α → α) :
    (table.mapEntries fun _ => change).entries =
      table.entries.map fun entry => (entry.1, change entry.1 entry.2) := by
  apply List.ext_getElem?
  intro place
  simp only [mapEntries, List.getElem?_map, List.getElem?_mapIdx]

theorem values_mapEntries_same (table : Table α) (change : Name → α → α) :
    (table.mapEntries fun _ => change).values =
      table.entries.map fun entry => change entry.1 entry.2 := by
  rw [values, entries_mapEntries_same, List.map_map]
  rfl

/-- A change that is told the name only changes the value of each name. -/
theorem get?_mapEntries_same (table : Table α) (change : Name → α → α) (key : Name) :
    (table.mapEntries fun _ => change).get? key = (table.get? key).map (change key) := by
  rw [get?, entries_mapEntries_same, get?]
  induction table.entries with
  | nil => rfl
  | cons entry rest ih =>
      obtain ⟨name, value⟩ := entry
      rw [List.map_cons, lookup_entry, lookup_entry, ih]
      split
      · next here => rw [here, Option.map_some]
      · rfl

/-- Changing entries up to the first that ends the changes, told by places. -/
theorem changeThrough_eq_mapIdx (ends : Name → α → Bool) (change : Name → α → α)
    (entries : List (Name × α)) :
    changeThrough ends change entries = entries.mapIdx fun place entry =>
      if place ≤ entries.findIdx (fun other => ends other.1 other.2) then
        (entry.1, change entry.1 entry.2)
      else entry := by
  induction entries with
  | nil => rfl
  | cons entry rest ih =>
      simp only [changeThrough, List.mapIdx_cons, List.findIdx_cons]
      cases last : ends entry.1 entry.2 with
      | true =>
          simp only [if_true, Nat.zero_le, List.cons.injEq, true_and]
          exact List.ext_getElem? fun place => by simp
      | false =>
          simp only [Bool.false_eq_true, if_false, Nat.zero_le, if_true, cond_false,
            Nat.add_le_add_iff_right, ih]

end Table

namespace Program

/-- A place in a program: the number of a body and of a station in it. The bodies are numbered in
the order of the function table, and the entry block comes last. -/
structure Place where
  body : Nat
  station : Nat
  deriving DecidableEq, Repr

/-- Bodies come one after the other, and so do the stations of each. -/
instance : LT Place where
  lt first second :=
    first.body < second.body ∨ first.body = second.body ∧ first.station < second.station

instance (first second : Place) : Decidable (first < second) :=
  inferInstanceAs (Decidable (_ ∨ _))

/-- In one body the order is that of the stations. -/
theorem Place.lt_iff_of_body (body first second : Nat) :
    (⟨body, first⟩ : Place) < ⟨body, second⟩ ↔ first < second := by
  constructor
  · intro less
    rcases less with less | ⟨_, less⟩
    · exact absurd less (Nat.lt_irrefl _)
    · exact less
  · intro less
    exact Or.inr ⟨rfl, less⟩

theorem Place.trichotomy (first second : Place) :
    first < second ∨ first = second ∨ second < first := by
  obtain ⟨body, station⟩ := first
  obtain ⟨otherBody, otherStation⟩ := second
  rcases Nat.lt_trichotomy body otherBody with less | rfl | greater
  · exact Or.inl (Or.inl less)
  · rcases Nat.lt_trichotomy station otherStation with less | rfl | greater
    · exact Or.inl (Or.inr ⟨rfl, less⟩)
    · exact Or.inr (Or.inl rfl)
    · exact Or.inr (Or.inr (Or.inr ⟨rfl, greater⟩))
  · exact Or.inr (Or.inr (Or.inl greater))

/-! ## Bodies -/

/-- The bodies of the functions and the entry block, in the order of a classification. -/
def bodies (program : Program) : List Block :=
  program.functions.values.map Function.body ++ [program.entry]

theorem bodies_function {program : Program} {body : Nat} {key : Name} {function : Function}
    (found : program.functions.entries[body]? = some (key, function)) :
    program.bodies[body]? = some function.body := by
  have inside : body < program.functions.entries.length :=
    (List.getElem?_eq_some_iff.mp found).1
  rw [bodies, List.getElem?_append_left (by simpa [Table.values] using inside)]
  simp [Table.values, found]

theorem bodies_entry (program : Program) :
    program.bodies[program.functions.entries.length]? = some program.entry := by
  rw [bodies, List.getElem?_append_right (by simp [Table.values])]
  simp [Table.values]

theorem mem_bodies {program : Program} {body : Block} :
    body ∈ program.bodies ↔
      (∃ entry ∈ program.functions.entries, entry.2.body = body) ∨ body = program.entry := by
  simp [bodies, Table.values]

/-- The station at a place. -/
def station? (program : Program) (place : Place) : Option Station :=
  program.bodies[place.body]?.bind fun body => body.traversal[place.station]?

/-- The name under which the function with the body is stored; the entry block has none. -/
def owner? (program : Program) (body : Nat) : Option Name :=
  program.functions.keys[body]?

/-- The calls of a program that no function literal holds, in the order of the bodies. -/
def calls (program : Program) : List CallSite :=
  program.bodies.flatMap fun body => Station.callsAt body.traversal

/-- Whether no walk over a body of the program can reach a function literal. -/
def LiteralFree (program : Program) : Prop :=
  ∀ body ∈ program.bodies, body.LiteralFree

/-! ## Programs classified in part -/

theorem kind_classify_ne (program : Program) (call : Call) :
    (program.classify call).kind ≠ .unclassified := by
  simp only [classify, kindOf]
  split
  · simp
  · split
    · simp
    · split <;> simp

/-- A function as a classification leaves it that stops at the given place. -/
def functionBefore (program : Program) (stop : Place) (body : Nat) (key : Name)
    (function : Function) : Function :=
  { function with
    body := function.body.mapCalls fun station call =>
      if (⟨body, station⟩ : Place) < stop then program.classify call else call
    isRecursive := function.isRecursive || function.body.traversal.zipIdx.any
      fun (station, place) => decide ((⟨body, place⟩ : Place) < stop) && station.calls key }

/-- The program with the calls before a place classified and all others as they are. -/
def classifiedBefore (program : Program) (stop : Place) : Program where
  functions := program.functions.mapEntries (program.functionBefore stop)
  closures := program.closures
  entry := program.entry.mapCalls fun station call =>
    if (⟨program.functions.entries.length, station⟩ : Place) < stop then program.classify call
    else call

/-- A function with all its calls classified. -/
def functionThroughout (program : Program) (key : Name) (function : Function) : Function :=
  { function with
    body := function.body.mapCalls fun _ => program.classify
    isRecursive := function.isRecursive || function.body.traversal.any (Station.calls key) }

/-- The program with every call classified. -/
def classifiedThroughout (program : Program) : Program where
  functions := program.functions.mapEntries fun _ => program.functionThroughout
  closures := program.closures
  entry := program.entry.mapCalls fun _ => program.classify

/-- A function with the calls at its first stations classified. -/
def functionUpTo (program : Program) (limit : Nat) (key : Name) (function : Function) : Function :=
  { function with
    body := function.body.mapCalls (Block.changeBefore limit program.classify)
    isRecursive :=
      function.isRecursive || (function.body.traversal.take limit).any (Station.calls key) }

theorem functionUpTo_of_free (program : Program) (key : Name) {function : Function}
    (free : function.body.firstLiteral? = none) :
    program.functionUpTo function.body.reach key function =
      program.functionThroughout key function := by
  have whole := Block.reach_of_free free
  simp only [functionUpTo, functionThroughout, Block.mapCalls_of_free free]
  rw [whole, List.take_length]

/-- A call among the stations before a place of the body. -/
theorem any_zipIdx_before (limit : Nat) (holds : Station → Bool) (stations : List Station)
    (first : Nat) :
    (stations.zipIdx first).any (fun (station, place) => decide (place < limit) && holds station) =
      (stations.take (limit - first)).any holds := by
  induction stations generalizing first with
  | nil => simp
  | cons station rest ih =>
      simp only [List.zipIdx_cons, List.any_cons, ih]
      by_cases before : first < limit
      · obtain ⟨more, rfl⟩ : ∃ more, limit = first + 1 + more := ⟨limit - (first + 1), by omega⟩
        have here : first + 1 + more - first = more + 1 := by omega
        have later : first + 1 + more - (first + 1) = more := by omega
        simp [here, later, before]
      · have here : limit - first = 0 := by omega
        have later : limit - (first + 1) = 0 := by omega
        simp [here, later, before]

theorem functionBefore_here (program : Program) (limit body : Nat) (key : Name)
    (function : Function) :
    program.functionBefore ⟨body, limit⟩ body key function =
      program.functionUpTo limit key function := by
  simp only [functionBefore, functionUpTo, Place.lt_iff_of_body, any_zipIdx_before, Nat.sub_zero]
  rfl

theorem functionBefore_earlier {program : Program} {stop : Place} {body : Nat}
    (earlier : body < stop.body) (key : Name) (function : Function) :
    program.functionBefore stop body key function = program.functionThroughout key function := by
  have before : ∀ place, (⟨body, place⟩ : Place) < stop := fun place => Or.inl earlier
  have all : ∀ holds : Station → Bool,
      function.body.traversal.zipIdx.any (fun (station, _) => holds station) =
        function.body.traversal.any holds := by
    intro holds
    have stations := List.zipIdx_map_fst 0 function.body.traversal
    conv => rhs; rw [← stations, List.any_map]
    rfl
  simp only [functionBefore, functionThroughout, before, if_true, decide_true, Bool.true_and, all]

theorem functionBefore_later {program : Program} {stop : Place} {body : Nat}
    (later : stop.body < body) (key : Name) (function : Function) :
    program.functionBefore stop body key function = function := by
  have beyond : ∀ place, ¬ (⟨body, place⟩ : Place) < stop := by
    intro place less
    rcases less with less | ⟨same, _⟩
    · exact absurd less (by simp; omega)
    · exact absurd same (by simp; omega)
  have none : (function.body.traversal.zipIdx.any fun _ => false) = false := by simp
  simp only [functionBefore, beyond, if_false, Block.mapCalls_id, decide_false, Bool.false_and,
    none, Bool.or_false]

theorem bodies_classifiedThroughout (program : Program) :
    program.classifiedThroughout.bodies =
      program.bodies.map (Block.mapCalls fun _ => program.classify) := by
  simp only [bodies, classifiedThroughout, Table.values_mapEntries_same]
  simp only [Table.values, List.map_map, List.map_append, List.map_cons, List.map_nil]
  rfl

theorem bodies_classifiedBefore (program : Program) (stop : Place) :
    (program.classifiedBefore stop).bodies = program.bodies.mapIdx fun body block =>
      block.mapCalls fun station call =>
        if (⟨body, station⟩ : Place) < stop then program.classify call else call := by
  have functions : ((program.classifiedBefore stop).functions.values.map Function.body) =
      (program.functions.values.map Function.body).mapIdx fun body block =>
        block.mapCalls fun station call =>
          if (⟨body, station⟩ : Place) < stop then program.classify call else call := by
    apply List.ext_getElem?
    intro body
    simp only [classifiedBefore, Table.mapEntries, Table.values, List.getElem?_map,
      List.getElem?_mapIdx, Option.map_map]
    rfl
  rw [bodies, bodies, functions, List.mapIdx_append]
  simp [classifiedBefore, Table.values]

/-- Changing the calls before a place changes the stations there only. -/
theorem station?_classifiedBefore (program : Program) (stop place : Place) :
    (program.classifiedBefore stop).station? place =
      (program.station? place).map fun station =>
        if place < stop then station.mapCall program.classify else station := by
  simp only [station?, bodies_classifiedBefore, List.getElem?_mapIdx]
  cases program.bodies[place.body]? with
  | none => rfl
  | some body =>
      simp only [Option.map_some, Option.bind_some, Block.traversal_mapCalls, List.getElem?_mapIdx]
      congr 1
      funext station
      by_cases before : place < stop
      · simp only [before, if_true]
      · simp only [before, if_false, Station.mapCall_id]

end Program

end SmallMl
