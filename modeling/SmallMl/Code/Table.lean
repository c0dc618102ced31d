import SmallMl.Code.Operation

/-!
# Tables

A table maps names to values and remembers the order in which the names were first inserted. A name
that is inserted again keeps its place. Lookups go through `Table.get?`; the entries in order are
`Table.entries`.
-/

namespace SmallMl

/-- A map from names to values, in the order of first insertion. -/
structure Table (α : Type) where
  entries : List (Name × α)
  distinct : (entries.map Prod.fst).Nodup
  deriving DecidableEq, Repr

namespace Table

variable {α : Type}

/-- The table without entries. -/
def empty : Table α where
  entries := []
  distinct := List.nodup_nil

instance : EmptyCollection (Table α) := ⟨empty⟩

instance : Inhabited (Table α) := ⟨empty⟩

/-- The names of a table, in order. -/
def keys (table : Table α) : List Name :=
  table.entries.map Prod.fst

/-- The values of a table, in order. -/
def values (table : Table α) : List α :=
  table.entries.map Prod.snd

/-- The value of a name. -/
def get? (table : Table α) (key : Name) : Option α :=
  table.entries.lookup key

/-- A name is a member of a table when it has an entry there. -/
instance : Membership Name (Table α) where
  mem table key := key ∈ table.keys

instance (key : Name) (table : Table α) : Decidable (key ∈ table) :=
  inferInstanceAs (Decidable (key ∈ table.keys))

/-- The entries with the value of a name replaced, or the name with its value behind them. -/
def insertInto (key : Name) (value : α) : List (Name × α) → List (Name × α)
  | [] => [(key, value)]
  | (other, held) :: rest =>
      if other = key then (other, value) :: rest else (other, held) :: insertInto key value rest

theorem keys_insertInto (key : Name) (value : α) (entries : List (Name × α)) :
    (insertInto key value entries).map Prod.fst =
      if key ∈ entries.map Prod.fst then entries.map Prod.fst
      else entries.map Prod.fst ++ [key] := by
  induction entries with
  | nil => simp [insertInto]
  | cons entry rest ih =>
      obtain ⟨other, held⟩ := entry
      by_cases same : other = key
      · simp [insertInto, same]
      · have differ : key ≠ other := Ne.symm same
        simp only [insertInto, if_neg same, List.map_cons, ih, List.mem_cons, differ, false_or]
        split <;> simp

/-- The table with a value for a name: in the place of its old value, or else at the end. -/
def insert (table : Table α) (key : Name) (value : α) : Table α where
  entries := insertInto key value table.entries
  distinct := by
    rw [keys_insertInto]
    split
    · exact table.distinct
    · next absent =>
        rw [List.nodup_append]
        refine ⟨table.distinct, by simp, ?_⟩
        simp only [List.mem_singleton]
        rintro name member _ rfl rfl
        exact absent member

/-- The entries with the values changed from the first one on, up to and with the first that ends
the changes. -/
def changeThrough (ends : Name → α → Bool) (change : Name → α → α) :
    List (Name × α) → List (Name × α)
  | [] => []
  | (key, value) :: rest =>
      (key, change key value) ::
        if ends key value then rest else changeThrough ends change rest

theorem keys_changeThrough (ends : Name → α → Bool) (change : Name → α → α)
    (entries : List (Name × α)) :
    (changeThrough ends change entries).map Prod.fst = entries.map Prod.fst := by
  induction entries with
  | nil => rfl
  | cons entry rest ih =>
      simp only [changeThrough, List.map_cons, List.cons.injEq, true_and]
      split
      · rfl
      · exact ih

/-- The table with the values changed from the first one on, up to and with the first that ends the
changes. -/
def mapThrough (table : Table α) (ends : Name → α → Bool) (change : Name → α → α) : Table α where
  entries := changeThrough ends change table.entries
  distinct := (keys_changeThrough ends change table.entries).symm ▸ table.distinct

@[simp]
theorem keys_mapThrough (table : Table α) (ends : Name → α → Bool) (change : Name → α → α) :
    (table.mapThrough ends change).keys = table.keys :=
  keys_changeThrough ends change table.entries

@[simp]
theorem keys_insert (table : Table α) (key : Name) (value : α) :
    (table.insert key value).keys =
      if key ∈ table.keys then table.keys else table.keys ++ [key] :=
  keys_insertInto key value table.entries

theorem mem_insert {table : Table α} {key other : Name} {value : α} :
    other ∈ table.insert key value ↔ other = key ∨ other ∈ table := by
  change other ∈ (table.insert key value).keys ↔ other = key ∨ other ∈ table.keys
  rw [keys_insert]
  split
  · next member => exact ⟨Or.inr, fun cases => cases.elim (fun same => same ▸ member) id⟩
  · simp [or_comm]

theorem lookup_entry (key other : Name) (value : α) (entries : List (Name × α)) :
    ((key, value) :: entries).lookup other =
      if other = key then some value else entries.lookup other := by
  by_cases same : other = key
  · simp [same]
  · simp [List.lookup_cons, beq_eq_false_iff_ne.mpr same, same]

theorem lookup_insertInto (key other : Name) (value : α) (entries : List (Name × α)) :
    (insertInto key value entries).lookup other =
      if other = key then some value else entries.lookup other := by
  induction entries with
  | nil => exact lookup_entry key other value []
  | cons entry rest ih =>
      obtain ⟨name, held⟩ := entry
      by_cases here : name = key
      · simp only [insertInto, here, if_true, lookup_entry]
        split <;> rfl
      · simp only [insertInto, here, if_false, lookup_entry, ih]
        by_cases found : other = name
        · simp [found, here]
        · simp [found]

@[simp]
theorem get?_insert (table : Table α) (key other : Name) (value : α) :
    (table.insert key value).get? other = if other = key then some value else table.get? other :=
  lookup_insertInto key other value table.entries

end Table

end SmallMl
