import SmallMl.Source.LineTable

/-!
# Slices by byte offsets

A text can be cut at a byte offset only where a character ends, and a number can be taken only from
one that is as large. Main statement: a cut succeeds exactly where the text is two texts of which the
first has that many bytes, and so for a slice between two cuts.
-/

namespace SmallMl

/-- What is left of a number when another is taken from it, if that is not larger. -/
def difference? (whole part : Nat) : Option Nat :=
  if part ≤ whole then some (whole - part) else none

/-- The text cut behind so many bytes, if these are there and end with a character. -/
def cutBytes? (count : Nat) : List Char → Option (List Char × List Char)
  | [] => if count = 0 then some ([], []) else none
  | c :: text =>
      if count = 0 then some ([], c :: text)
      else do
        let (front, rest) ← cutBytes? (← difference? count c.utf8Size) text
        return (c :: front, rest)

/-- The text behind so many bytes. -/
def behindBytes? (count : Nat) (text : List Char) : Option (List Char) :=
  (cutBytes? count text).map Prod.snd

/-- The text from one byte offset up to another. -/
def slice? (first beyond : Nat) (text : List Char) : Option (List Char) := do
  let size ← difference? beyond first
  let behind ← behindBytes? first text
  (cutBytes? size behind).map Prod.fst

theorem difference?_add_left (part rest : Nat) : difference? (part + rest) part = some rest := by
  rw [difference?, if_pos (Nat.le_add_right part rest), Nat.add_sub_cancel_left]

theorem difference?_eq_some_iff {whole part rest : Nat} :
    difference? whole part = some rest ↔ whole = part + rest := by
  constructor
  · intro taken
    unfold difference? at taken
    split at taken
    · cases taken
      omega
    · exact absurd taken (by simp)
  · rintro rfl
    exact difference?_add_left part rest

/-- A text is cut exactly into a front of that many bytes and the rest. -/
theorem cutBytes?_eq_some_iff {count : Nat} {text front rest : List Char} :
    cutBytes? count text = some (front, rest) ↔ text = front ++ rest ∧ byteLength front = count := by
  induction text generalizing count front with
  | nil =>
      rw [cutBytes?, eq_comm (a := []), List.append_eq_nil_iff]
      constructor
      · intro cut
        split at cut
        · next nothing =>
            cases cut
            exact ⟨⟨rfl, rfl⟩, nothing.symm⟩
        · exact absurd cut (by simp)
      · rintro ⟨⟨rfl, rfl⟩, rfl⟩
        rfl
  | cons c text ih =>
      have size := Char.utf8Size_pos c
      rw [cutBytes?]
      constructor
      · intro cut
        split at cut
        · next nothing =>
            cases cut
            exact ⟨rfl, nothing.symm⟩
        · simp only [Option.bind_eq_bind, Option.bind_eq_some_iff, difference?_eq_some_iff,
            Prod.exists, Option.pure_def, Option.some.injEq, Prod.mk.injEq] at cut
          obtain ⟨left, rfl, before, behind, cut, rfl, rfl⟩ := cut
          obtain ⟨rfl, rfl⟩ := ih.mp cut
          exact ⟨rfl, rfl⟩
      · rintro ⟨split, rfl⟩
        cases front with
        | nil =>
            rw [List.nil_append] at split
            rw [byteLength_nil, if_pos rfl, split]
        | cons d front =>
            rw [List.cons_append, List.cons.injEq] at split
            obtain ⟨rfl, split⟩ := split
            have some_left : byteLength (c :: front) ≠ 0 := by
              rw [byteLength_cons]
              omega
            rw [if_neg some_left, byteLength_cons, difference?_add_left]
            simp only [Option.bind_eq_bind, Option.bind_some]
            rw [ih.mpr ⟨split, rfl⟩]
            rfl

theorem behindBytes?_eq_some_iff {count : Nat} {text rest : List Char} :
    behindBytes? count text = some rest ↔ ∃ front, text = front ++ rest ∧ byteLength front = count := by
  simp [behindBytes?, Option.map_eq_some_iff, cutBytes?_eq_some_iff]

theorem length_lt_of_behindBytes? {c : Char} {text rest : List Char}
    (cut : behindBytes? c.utf8Size text = some rest) : rest.length < text.length := by
  obtain ⟨front, rfl, size⟩ := behindBytes?_eq_some_iff.mp cut
  have nonempty : front ≠ [] := by
    rintro rfl
    exact absurd size (Nat.ne_of_lt (Char.utf8Size_pos c))
  rw [List.length_append]
  have positive := List.length_pos_iff.mpr nonempty
  omega

/-- A slice stands between a text of as many bytes as its first offset and any other text. -/
theorem slice?_eq_some_iff {first beyond : Nat} {text middle : List Char} :
    slice? first beyond text = some middle ↔
      ∃ front rest, text = front ++ (middle ++ rest) ∧ byteLength front = first ∧
        first + byteLength middle = beyond := by
  simp only [slice?, Option.bind_eq_bind, Option.bind_eq_some_iff, difference?_eq_some_iff,
    behindBytes?_eq_some_iff, Option.map_eq_some_iff, Prod.exists, cutBytes?_eq_some_iff]
  constructor
  · rintro ⟨size, rfl, behind, ⟨front, rfl, rfl⟩, _, rest, ⟨rfl, rfl⟩, rfl⟩
    exact ⟨front, rest, rfl, rfl, rfl⟩
  · rintro ⟨front, rest, rfl, rfl, rfl⟩
    exact ⟨_, rfl, _, ⟨front, rfl, rfl⟩, middle, rest, ⟨rfl, rfl⟩, rfl⟩

end SmallMl
