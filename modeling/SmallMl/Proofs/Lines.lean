import SmallMl.Proofs.Offsets

/-!
# The lines of a text

The line of an offset is the number of lines that start at it or before it. Main statement: the line
table of two texts with a line feed between them is the table of the first and, further down, that
of the second.
-/

namespace SmallMl

/-- In an increasing list, a place between the numbers up to a bound and those beyond it counts the
former. -/
theorem countP_eq_of_sorted {starts : List Nat} {bound place : Nat}
    (sorted : starts.Pairwise (· < ·)) (inside : place ≤ starts.length)
    (before : place = 0 ∨ starts.getD (place - 1) 0 ≤ bound)
    (behind : place = starts.length ∨ bound < starts.getD place 0) :
    starts.countP (fun start => decide (start ≤ bound)) = place := by
  induction starts generalizing place with
  | nil => exact (Nat.le_zero.mp inside).symm
  | cons first rest ih =>
      obtain ⟨least, increasing⟩ := List.pairwise_cons.mp sorted
      cases place with
      | zero =>
          have beyond : bound < first := by simpa using behind
          rw [List.countP_eq_zero]
          intro start member
          have above : first ≤ start := by
            rcases List.mem_cons.mp member with rfl | later
            · exact Nat.le_refl _
            · exact Nat.le_of_lt (least start later)
          simp only [decide_eq_true_eq]
          omega
      | succ place =>
          have known : place ≤ rest.length := Nat.le_of_succ_le_succ inside
          have reached : (first :: rest).getD place 0 ≤ bound := by simpa using before
          have counted : first ≤ bound := by
            cases place with
            | zero => exact reached
            | succ place =>
                have member : rest.getD place 0 ∈ rest := by
                  rw [List.getD_eq_getElem?_getD, List.getElem?_eq_getElem known, Option.getD_some]
                  exact List.getElem_mem _
                have above := least _ member
                have here : rest.getD place 0 ≤ bound := reached
                omega
          have goesOn : place = 0 ∨ rest.getD (place - 1) 0 ≤ bound := by
            cases place with
            | zero => exact Or.inl rfl
            | succ place => exact Or.inr reached
          have stops : place = rest.length ∨ bound < rest.getD place 0 := by simpa using behind
          rw [List.countP_cons_of_pos (by simpa using counted), ih increasing known goesOn stops]

/-- The position that many lines further down. -/
def Position.movedDown (lines : Nat) (position : Position) : Position where
  line := position.line + lines
  column := position.column

namespace LineTable

/-- The offsets at which the lines of a text start. -/
def startsOf (text : List Char) : List Nat :=
  0 :: startsAfter 0 text

theorem mem_startsAfter {text : List Char} {base start : Nat}
    (member : start ∈ startsAfter base text) :
    base < start ∧ start ≤ base + byteLength text := by
  induction text generalizing base with
  | nil => exact absurd member List.not_mem_nil
  | cons c rest ih =>
      have size := Char.utf8Size_pos c
      have later : start ∈ startsAfter (base + c.utf8Size) rest →
          base < start ∧ start ≤ base + byteLength (c :: rest) := by
        intro inside
        have bounds := ih inside
        rw [byteLength_cons]
        omega
      simp only [startsAfter] at member
      split at member
      · rcases List.mem_cons.mp member with rfl | inside
        · rw [byteLength_cons]
          omega
        · exact later inside
      · exact later member

/-- No line that starts behind a place starts before it. -/
theorem countP_startsAfter_of_le (text : List Char) {base offset : Nat} (before : offset ≤ base) :
    (startsAfter base text).countP (fun start => decide (start ≤ offset)) = 0 := by
  rw [List.countP_eq_zero]
  intro start member
  have later := (mem_startsAfter member).1
  simp only [decide_eq_true_eq]
  omega

theorem sorted_startsAfter (text : List Char) (base : Nat) :
    (startsAfter base text).Pairwise (· < ·) := by
  induction text generalizing base with
  | nil => exact .nil
  | cons c rest ih =>
      simp only [startsAfter]
      split
      · exact .cons (fun start member => (mem_startsAfter member).1) (ih _)
      · exact ih _

theorem sorted_startsOf (text : List Char) : (startsOf text).Pairwise (· < ·) :=
  .cons (fun _ member => (mem_startsAfter member).1) (sorted_startsAfter text 0)

theorem startsAfter_append (first second : List Char) (base : Nat) :
    startsAfter base (first ++ second) =
      startsAfter base first ++ startsAfter (base + byteLength first) second := by
  induction first generalizing base with
  | nil => rfl
  | cons c first ih =>
      simp only [List.cons_append, startsAfter, ih, byteLength_cons, Nat.add_assoc]
      split <;> rfl

theorem startsAfter_add (text : List Char) (base further : Nat) :
    startsAfter (further + base) text = (startsAfter base text).map (further + ·) := by
  induction text generalizing base with
  | nil => rfl
  | cons c rest ih =>
      simp only [startsAfter, Nat.add_assoc, ih]
      split <;> rfl

theorem length_startsAfter (text : List Char) (base : Nat) :
    (startsAfter base text).length = text.count '\n' := by
  induction text generalizing base with
  | nil => rfl
  | cons c rest ih =>
      by_cases feed : c = '\n'
      · simp [startsAfter, feed, ih]
      · simp [startsAfter, feed, ih]

/-- The lines of two texts with a line feed between them. -/
theorem startsOf_lineFeed (first second : List Char) :
    startsOf (first ++ '\n' :: second) =
      startsOf first ++ (startsOf second).map (byteLength first + 1 + ·) := by
  have feed : ('\n' : Char).utf8Size = 1 := rfl
  simp only [startsOf, startsAfter_append, startsAfter, Nat.zero_add, if_true, feed,
    List.cons_append, List.map_cons, Nat.add_zero]
  rw [← startsAfter_add, Nat.add_zero]

theorem getD_starts_ofText (text : List Char) (line : Nat) :
    (ofText text).starts.getD line 0 = (startsOf text).getD line 0 := by
  rw [Array.getD_eq_getD_getElem?, List.getD_eq_getElem?_getD, ofText, List.getElem?_toArray]
  rfl

/-- The line of an offset is the number of lines that start at it or before it. -/
theorem linesUpTo_ofText (text : List Char) (offset : Nat) :
    (ofText text).linesUpTo offset =
      (startsOf text).countP fun start => decide (start ≤ offset) := by
  obtain ⟨known, before, behind⟩ := (ofText text).linesUpTo_separates offset
  rw [getD_starts_ofText] at before behind
  exact (countP_eq_of_sorted (sorted_startsOf text) known before behind).symm

theorem linesUpTo_pos (text : List Char) (offset : Nat) : 0 < (ofText text).linesUpTo offset :=
  (linesUpTo_spec (ofText text) offset).1

theorem linesUpTo_le (text : List Char) (offset : Nat) :
    (ofText text).linesUpTo offset ≤ (startsOf text).length :=
  (linesUpTo_spec (ofText text) offset).2.1

theorem start_ofText (text : List Char) (line : Nat) :
    (ofText text).start line = (startsOf text).getD (line - 1) 0 :=
  getD_starts_ofText text (line - 1)

theorem startsOf_append (first second : List Char) :
    startsOf (first ++ second) = startsOf first ++ startsAfter (byteLength first) second := by
  rw [startsOf, startsAfter_append, Nat.zero_add]
  rfl

/-- Inside the front of a text, the text behind it does not matter. -/
theorem position_append {first : List Char} (second : List Char) {offset : Nat}
    (inside : offset ≤ byteLength first) :
    (ofText (first ++ second)).position offset = (ofText first).position offset := by
  have lines : (ofText (first ++ second)).linesUpTo offset = (ofText first).linesUpTo offset := by
    rw [linesUpTo_ofText, startsOf_append, List.countP_append,
      countP_startsAfter_of_le second inside, Nat.add_zero, linesUpTo_ofText]
  have positive := linesUpTo_pos first offset
  have known := linesUpTo_le first offset
  have same : (ofText (first ++ second)).start ((ofText first).linesUpTo offset) =
      (ofText first).start ((ofText first).linesUpTo offset) := by
    rw [start_ofText, start_ofText, startsOf_append, List.getD_eq_getElem?_getD,
      List.getElem?_append_left (by omega), List.getD_eq_getElem?_getD]
  rw [position, position, lines, same]

/-- Up to a line feed, the text behind it does not matter. -/
theorem position_before_lineFeed {first : List Char} (second : List Char) {offset : Nat}
    (inside : offset ≤ byteLength first) :
    (ofText (first ++ '\n' :: second)).position offset = (ofText first).position offset :=
  position_append ('\n' :: second) inside

/-- Behind a line feed, the text before it only moves the lines down. -/
theorem position_behind_lineFeed (first second : List Char) (offset : Nat) :
    (ofText (first ++ '\n' :: second)).position (byteLength first + 1 + offset) =
      ((ofText second).position offset).movedDown (first.count '\n' + 1) := by
  have all : (startsOf first).countP
      (fun start => decide (start ≤ byteLength first + 1 + offset)) = (startsOf first).length := by
    rw [List.countP_eq_length]
    intro start member
    have bounds : start ≤ byteLength first := by
      rcases List.mem_cons.mp member with rfl | later
      · exact Nat.zero_le _
      · have inside := (mem_startsAfter later).2
        omega
    simp only [decide_eq_true_eq]
    omega
  have count : (startsOf first).length = first.count '\n' + 1 := by
    rw [startsOf, List.length_cons, length_startsAfter]
  have further : (fun start => decide (start ≤ byteLength first + 1 + offset)) ∘
      (byteLength first + 1 + ·) = fun start => decide (start ≤ offset) := by
    funext start
    simp
  have lines : (ofText (first ++ '\n' :: second)).linesUpTo (byteLength first + 1 + offset) =
      (ofText second).linesUpTo offset + (first.count '\n' + 1) := by
    rw [linesUpTo_ofText, startsOf_lineFeed, List.countP_append, all, List.countP_map, further,
      linesUpTo_ofText, count, Nat.add_comm]
  have positive := linesUpTo_pos second offset
  have known := linesUpTo_le second offset
  have same : (ofText (first ++ '\n' :: second)).start
      ((ofText second).linesUpTo offset + (first.count '\n' + 1)) =
      byteLength first + 1 + (ofText second).start ((ofText second).linesUpTo offset) := by
    rw [start_ofText, start_ofText, startsOf_lineFeed, List.getD_eq_getElem?_getD,
      List.getElem?_append_right (by omega), List.getElem?_map, List.getD_eq_getElem?_getD,
      count, show (ofText second).linesUpTo offset + (first.count '\n' + 1) - 1 -
        (first.count '\n' + 1) = (ofText second).linesUpTo offset - 1 by omega,
      List.getElem?_eq_getElem (by omega), Option.map_some, Option.getD_some, Option.getD_some]
  rw [position, position, lines, same, Position.movedDown, Nat.add_sub_add_left]

end LineTable

end SmallMl
