import Mathlib.Data.List.DropRight
import SmallMl.Proofs.Lines

/-!
# Positions told from the text

The text before a place tells its position: the line by its line feeds, the column by the bytes
behind the last of them. Main statement: this is the position that the line table gives for the
place.
-/

namespace SmallMl

/-- The characters of a text behind its last line feed, or all of them if it has none. -/
def lastLine (text : List Char) : List Char :=
  text.rtakeWhile (· ≠ '\n')

/-- The position behind a text: as many lines down as it has line feeds, and as many bytes to the
right as its last line has. -/
def Position.behind (text : List Char) : Position where
  line := text.count '\n' + 1
  column := byteLength (lastLine text) + 1

/-- The span of a lexeme that stands behind a text. -/
def Span.behind (text lexeme : List Char) : Span where
  start := .behind text
  stop := .behind (text ++ lexeme)

theorem lastLine_lineFeed (text : List Char) : lastLine (text ++ ['\n']) = [] :=
  List.rtakeWhile_concat_neg _ _ _ (by simp)

theorem lastLine_concat {c : Char} (other : c ≠ '\n') (text : List Char) :
    lastLine (text ++ [c]) = lastLine text ++ [c] :=
  List.rtakeWhile_concat_pos _ _ _ (decide_eq_true other)

/-- A text has one line only, or a line feed stands in front of its last line. -/
theorem lastLine_cases (text : List Char) :
    '\n' ∉ lastLine text ∧
      (lastLine text = text ∨ ∃ front, text = front ++ '\n' :: lastLine text) := by
  induction text using List.reverseRecOn with
  | nil => exact ⟨List.not_mem_nil, Or.inl rfl⟩
  | append_singleton text c ih =>
      obtain ⟨clean, split⟩ := ih
      by_cases feed : c = '\n'
      · subst feed
        rw [lastLine_lineFeed]
        exact ⟨List.not_mem_nil, Or.inr ⟨text, rfl⟩⟩
      · rw [lastLine_concat feed]
        refine ⟨by simp [clean, Ne.symm feed], ?_⟩
        rcases split with same | ⟨front, split⟩
        · exact Or.inl (by rw [same])
        · refine Or.inr ⟨front, ?_⟩
          conv => lhs; rw [split]
          simp

namespace LineTable

/-- On the first line of a text, a position counts the bytes from its start. -/
theorem position_of_no_lineFeed {text : List Char} (whole : '\n' ∉ text) (rest : List Char) :
    (ofText (text ++ rest)).position (byteLength text) = ⟨1, byteLength text + 1⟩ := by
  have none : startsAfter 0 text = [] := by
    rw [← List.length_eq_zero_iff, length_startsAfter]
    exact List.count_eq_zero_of_not_mem whole
  have beyond := countP_startsAfter_of_le rest (Nat.le_refl (byteLength text))
  have lines : (ofText (text ++ rest)).linesUpTo (byteLength text) = 1 := by
    rw [linesUpTo_ofText, startsOf, startsAfter_append, none, List.nil_append, Nat.zero_add,
      List.countP_cons, beyond]
    simp
  rw [position, lines, start_ofText]
  rfl

/-- The position of the offset behind a text is told from that text. -/
theorem position_ofText (text rest : List Char) :
    (ofText (text ++ rest)).position (byteLength text) = .behind text := by
  obtain ⟨clean, split⟩ := lastLine_cases text
  have last := position_of_no_lineFeed clean rest
  rcases split with same | ⟨front, split⟩
  · have none : text.count '\n' = 0 := List.count_eq_zero_of_not_mem (same ▸ clean)
    rw [same] at last
    rw [last, Position.behind, same, none]
  · have moved := position_behind_lineFeed front (lastLine text ++ rest) (byteLength (lastLine text))
    have size : byteLength text = byteLength front + 1 + byteLength (lastLine text) := by
      conv => lhs; rw [split]
      rw [byteLength_append, byteLength_cons, Nat.add_assoc]
      rfl
    have lines : text.count '\n' = front.count '\n' + 1 := by
      conv => lhs; rw [split]
      rw [List.count_append, List.count_cons_self, List.count_eq_zero_of_not_mem clean]
    have whole : text ++ rest = front ++ '\n' :: (lastLine text ++ rest) := by
      conv => lhs; rw [split]
      simp
    rw [whole, size, moved, last, Position.movedDown, Position.behind, lines, Nat.add_comm 1]

end LineTable

end SmallMl
