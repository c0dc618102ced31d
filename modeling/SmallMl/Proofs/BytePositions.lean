import Mathlib.Data.List.DropRight
import Mathlib.Data.Prod.Lex
import Mathlib.Order.Monotone.Basic
import SmallMl.Proofs.CheckedStream

/-!
# Positions count bytes

The bytes before an offset tell its position, also when the offset lies inside a character: the line
is told by the line feeds among them, and the column by the bytes behind the last of these. Main
statement: this is the position that a line table gives, and a larger offset has a later position.
-/

namespace SmallMl

namespace Position

/-- The position behind some bytes: a line further down for each line feed among them, and a column
further to the right for each byte behind the last line feed, or for all if there is none. -/
def behindBytes (front : List UInt8) : Position where
  line := 1 + front.count 0x0A
  column := 1 + (front.rtakeWhile (· ≠ 0x0A)).length

/-- The position behind one more byte, or one column further where no byte is left. -/
def next (position : Position) (byte : Option UInt8) : Position :=
  if byte = some 0x0A then ⟨position.line + 1, 1⟩ else ⟨position.line, position.column + 1⟩

/-- The two numbers of a position, the one that decides the order first. -/
def numbers (position : Position) : Nat ×ₗ Nat :=
  toLex (position.line, position.column)

theorem behindBytes_concat (front : List UInt8) (byte : UInt8) :
    behindBytes (front ++ [byte]) = (behindBytes front).next (some byte) := by
  by_cases feed : byte = 0x0A
  · subst feed
    have none : (front ++ [0x0A]).rtakeWhile (· ≠ (0x0A : UInt8)) = [] :=
      List.rtakeWhile_concat_neg _ _ _ (by simp)
    rw [behindBytes, none, next, if_pos rfl, List.count_append, List.count_singleton_self]
    rfl
  · have more : (front ++ [byte]).rtakeWhile (· ≠ (0x0A : UInt8)) =
        front.rtakeWhile (· ≠ 0x0A) ++ [byte] :=
      List.rtakeWhile_concat_pos _ _ _ (decide_eq_true feed)
    have same : (front ++ [byte]).count 0x0A = front.count 0x0A := by
      rw [List.count_append, List.count_singleton, if_neg (by simpa using feed), Nat.add_zero]
    rw [behindBytes, more, same, next, if_neg (by simpa using feed), List.length_append]
    rfl

theorem numbers_lt_next (position : Position) (byte : Option UInt8) :
    position.numbers < (position.next byte).numbers := by
  rw [next]
  split
  · exact Prod.Lex.toLex_lt_toLex.mpr (Or.inl (Nat.lt_succ_self _))
  · exact Prod.Lex.toLex_lt_toLex.mpr (Or.inr ⟨rfl, Nat.lt_succ_self _⟩)

end Position

namespace LineTable

/-- As many lines start behind `base` and up to an offset as there are line feeds in between. -/
theorem countP_startsAfter (text : List Char) (base offset : Nat) :
    (startsAfter base text).countP (fun start => decide (start ≤ base + offset)) =
      ((bytes text).take offset).count 0x0A := by
  induction text generalizing base offset with
  | nil => simp [startsAfter, bytes]
  | cons c rest ih =>
      by_cases feed : c = '\n'
      · subst feed
        cases offset with
        | zero => exact countP_startsAfter_of_le _ (Nat.le_refl base)
        | succ offset =>
            have behind := ih (base + 1) offset
            have bound : base + 1 + offset = base + (offset + 1) := by omega
            have front : bytes ('\n' :: rest) = 0x0A :: bytes rest := rfl
            have starts : startsAfter base ('\n' :: rest) =
                (base + 1) :: startsAfter (base + 1) rest := rfl
            rw [bound] at behind
            rw [starts, front, List.take_succ_cons, List.count_cons_self,
              List.countP_cons_of_pos (by simp), behind]
      · have size := String.length_utf8EncodeChar c
        have front : bytes (c :: rest) = String.utf8EncodeChar c ++ bytes rest := rfl
        have none : ((String.utf8EncodeChar c).take offset).count 0x0A = 0 := by
          rw [List.count_eq_zero]
          intro member
          exact ne_of_mem_utf8EncodeChar feed _ (List.mem_of_mem_take member) rfl
        rw [startsAfter, if_neg feed, front, List.take_append, List.count_append, none,
          Nat.zero_add, size]
        by_cases beyond : c.utf8Size ≤ offset
        · have behind := ih (base + c.utf8Size) (offset - c.utf8Size)
          rw [Nat.add_assoc, Nat.add_sub_cancel' beyond] at behind
          exact behind
        · have within : offset - c.utf8Size = 0 := by omega
          rw [within]
          exact countP_startsAfter_of_le rest (by omega)

/-- The line of an offset is told by the line feeds before it. -/
theorem linesUpTo_eq_count (text : List Char) (offset : Nat) :
    (ofText text).linesUpTo offset = 1 + ((bytes text).take offset).count 0x0A := by
  have later := countP_startsAfter text 0 offset
  rw [Nat.zero_add] at later
  rw [linesUpTo_ofText, startsOf, List.countP_cons_of_pos (by simp), later, Nat.add_comm]

/-- One byte further on, the position is the next one: behind a line feed a line starts, and no
other byte changes the line. -/
theorem position_succ (text : List Char) (offset : Nat) :
    (ofText text).position (offset + 1) =
      ((ofText text).position offset).next (bytes text)[offset]? := by
  have here := linesUpTo_eq_count text offset
  have further := linesUpTo_eq_count text (offset + 1)
  obtain ⟨-, known, started⟩ := linesUpTo_spec (ofText text) (offset + 1)
  rw [List.take_add_one, List.count_append, ← Nat.add_assoc, ← here] at further
  by_cases feed : (bytes text)[offset]? = some 0x0A
  · have lines : (ofText text).linesUpTo (offset + 1) = (ofText text).linesUpTo offset + 1 := by
      rw [further, feed]
      rfl
    rw [lines] at known started
    have behind := lt_start_of_linesUpTo known
    have start : offset + 1 - (ofText text).start ((ofText text).linesUpTo offset + 1) = 0 := by
      omega
    rw [position, lines, start, Position.next, if_pos feed]
    rfl
  · have lines : (ofText text).linesUpTo (offset + 1) = (ofText text).linesUpTo offset := by
      rw [further, List.count_eq_zero.mpr, Nat.add_zero]
      intro member
      exact feed (Option.mem_toList.mp member)
    have before := (linesUpTo_spec (ofText text) offset).2.2
    rw [position, lines, Position.next, if_neg feed, position, Nat.sub_add_comm before]

/-- The bytes of a text before an offset tell its position. -/
theorem position_eq_behindBytes {text : List Char} {offset : Nat}
    (inside : offset ≤ byteLength text) :
    (ofText text).position offset = .behindBytes ((bytes text).take offset) := by
  induction offset with
  | zero =>
      have line := linesUpTo_eq_count text 0
      rw [position, line, Nat.zero_sub]
      rfl
  | succ offset ih =>
      have more : offset < (bytes text).length := by
        rw [length_bytes]
        exact inside
      rw [position_succ, ih (Nat.le_of_succ_le inside), List.take_add_one,
        List.getElem?_eq_getElem more, Option.toList_some, Position.behindBytes_concat]

theorem strictMono_position (text : List Char) :
    StrictMono fun offset => ((ofText text).position offset).numbers := by
  apply strictMono_nat_of_lt_succ
  intro offset
  rw [position_succ]
  exact Position.numbers_lt_next _ _

end LineTable

/-- At every byte offset of a source, its end included, the line is told by the line feeds before
the offset and the column by the bytes behind the last of them, and no step fails on the way to the
position. A larger offset has a later position, so that no two offsets have one position, and the
column counts from the place where the line starts. -/
theorem positions_count_bytes (source : String) :
    (∀ offset ≤ source.utf8ByteSize,
        let position := (LineTable.ofText source.toList).position offset
        (LineTable.ofText source.toList).position? offset = some position ∧
          position = .behindBytes (source.toUTF8.data.toList.take offset) ∧
          ∃ start, lineStart? position.line source.toList = some start ∧
            start + (position.column - 1) = offset) ∧
      StrictMono (fun offset => ((LineTable.ofText source.toList).position offset).numbers) ∧
      Function.Injective (LineTable.ofText source.toList).position := by
  have increasing := LineTable.strictMono_position source.toList
  refine ⟨?_, increasing,
    fun first second same => increasing.injective (congrArg Position.numbers same)⟩
  intro offset inside position
  rw [utf8ByteSize_eq] at inside
  refine ⟨LineTable.position?_ofText source.toList offset, ?_, ?_⟩
  · rw [toList_toUTF8]
    exact LineTable.position_eq_behindBytes inside
  · have stands := LineTable.offsetIn?_position source.toList offset
    exact Option.map_eq_some_iff.mp stands

/-- A source with characters of two bytes and an empty line. -/
def wideSource : String := "λ\r\n\né"

theorem position_inside_character_of_wideSource :
    let table := LineTable.ofText wideSource.toList
    6 ≤ wideSource.utf8ByteSize ∧ table.position? 6 = some ⟨3, 2⟩ ∧
      (table.position 4).numbers < (table.position 6).numbers ∧
      ∃ start, lineStart? 3 wideSource.toList = some start ∧ start + 1 = 6 := by
  intro table
  obtain ⟨told, increasing, -⟩ := positions_count_bytes wideSource
  have inside : 6 ≤ wideSource.utf8ByteSize := by decide
  obtain ⟨found, place, start⟩ := told 6 inside
  have counted : Position.behindBytes (wideSource.toUTF8.data.toList.take 6) = ⟨3, 2⟩ := by
    decide +kernel
  rw [place, counted] at found start
  exact ⟨inside, found, increasing (by decide), start⟩

end SmallMl
