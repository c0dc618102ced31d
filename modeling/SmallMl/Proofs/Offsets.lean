import SmallMl.Stream.Basic

/-!
# Bytes and offsets

A source is a sequence of bytes, and a position in it stands for an offset: the start of its line
plus the distance from there. Main statement: the position that a line table gives for an offset
stands for that offset.
-/

namespace SmallMl

/-! ## Bytes -/

/-- The bytes that write a text in UTF-8. -/
def bytes (text : List Char) : List UInt8 :=
  text.flatMap String.utf8EncodeChar

@[simp]
theorem bytes_append (left right : List Char) :
    bytes (left ++ right) = bytes left ++ bytes right :=
  List.flatMap_append

@[simp]
theorem length_bytes (text : List Char) : (bytes text).length = byteLength text := by
  induction text with
  | nil => rfl
  | cons c rest ih =>
      simp only [bytes, List.flatMap_cons, List.length_append, byteLength_cons] at ih ⊢
      rw [String.length_utf8EncodeChar, ih]

/-- The byte at an offset of a source. -/
def byteAt? (source : String) (offset : Nat) : Option UInt8 :=
  source.toUTF8.data[offset]?

theorem toList_toUTF8 (source : String) : source.toUTF8.data.toList = bytes source.toList := by
  rw [String.toUTF8_eq_toByteArray, ← String.utf8Encode_toList, List.utf8Encode, bytes,
    List.toList_data_toByteArray]

theorem byteAt?_eq (source : String) (offset : Nat) :
    byteAt? source offset = (bytes source.toList)[offset]? := by
  rw [byteAt?, ← toList_toUTF8, Array.getElem?_toList]

theorem utf8ByteSize_eq (source : String) : source.utf8ByteSize = byteLength source.toList := by
  rw [← length_bytes, ← toList_toUTF8, Array.length_toList]
  rfl

theorem ofNat_ne_lineFeed {code : Nat} (small : code < 256) (other : code ≠ 10) :
    UInt8.ofNat code ≠ 0x0A := by
  intro same
  have number := congrArg UInt8.toNat same
  rw [UInt8.toNat_ofNat', Nat.mod_eq_of_lt small] at number
  exact other number

/-- Only the line feed is written with the byte of the line feed. -/
theorem ne_of_mem_utf8EncodeChar {c : Char} (other : c ≠ '\n') :
    ∀ byte ∈ String.utf8EncodeChar c, byte ≠ 0x0A := by
  have code : c.val.toNat ≠ 10 := fun same => other (Char.ext (UInt32.toNat_inj.mp same))
  simp only [String.utf8EncodeChar]
  split
  · simp only [List.forall_mem_cons, List.not_mem_nil, false_imp_iff, implies_true, and_true]
    exact ofNat_ne_lineFeed (by omega) code
  · split
    · simp only [List.forall_mem_cons, List.not_mem_nil, false_imp_iff, implies_true, and_true]
      exact ⟨ofNat_ne_lineFeed (by omega) (by omega), ofNat_ne_lineFeed (by omega) (by omega)⟩
    · split
      · simp only [List.forall_mem_cons, List.not_mem_nil, false_imp_iff, implies_true, and_true]
        exact ⟨ofNat_ne_lineFeed (by omega) (by omega), ofNat_ne_lineFeed (by omega) (by omega),
          ofNat_ne_lineFeed (by omega) (by omega)⟩
      · simp only [List.forall_mem_cons, List.not_mem_nil, false_imp_iff, implies_true, and_true]
        exact ⟨ofNat_ne_lineFeed (by omega) (by omega), ofNat_ne_lineFeed (by omega) (by omega),
          ofNat_ne_lineFeed (by omega) (by omega), ofNat_ne_lineFeed (by omega) (by omega)⟩

/-- The bytes of the characters that may stand between tokens: space, tab, carriage return and line
feed. -/
def blankBytes : List UInt8 :=
  [0x20, 0x09, 0x0D, 0x0A]

theorem toNat_of_mem_blankBytes {byte : UInt8} (member : byte ∈ blankBytes) :
    byte.toNat = 32 ∨ byte.toNat = 9 ∨ byte.toNat = 13 ∨ byte.toNat = 10 := by
  simp only [blankBytes, List.mem_cons, List.not_mem_nil, or_false] at member
  rcases member with rfl | rfl | rfl | rfl <;> decide

theorem isBlank_of_toNat {c : Char}
    (code : c.val.toNat = 32 ∨ c.val.toNat = 9 ∨ c.val.toNat = 13 ∨ c.val.toNat = 10) :
    isBlank c = true := by
  have same : ∀ d : Char, c.val.toNat = d.val.toNat → c = d :=
    fun d equal => Char.ext (UInt32.toNat_inj.mp equal)
  rcases code with code | code | code | code
  · rw [same ' ' code]; rfl
  · rw [same '\t' code]; rfl
  · rw [same '\r' code]; rfl
  · rw [same '\n' code]; rfl

theorem utf8EncodeChar_of_isBlank {c : Char} (blank : isBlank c = true) :
    ∃ byte ∈ blankBytes, String.utf8EncodeChar c = [byte] := by
  simp only [isBlank, Bool.or_eq_true, beq_iff_eq] at blank
  rcases blank with ((rfl | rfl) | rfl) | rfl
  · exact ⟨0x20, by simp [blankBytes], rfl⟩
  · exact ⟨0x09, by simp [blankBytes], rfl⟩
  · exact ⟨0x0D, by simp [blankBytes], rfl⟩
  · exact ⟨0x0A, by simp [blankBytes], rfl⟩

theorem mem_blankBytes_of_isBlank {text : List Char} (blank : ∀ c ∈ text, isBlank c = true) :
    ∀ byte ∈ bytes text, byte ∈ blankBytes := by
  intro byte member
  obtain ⟨c, inText, inChar⟩ := List.mem_flatMap.mp member
  obtain ⟨other, mark, encoded⟩ := utf8EncodeChar_of_isBlank (blank c inText)
  rw [encoded, List.mem_singleton] at inChar
  rw [inChar]
  exact mark

/-- A character that is no blank does not start with the byte of one. -/
theorem head_bytes_of_not_isBlank {c : Char} (text : List Char) (solid : isBlank c = false) :
    ∃ byte, (bytes (c :: text))[0]? = some byte ∧ byte ∉ blankBytes := by
  have other : ∀ byte : UInt8, 32 < byte.toNat → byte ∉ blankBytes := by
    intro byte large member
    have small := toNat_of_mem_blankBytes member
    omega
  simp only [bytes, List.flatMap_cons, String.utf8EncodeChar]
  split
  · next ascii =>
      refine ⟨UInt8.ofNat c.val.toNat, rfl, ?_⟩
      intro member
      have code := toNat_of_mem_blankBytes member
      rw [UInt8.toNat_ofNat', Nat.mod_eq_of_lt (by omega)] at code
      rw [isBlank_of_toNat code] at solid
      exact absurd solid (by simp)
  · split
    · refine ⟨_, rfl, other _ ?_⟩
      rw [UInt8.toNat_ofNat', Nat.mod_eq_of_lt (by omega)]
      omega
    · split
      · refine ⟨_, rfl, other _ ?_⟩
        rw [UInt8.toNat_ofNat', Nat.mod_eq_of_lt (by omega)]
        omega
      · refine ⟨_, rfl, other _ ?_⟩
        rw [UInt8.toNat_ofNat', Nat.mod_eq_of_lt (by omega)]
        omega

/-! ## Positions -/

/-- The offset at which a line of a text starts, if the text has that line. Lines are counted from
one, and each line feed ends one. -/
def lineStart? : Nat → List Char → Option Nat
  | 0, _ => none
  | 1, _ => some 0
  | _ + 2, [] => none
  | line + 2, c :: rest =>
      if c = '\n' then (lineStart? (line + 1) rest).map (c.utf8Size + ·)
      else (lineStart? (line + 2) rest).map (c.utf8Size + ·)

/-- The offset that a position of a text stands for, if it stands for one. Columns are counted from
one. -/
def Position.offsetIn? : Position → List Char → Option Nat
  | ⟨_, 0⟩, _ => none
  | ⟨line, column + 1⟩, text => (lineStart? line text).map (· + column)

theorem Position.counted_of_offsetIn? {position : Position} {text : List Char} {offset : Nat}
    (stands : position.offsetIn? text = some offset) :
    1 ≤ position.line ∧ 1 ≤ position.column := by
  rcases position with ⟨_ | line, _ | column⟩
  · exact absurd stands (by simp [Position.offsetIn?])
  · exact absurd stands (by simp [Position.offsetIn?, lineStart?])
  · exact absurd stands (by simp [Position.offsetIn?])
  · exact ⟨Nat.le_add_left 1 line, Nat.le_add_left 1 column⟩

namespace LineTable

theorem getElem?_startsAfter (text : List Char) (base line : Nat) :
    (startsAfter base text)[line]? = (lineStart? (line + 2) text).map (base + ·) := by
  induction text generalizing base line with
  | nil => simp [startsAfter, lineStart?]
  | cons c rest ih =>
      have shift : ∀ start : Option Nat, (start.map (c.utf8Size + ·)).map (base + ·) =
          start.map (base + c.utf8Size + ·) := by
        intro start
        cases start with
        | none => rfl
        | some start => exact congrArg some (Nat.add_assoc base c.utf8Size start).symm
      simp only [startsAfter, lineStart?]
      by_cases feed : c = '\n'
      · rw [if_pos feed, if_pos feed, shift]
        cases line with
        | zero => simp [lineStart?]
        | succ line => rw [List.getElem?_cons_succ, ih]
      · rw [if_neg feed, if_neg feed, shift, ih]

theorem getElem?_starts_ofText (text : List Char) (line : Nat) :
    (ofText text).starts[line]? = lineStart? (line + 1) text := by
  rw [ofText, List.getElem?_toArray]
  cases line with
  | zero => simp [lineStart?]
  | succ line =>
      rw [List.getElem?_cons_succ, getElem?_startsAfter]
      simp

/-- What a search knows at the ends of its range holds at the place it finds. -/
theorem firstBeyond_spec (starts : Array Nat) (offset low high : Nat) (range : low ≤ high)
    (before : low = 0 ∨ starts.getD (low - 1) 0 ≤ offset)
    (behind : high = starts.size ∨ offset < starts.getD high 0) :
    let found := firstBeyond starts offset low high
    low ≤ found ∧ found ≤ high ∧ (found = 0 ∨ starts.getD (found - 1) 0 ≤ offset) ∧
      (found = starts.size ∨ offset < starts.getD found 0) := by
  fun_induction firstBeyond starts offset low high with
  | case1 low high inside middle small ih =>
      have halved : low ≤ middle ∧ middle < high := by omega
      have step := ih (by omega) (Or.inr small) behind
      exact ⟨by omega, step.2⟩
  | case2 low high inside middle large ih =>
      have halved : low ≤ middle ∧ middle < high := by omega
      have step := ih halved.1 before (Or.inr (by omega))
      exact ⟨step.1, by omega, step.2.2⟩
  | case3 low high outside =>
      have ends : low = high := by omega
      subst ends
      exact ⟨Nat.le_refl _, Nat.le_refl _, before, behind⟩

/-- The lines up to an offset are those that start at it or before it. -/
theorem linesUpTo_separates (table : LineTable) (offset : Nat) :
    table.linesUpTo offset ≤ table.starts.size ∧
      (table.linesUpTo offset = 0 ∨ table.starts.getD (table.linesUpTo offset - 1) 0 ≤ offset) ∧
      (table.linesUpTo offset = table.starts.size ∨
        offset < table.starts.getD (table.linesUpTo offset) 0) :=
  (firstBeyond_spec table.starts offset 0 table.starts.size (Nat.zero_le _) (Or.inl rfl)
    (Or.inl rfl)).2

theorem linesUpTo_spec (table : LineTable) (offset : Nat) :
    1 ≤ table.linesUpTo offset ∧ table.linesUpTo offset ≤ table.starts.size ∧
      table.start (table.linesUpTo offset) ≤ offset := by
  obtain ⟨known, before, behind⟩ := table.linesUpTo_separates offset
  obtain ⟨inside, first⟩ := Array.getElem?_eq_some_iff.mp table.first_start
  have positive : table.linesUpTo offset ≠ 0 := by
    intro none
    rw [none, Array.getD_eq_getD_getElem?, table.first_start, Option.getD_some] at behind
    omega
  exact ⟨by omega, known, before.resolve_left positive⟩

/-- The line behind that of an offset starts beyond the offset. -/
theorem lt_start_of_linesUpTo {table : LineTable} {offset : Nat}
    (more : table.linesUpTo offset < table.starts.size) :
    offset < table.start (table.linesUpTo offset + 1) := by
  obtain ⟨-, -, behind⟩ := table.linesUpTo_separates offset
  exact behind.resolve_left (Nat.ne_of_lt more)

theorem getElem?_starts (table : LineTable) {line : Nat} (known : line < table.starts.size) :
    table.starts[line]? = some (table.start (line + 1)) := by
  rw [start, Nat.add_sub_cancel, Array.getD_eq_getD_getElem?, Array.getElem?_eq_getElem known,
    Option.getD_some]

/-- The position that the line table of a text gives for an offset stands for that offset. -/
theorem offsetIn?_position (text : List Char) (offset : Nat) :
    ((ofText text).position offset).offsetIn? text = some offset := by
  obtain ⟨positive, known, before⟩ := linesUpTo_spec (ofText text) offset
  obtain ⟨line, number⟩ : ∃ line, (ofText text).linesUpTo offset = line + 1 :=
    ⟨(ofText text).linesUpTo offset - 1, by omega⟩
  rw [number] at known before
  have starts := getElem?_starts (ofText text) known
  rw [getElem?_starts_ofText] at starts
  rw [position, number, Position.offsetIn?, starts, Option.map_some, Nat.add_sub_cancel' before]

end LineTable

end SmallMl
