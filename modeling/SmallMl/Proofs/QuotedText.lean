import SmallMl.Text.Quoted

/-!
# Quoted text reads back

Between double quotes every character is written so that it can be read back without looking at what
follows. Main statements: two strings with one quoted text are one string, and a quoted text holds
no line feed.
-/

namespace SmallMl

/-- The number that a hexadecimal digit stands for. -/
def hexDigitValue (c : Char) : Nat :=
  if c.isDigit then c.toNat - '0'.toNat else c.toNat - 'a'.toNat + 10

/-- The number that a run of hexadecimal digits stands for. -/
def hexValue (digits : List Char) : Nat :=
  digits.foldl (fun value c => 16 * value + hexDigitValue c) 0

theorem hexDigitValue_digitChar {digit : Nat} (small : digit < 16) :
    hexDigitValue digit.digitChar = digit :=
  (by decide : ∀ digit : Fin 16, hexDigitValue digit.val.digitChar = digit.val) ⟨digit, small⟩

theorem hexValue_toDigits (n : Nat) : hexValue (Nat.toDigits 16 n) = n := by
  induction n using Nat.strongRecOn with
  | ind n ih =>
      rw [Nat.toDigits_eq_if (by decide)]
      split
      · next small => simp [hexValue, hexDigitValue_digitChar small]
      · next large =>
          have front := ih (n / 16) (Nat.div_lt_self (by omega) (by decide))
          have last := hexDigitValue_digitChar (Nat.mod_lt n (by decide : 16 > 0))
          rw [hexValue] at *
          rw [List.foldl_append, front, List.foldl_cons, List.foldl_nil, last]
          exact Nat.div_add_mod n 16

theorem mem_toDigits_sixteen {n : Nat} {c : Char} (member : c ∈ Nat.toDigits 16 n) :
    ∃ digit < 16, c = digit.digitChar := by
  induction n using Nat.strongRecOn with
  | ind n ih =>
      rw [Nat.toDigits_eq_if (by decide)] at member
      split at member
      · next small => exact ⟨n, small, List.mem_singleton.mp member⟩
      · next large =>
          rcases List.mem_append.mp member with front | last
          · exact ih (n / 16) (Nat.div_lt_self (by omega) (by decide)) front
          · exact ⟨n % 16, Nat.mod_lt _ (by decide), List.mem_singleton.mp last⟩

/-- Hexadecimal digits are neither the closing brace nor a line feed. -/
theorem ne_of_mem_toDigits_sixteen {n : Nat} {c : Char} (member : c ∈ Nat.toDigits 16 n) :
    c ≠ '\x7d' ∧ c ≠ '\n' := by
  obtain ⟨digit, small, rfl⟩ := mem_toDigits_sixteen member
  exact (by decide : ∀ digit : Fin 16, digit.val.digitChar ≠ '\x7d' ∧ digit.val.digitChar ≠ '\n')
    ⟨digit, small⟩

/-- The character that a letter behind a backslash stands for. -/
def escapeMeaning (letter : Char) : Char :=
  if letter = '0' then '\x00'
  else if letter = 't' then '\t'
  else if letter = 'r' then '\r'
  else if letter = 'n' then '\n'
  else letter

/-- The character that is written at the front of a text, and the text behind it. -/
def readEscaped? : List Char → Option (Char × List Char)
  | [] => none
  | '\\' :: 'u' :: text =>
      let digits := (text.drop 1).takeWhile (· ≠ '\x7d')
      some (Char.ofNat (hexValue digits), text.drop (digits.length + 2))
  | '\\' :: letter :: text => some (escapeMeaning letter, text)
  | c :: text => some (c, text)

theorem readEscaped?_codePointEscape (c : Char) (rest : List Char) :
    readEscaped? (codePointEscape c ++ rest) = some (c, rest) := by
  have run : (Nat.toDigits 16 c.toNat ++ '\x7d' :: rest).takeWhile (· ≠ '\x7d') =
      Nat.toDigits 16 c.toNat := by
    rw [List.takeWhile_append_of_pos, List.takeWhile_cons_of_neg, List.append_nil]
    · simp
    · exact fun digit member => decide_eq_true (ne_of_mem_toDigits_sixteen member).1
  simp only [codePointEscape, List.cons_append, List.nil_append, List.append_assoc, readEscaped?,
    List.drop_succ_cons, List.drop_zero, run, hexValue_toDigits, Char.ofNat_toNat]
  simp

theorem readEscaped?_escaped (c : Char) (rest : List Char) :
    readEscaped? (escaped '"' c ++ rest) = some (c, rest) := by
  unfold escaped
  split
  · next null => rw [null]; rfl
  split
  · next tab => rw [tab]; rfl
  split
  · next carriageReturn => rw [carriageReturn]; rfl
  split
  · next lineFeed => rw [lineFeed]; rfl
  split
  · next backslash => rw [backslash]; rfl
  split
  · next quote => rw [quote]; rfl
  split
  · exact readEscaped?_codePointEscape c rest
  · next backslash _ _ => simp [readEscaped?, backslash]

theorem escaped_ne_nil (quote c : Char) : escaped quote c ≠ [] := by
  unfold escaped
  repeat' split
  all_goals simp [codePointEscape]

theorem flatMap_escaped_injective {first second : List Char}
    (same : first.flatMap (escaped '"') = second.flatMap (escaped '"')) : first = second := by
  induction first generalizing second with
  | nil =>
      cases second with
      | nil => rfl
      | cons d second =>
          have none := List.append_eq_nil_iff.mp (same.symm.trans List.flatMap_nil)
          exact absurd none.1 (escaped_ne_nil '"' d)
  | cons c first ih =>
      cases second with
      | nil =>
          have none := List.append_eq_nil_iff.mp (same.trans List.flatMap_nil)
          exact absurd none.1 (escaped_ne_nil '"' c)
      | cons d second =>
          have reads := congrArg readEscaped? same
          rw [List.flatMap_cons, List.flatMap_cons, readEscaped?_escaped, readEscaped?_escaped]
            at reads
          obtain ⟨rfl, rests⟩ := Prod.mk.inj (Option.some.inj reads)
          rw [ih rests]

/-- Two strings with one quoted text are one string. -/
@[simp]
theorem quotedString_inj {first second : String} :
    quotedString first = quotedString second ↔ first = second := by
  refine ⟨fun same => ?_, fun same => by rw [same]⟩
  have bodies := List.cons.inj (String.ofList_injective same)
  exact String.toList_inj.mp (flatMap_escaped_injective (List.append_cancel_right bodies.2))

theorem lineFeed_not_mem_escaped (c : Char) : '\n' ∉ escaped '"' c := by
  unfold escaped
  split
  · decide
  split
  · decide
  split
  · decide
  split
  · decide
  split
  · decide
  split
  · decide
  split
  · intro member
    simp only [codePointEscape, List.mem_append] at member
    rcases member with (opening | digit) | closing
    · exact absurd opening (by decide)
    · exact (ne_of_mem_toDigits_sixteen digit).2 rfl
    · exact absurd closing (by decide)
  · next lineFeed _ _ _ => exact fun member => lineFeed (List.mem_singleton.mp member).symm

/-- A quoted text holds no line feed. -/
theorem lineFeed_not_mem_quotedString (text : String) : '\n' ∉ (quotedString text).toList := by
  simp only [quotedString, String.toList_ofList, quotedBy, List.mem_cons, List.mem_append,
    List.mem_flatMap, not_or, not_exists, not_and]
  exact ⟨by decide, fun c _ => lineFeed_not_mem_escaped c, by decide⟩

end SmallMl
