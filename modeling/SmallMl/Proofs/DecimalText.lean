import SmallMl.Numeric.Style
import SmallMl.Proofs.Numerals
import SmallMl.Proofs.Rounding

/-!
# Decimal texts read back

In every style a decimal is written as a numeral that stands for it, so the text of a finite value
is read as that value. Main statement: two values with one text are one value, or neither is a
number.
-/

namespace SmallMl

theorem allDigits_toDigits (n : Nat) : AllDigits (Nat.toDigits 10 n) :=
  fun _ digit => Nat.isDigit_of_mem_toDigits (by decide) (by decide) digit

theorem allDigits_append {first second : List Char} (one : AllDigits first)
    (other : AllDigits second) : AllDigits (first ++ second) :=
  fun c member => (List.mem_append.mp member).elim (one c) (other c)

theorem allDigits_zeros (count : Nat) : AllDigits (List.replicate count '0') := by
  intro c member
  rw [List.eq_of_mem_replicate member]
  decide

@[simp]
theorem digitValue_toDigits (n : Nat) : digitValue (Nat.toDigits 10 n) = n :=
  Nat.ofDigitChars_ten_toDigits

theorem digitValue_zeros_append (count : Nat) (digits : List Char) :
    digitValue (List.replicate count '0' ++ digits) = digitValue digits := by
  simp [digitValue, Nat.ofDigitChars_append, Nat.ofDigitChars_replicate_zero]

theorem digitValue_append_zeros (count : Nat) (digits : List Char) :
    digitValue (digits ++ List.replicate count '0') = digitValue digits * 10 ^ count := by
  simp [digitValue, Nat.ofDigitChars_append, Nat.ofDigitChars_replicate_zero, Nat.mul_comm]

namespace Decimal

/-- Zeros behind the digits count as much as the exponent. -/
theorem trimmed_zeros (digits count : Nat) (exponent : Int) :
    trimmed ⟨digits * 10 ^ count, exponent⟩ = trimmed ⟨digits, exponent + count⟩ := by
  induction count generalizing exponent with
  | zero => simp
  | succ count ih =>
      have shorter : trimmed ⟨digits * 10 ^ (count + 1), exponent⟩ =
          trimmed ⟨digits * 10 ^ count, exponent + 1⟩ := by
        simp only [trimmed]
        by_cases zero : digits * 10 ^ count = 0
        · simp [Nat.pow_succ, ← Nat.mul_assoc, zero, trimmedOf]
        · rw [trimmedOf, if_neg (by rw [Nat.pow_succ, ← Nat.mul_assoc]; omega),
            if_pos (by rw [Nat.pow_succ, ← Nat.mul_assoc]; omega)]
          congr 1
          rw [Nat.pow_succ, ← Nat.mul_assoc]
          omega
      rw [shorter, ih]
      congr 2
      omega

theorem toBinary64_congr {first second : Decimal} (same : first.trimmed = second.trimmed) :
    first.toBinary64 = second.toBinary64 := by
  rw [toBinary64, toBinary64, same]

end Decimal

namespace Exponent

/-- Every order is written as an exponent of that value. -/
theorem exists_of_order (order : Int) :
    ∃ e : Exponent, e.WellFormed ∧ e.lexeme = 'e' :: (toString order).toList ∧ e.value = order := by
  cases order with
  | ofNat n =>
      refine ⟨⟨'e', none, Nat.toDigits 10 n⟩,
        ⟨.inl rfl, by simp, Nat.toDigits_ne_nil, allDigits_toDigits n⟩, ?_, by simp [value]⟩
      change _ = 'e' :: (toString n).toList
      simp [lexeme]
  | negSucc n =>
      refine ⟨⟨'e', some '-', Nat.toDigits 10 (n + 1)⟩,
        ⟨.inl rfl, by simp, Nat.toDigits_ne_nil, allDigits_toDigits (n + 1)⟩, ?_, ?_⟩
      · change _ = 'e' :: ("-" ++ toString (n + 1)).toList
        simp [lexeme]
      · simp only [value, if_true, digitValue_toDigits]
        omega

theorem lexeme_injective {first second : Exponent} (one : first.WellFormed)
    (other : second.WellFormed) (same : first.lexeme = second.lexeme) : first = second := by
  have reads : ∀ e : Exponent, e.WellFormed → split? (e.lexeme ++ []) = some (e, []) := by
    intro e formed
    rw [split?_lexeme_append formed]
    simp [digitRun, afterDigits]
  have read := reads first one
  rw [same, reads second other] at read
  exact (congrArg Prod.fst (Option.some.inj read)).symm

end Exponent

theorem toString_int_injective {first second : Int} (same : toString first = toString second) :
    first = second := by
  obtain ⟨e, formed, lexeme, rfl⟩ := Exponent.exists_of_order first
  obtain ⟨other, formed', lexeme', rfl⟩ := Exponent.exists_of_order second
  rw [Exponent.lexeme_injective formed formed' (by rw [lexeme, lexeme', same])]

theorem toString_nat_injective {first second : Nat} (same : toString first = toString second) :
    first = second :=
  Int.ofNat.inj (@toString_int_injective (Int.ofNat first) (Int.ofNat second) same)

/-- A number is written with digits only. -/
theorem not_mem_toString_nat {c : Char} (digitless : c.isDigit = false) (n : Nat) :
    c ∉ (toString n).toList := by
  intro member
  rw [Nat.toString_eq_ofList_toDigits, String.toList_ofList] at member
  rw [allDigits_toDigits n c member] at digitless
  exact absurd digitless (by decide)

/-- An integer is written with digits and a sign. -/
theorem not_mem_toString_int {c : Char} (digitless : c.isDigit = false) (signless : c ≠ '-')
    (n : Int) : c ∉ (toString n).toList := by
  cases n with
  | ofNat n => exact not_mem_toString_nat digitless n
  | negSucc n =>
      change c ∉ ("-" ++ toString (n + 1)).toList
      rw [String.toList_append, List.mem_append]
      rintro (sign | digit)
      · exact signless (List.mem_singleton.mp sign)
      · exact not_mem_toString_nat digitless (n + 1) digit

/-- The numeral is a text for the decimal. -/
structure Numeral.Writes (n : Numeral) (text : List Char) (d : Decimal) : Prop where
  formed : n.WellFormed
  lexeme : n.lexeme = text
  decimal : n.decimal.trimmed = d.trimmed

namespace DecimalStyle

variable (style : DecimalStyle)

/-- The exponent that the place of the point gives to digits before and behind it. -/
def placed (digits : List Char) (before : Int) : Decimal :=
  ⟨digitValue digits, before - digits.length⟩

theorem writes_of_point_before {digits : List Char} (all : AllDigits digits) {before : Int}
    (small : before ≤ 0) :
    ∃ n : Numeral, n.Writes (style.positionalText digits before) (placed digits before) := by
  refine ⟨⟨['0'], some (List.replicate (-before).toNat '0' ++ digits), none⟩,
    ⟨⟨by simp, allDigits_zeros 1, ?_, by simp⟩, ?_, ?_⟩⟩
  · rintro _ ⟨⟩
    exact allDigits_append (allDigits_zeros _) all
  · simp [Numeral.lexeme, positionalText, small]
  · have zeros := digitValue_zeros_append ((-before).toNat + 1) digits
    rw [List.replicate_succ, List.cons_append] at zeros
    have exponent :
        0 - (((-before).toNat + digits.length : Nat) : Int) = before - digits.length := by
      omega
    simp only [Numeral.decimal, Option.getD_some, List.cons_append, List.nil_append, zeros,
      Option.map_none, Option.getD_none, List.length_append, List.length_replicate, exponent,
      placed]

theorem writes_of_point_inside {digits : List Char} (all : AllDigits digits) {before : Int}
    (large : ¬ before ≤ 0) (inside : before.toNat < digits.length) :
    ∃ n : Numeral, n.Writes (style.positionalText digits before) (placed digits before) := by
  refine ⟨⟨digits.take before.toNat, some (digits.drop before.toNat), none⟩,
    ⟨⟨?_, fun c front => all c (List.mem_of_mem_take front), ?_, by simp⟩, ?_, ?_⟩⟩
  · rw [Ne, List.take_eq_nil_iff]
    rintro (none | rfl)
    · omega
    · exact absurd inside (Nat.not_lt_zero _)
  · rintro _ ⟨⟩
    exact fun c behind => all c (List.mem_of_mem_drop behind)
  · simp [Numeral.lexeme, positionalText, large, inside]
  · have exponent : 0 - ((digits.length - before.toNat : Nat) : Int) = before - digits.length := by
      omega
    simp only [Numeral.decimal, Option.getD_some, List.take_append_drop, Option.map_none,
      Option.getD_none, List.length_drop, exponent, placed]

theorem writes_of_point_behind {digits : List Char} (nonempty : digits ≠ [])
    (all : AllDigits digits) {before : Int} (large : ¬ before ≤ 0)
    (outside : ¬ before.toNat < digits.length) :
    ∃ n : Numeral, n.Writes (style.positionalText digits before) (placed digits before) := by
  have whole : AllDigits (digits ++ List.replicate (before.toNat - digits.length) '0') :=
    allDigits_append all (allDigits_zeros _)
  by_cases keeps : style.keepsFraction = true
  · refine ⟨⟨digits ++ List.replicate (before.toNat - digits.length) '0', some ['0'], none⟩,
      ⟨⟨by simp [nonempty], whole, ?_, by simp⟩, ?_, ?_⟩⟩
    · rintro _ ⟨⟩
      exact allDigits_zeros 1
    · simp [Numeral.lexeme, positionalText, large, outside, keeps]
    · have zeros := digitValue_append_zeros (before.toNat - digits.length + 1) digits
      rw [List.replicate_succ', ← List.append_assoc] at zeros
      simp only [Numeral.decimal, Option.getD_some, zeros, Option.map_none, Option.getD_none,
        Decimal.trimmed_zeros, List.length_singleton, placed]
      congr 2
      omega
  · refine ⟨⟨digits ++ List.replicate (before.toNat - digits.length) '0', none, none⟩,
      ⟨⟨by simp [nonempty], whole, by simp, by simp⟩, ?_, ?_⟩⟩
    · simp [Numeral.lexeme, positionalText, large, outside, keeps]
    · simp only [Numeral.decimal, Option.getD_none, List.append_nil, digitValue_append_zeros,
        Option.map_none, Decimal.trimmed_zeros, List.length_nil, placed]
      congr 2
      omega

/-- Digits with the point among them, or with zeros between the two, write the number that the place
of the point gives. -/
theorem writes_positionalText {digits : List Char} (nonempty : digits ≠ [])
    (all : AllDigits digits) (before : Int) :
    ∃ n : Numeral, n.Writes (style.positionalText digits before) (placed digits before) := by
  by_cases small : before ≤ 0
  · exact style.writes_of_point_before all small
  · by_cases inside : before.toNat < digits.length
    · exact style.writes_of_point_inside all small inside
    · exact style.writes_of_point_behind nonempty all small inside

/-- Digits with the point behind the first one, and the order, write the number whose first digit
has that order. -/
theorem writes_scientificText {digits : List Char} (nonempty : digits ≠ []) (all : AllDigits digits)
    (order : Int) :
    ∃ n : Numeral, n.Writes (scientificText digits order)
      (placed digits (order + 1)) := by
  obtain ⟨e, formed, lexeme, value⟩ := Exponent.exists_of_order order
  obtain ⟨first, rest, rfl⟩ := List.exists_cons_of_ne_nil nonempty
  have single : AllDigits [first] := fun c here => all c (by simp_all)
  by_cases only : rest = []
  · subst only
    refine ⟨⟨[first], none, some e⟩, ⟨⟨by simp, single, by simp, ?_⟩, ?_, ?_⟩⟩
    · rintro _ ⟨⟩
      exact formed
    · simp [Numeral.lexeme, scientificText, lexeme]
    · simp [Numeral.decimal, value, placed]
  · refine ⟨⟨[first], some rest, some e⟩, ⟨⟨by simp, single, ?_, ?_⟩, ?_, ?_⟩⟩
    · rintro _ ⟨⟩
      exact fun c behind => all c (List.mem_cons_of_mem _ behind)
    · rintro _ ⟨⟩
      exact formed
    · simp [Numeral.lexeme, scientificText, lexeme, only]
    · simp [Numeral.decimal, value, placed]

/-- Every decimal is written as a numeral that stands for it. -/
theorem writes_decimalText (d : Decimal) : ∃ n : Numeral, n.Writes (style.decimalText d) d := by
  have nonempty : Nat.toDigits 10 d.digits ≠ [] := Nat.toDigits_ne_nil
  have all := allDigits_toDigits d.digits
  have same : placed (Nat.toDigits 10 d.digits)
      (d.exponent + Int.ofNat (Nat.toDigits 10 d.digits).length) = d := by
    simp [placed]
  simp only [decimalText]
  split
  · have written := writes_scientificText nonempty all
      (d.exponent + Int.ofNat (Nat.toDigits 10 d.digits).length - 1)
    rwa [Int.sub_add_cancel, same] at written
  · have written := style.writes_positionalText nonempty all
      (d.exponent + Int.ofNat (Nat.toDigits 10 d.digits).length)
    rwa [same] at written

/-- The text of a finite magnitude is a numeral that is read as it. -/
theorem exists_numeral_of_finite {magnitude : Nat}
    (finite : magnitude < Binary64.infiniteMagnitude) :
    ∃ n : Numeral, n.WellFormed ∧
      n.lexeme = style.decimalText (Binary64.shortestDecimal magnitude) ∧
      n.decimal.toBinary64 = .ofMagnitude magnitude := by
  obtain ⟨n, formed, lexeme, decimal⟩ :=
    style.writes_decimalText (Binary64.shortestDecimal magnitude)
  refine ⟨n, formed, lexeme, ?_⟩
  rw [Decimal.toBinary64_congr decimal, Binary64.toBinary64_shortestDecimal finite]

end DecimalStyle

namespace Numeral

theorem exists_digit_of_lexeme {n : Numeral} (formed : n.WellFormed) :
    ∃ c rest, n.lexeme = c :: rest ∧ c.isDigit = true := by
  obtain ⟨c, rest, front⟩ := List.exists_cons_of_ne_nil formed.nonempty
  have digit := formed.whole c (by rw [front]; exact List.mem_cons_self ..)
  exact ⟨c, n.lexeme.tail, by simp [lexeme, front], digit⟩

/-- A numeral is made of digits, points, marks of an exponent and signs. -/
theorem mem_lexeme {n : Numeral} (formed : n.WellFormed) {c : Char} (member : c ∈ n.lexeme) :
    c.isDigit = true ∨ c ∈ ['.', 'e', 'E', '+', '-'] := by
  obtain ⟨nonempty, whole, fraction, exponent⟩ := formed
  obtain ⟨before, behind, scale⟩ := n
  simp only [lexeme, List.mem_append] at member
  rcases member with (front | point) | last
  · exact .inl (whole c front)
  · cases behind with
    | none => exact absurd point (List.not_mem_nil)
    | some digits =>
        rcases List.mem_cons.mp point with rfl | digit
        · exact .inr (by simp)
        · exact .inl (fraction digits rfl c digit)
  · cases scale with
    | none => exact absurd last (List.not_mem_nil)
    | some e =>
        obtain ⟨mark, sign, _, digits⟩ := exponent e rfl
        simp only [Exponent.lexeme, List.mem_cons, List.mem_append, Option.mem_toList] at last
        rcases last with rfl | signed | digit
        · rcases mark with mark | mark <;> simp [mark]
        · rcases sign c signed with rfl | rfl <;> simp
        · exact .inl (digits c digit)

end Numeral

namespace Binary64

/-- One value that is no number. -/
def notANumber : Binary64 :=
  ⟨0x7ff8000000000000⟩

/-- The value, with one in place of all that are no number. -/
def canonical (x : Binary64) : Binary64 :=
  if x.isNaN then notANumber else x

@[simp]
theorem isNaN_canonical (x : Binary64) : x.canonical.isNaN = x.isNaN := by
  unfold canonical
  split
  · next none =>
      rw [none]
      decide
  · rfl

theorem canonical_of_number {x : Binary64} (number : x.isNaN = false) : x.canonical = x := by
  simp [canonical, number]

theorem canonical_of_isNaN {x : Binary64} (none : x.isNaN = true) : x.canonical = notANumber :=
  if_pos none

@[simp]
theorem canonical_canonical (x : Binary64) : x.canonical.canonical = x.canonical := by
  cases number : x.isNaN with
  | true => rw [canonical_of_isNaN number]; decide
  | false => rw [canonical_of_number number, canonical_of_number number]

/-- The sign and the magnitude make up the value. -/
theorem eq_of_sign_of_magnitude {x y : Binary64} (sign : x.isNegative = y.isNegative)
    (magnitudes : x.magnitude = y.magnitude) : x = y := by
  obtain ⟨x⟩ := x
  obtain ⟨y⟩ := y
  congr 1
  apply UInt64.toNat_inj.mp
  have widthX := x.toNat_lt
  have widthY := y.toNat_lt
  have signs : signWeight ≤ x.toNat ↔ signWeight ≤ y.toNat := decide_eq_decide.mp sign
  simp only [magnitude, signWeight] at signs magnitudes
  omega

theorem isNaN_ofMagnitude (n : Nat) : (ofMagnitude n).isNaN = false := by
  rw [isNaN, magnitude_ofMagnitude, decide_eq_false_iff_not, Nat.not_lt]
  exact Nat.min_le_right _ _

theorem isNegative_ofMagnitude (n : Nat) : (ofMagnitude n).isNegative = false := by
  have bound : min n infiniteMagnitude ≤ infiniteMagnitude := Nat.min_le_right _ _
  simp only [isNegative, ofMagnitude, Nat.toUInt64, UInt64.toNat_ofNat', decide_eq_false_iff_not]
  rw [infiniteMagnitude, fractionCount] at *
  rw [signWeight]
  omega

theorem ofMagnitude_injective {first second : Nat} (one : first < infiniteMagnitude)
    (other : second < infiniteMagnitude) (same : ofMagnitude first = ofMagnitude second) :
    first = second := by
  have magnitudes := congrArg magnitude same
  rwa [magnitude_ofMagnitude, magnitude_ofMagnitude, Nat.min_eq_left one.le,
    Nat.min_eq_left other.le] at magnitudes

end Binary64

namespace Decimal

/-- The value nearest to a decimal is a magnitude, be it infinity. -/
theorem exists_magnitude (d : Decimal) : ∃ n, d.toBinary64 = .ofMagnitude n := by
  unfold toBinary64
  dsimp only
  split
  · exact ⟨_, rfl⟩
  · split
    · exact ⟨_, rfl⟩
    · split <;> exact ⟨_, rfl⟩

theorem isNaN_toBinary64 (d : Decimal) : d.toBinary64.isNaN = false := by
  obtain ⟨n, same⟩ := d.exists_magnitude
  rw [same, Binary64.isNaN_ofMagnitude]

theorem isNegative_toBinary64 (d : Decimal) : d.toBinary64.isNegative = false := by
  obtain ⟨n, same⟩ := d.exists_magnitude
  rw [same, Binary64.isNegative_ofMagnitude]

end Decimal

namespace DecimalStyle

variable (style : DecimalStyle)

/-- The text of a magnitude. -/
def magnitudeText (x : Binary64) : List Char :=
  if x.isFinite then style.decimalText (Binary64.shortestDecimal x.magnitude) else ['i', 'n', 'f']

theorem toList_text {x : Binary64} (number : x.isNaN = false) :
    (style.text x).toList = (if x.isNegative then ['-'] else []) ++ style.magnitudeText x := by
  simp [text, number, magnitudeText]

/-- A finite magnitude is a numeral and infinity is not. -/
theorem magnitudeText_cases (x : Binary64) :
    (x.isFinite = true ∧ ∃ n : Numeral, n.WellFormed ∧ n.lexeme = style.magnitudeText x ∧
      n.decimal.toBinary64 = .ofMagnitude x.magnitude) ∨
    (x.isFinite = false ∧ style.magnitudeText x = ['i', 'n', 'f']) := by
  cases finite : x.isFinite with
  | true =>
      obtain ⟨n, formed, lexeme, reads⟩ :=
        style.exists_numeral_of_finite (of_decide_eq_true finite)
      exact .inl ⟨rfl, n, formed, by rw [lexeme, magnitudeText, if_pos finite], reads⟩
  | false => exact .inr ⟨rfl, by simp [magnitudeText, finite]⟩

/-- The text of a magnitude starts with a digit or a letter, not with a sign. -/
theorem head_magnitudeText (x : Binary64) :
    ∃ c rest, style.magnitudeText x = c :: rest ∧ (c.isDigit = true ∨ c = 'i') := by
  rcases style.magnitudeText_cases x with ⟨_, n, formed, lexeme, _⟩ | ⟨_, infinite⟩
  · obtain ⟨c, rest, front, digit⟩ := Numeral.exists_digit_of_lexeme formed
    exact ⟨c, rest, lexeme ▸ front, .inl digit⟩
  · exact ⟨'i', _, infinite, .inr rfl⟩

theorem magnitude_of_magnitudeText {x y : Binary64} (number : x.isNaN = false)
    (other : y.isNaN = false) (same : style.magnitudeText x = style.magnitudeText y) :
    x.magnitude = y.magnitude := by
  have digitless : ∀ n : Numeral, n.WellFormed → n.lexeme ≠ ['i', 'n', 'f'] := by
    intro n formed infinite
    obtain ⟨c, rest, front, digit⟩ := Numeral.exists_digit_of_lexeme formed
    rw [front] at infinite
    cases infinite
    exact absurd digit (by decide)
  simp only [Binary64.isNaN, decide_eq_false_iff_not, Nat.not_lt] at number other
  rcases style.magnitudeText_cases x with ⟨finite, n, formed, lexeme, reads⟩ | ⟨infinite, word⟩ <;>
    rcases style.magnitudeText_cases y with ⟨finite', n', formed', lexeme', reads'⟩ |
      ⟨infinite', word'⟩
  · obtain rfl := Numeral.lexeme_injective formed formed' (by rw [lexeme, lexeme', same])
    exact Binary64.ofMagnitude_injective (of_decide_eq_true finite) (of_decide_eq_true finite')
      (reads.symm.trans reads')
  · exact absurd (lexeme.trans (same.trans word')) (digitless n formed)
  · exact absurd (lexeme'.trans (same.symm.trans word)) (digitless n' formed')
  · simp only [Binary64.isFinite, decide_eq_false_iff_not, Nat.not_lt] at infinite infinite'
    omega

theorem sign_of_text {x y : Binary64} (number : x.isNaN = false) (other : y.isNaN = false)
    (same : style.text x = style.text y) : x.isNegative = y.isNegative := by
  have signless : ∀ (z : Binary64) (rest : List Char), '-' :: rest ≠ style.magnitudeText z := by
    intro z rest signed
    obtain ⟨c, behind, front, digit⟩ := style.head_magnitudeText z
    rw [front] at signed
    cases signed
    exact absurd digit (by decide)
  have texts := congrArg String.toList same
  rw [style.toList_text number, style.toList_text other] at texts
  cases negative : x.isNegative <;> cases negative' : y.isNegative <;>
    simp only [negative, negative', if_true, if_false, Bool.false_eq_true, List.nil_append,
      List.singleton_append] at texts
  · rfl
  · exact absurd texts.symm (signless x _)
  · exact absurd texts (signless y _)
  · rfl

theorem text_ne_of_isNaN {x y : Binary64} (number : x.isNaN = false) (none : y.isNaN = true) :
    style.text x ≠ style.text y := by
  intro same
  have texts := congrArg String.toList same
  obtain ⟨c, rest, front, digit⟩ := style.head_magnitudeText x
  rw [style.toList_text number, front, text, if_pos none] at texts
  cases negative : x.isNegative <;> simp [negative] at texts
  rcases digit with digit | letter
  · rw [texts.1] at digit
    exact absurd digit (by decide)
  · rw [texts.1] at letter
    exact absurd letter (by decide)

theorem isNaN_of_text {x y : Binary64} (same : style.text x = style.text y) :
    x.isNaN = y.isNaN := by
  cases number : x.isNaN <;> cases other : y.isNaN
  · rfl
  · exact absurd same (style.text_ne_of_isNaN number other)
  · exact absurd same.symm (style.text_ne_of_isNaN other number)
  · rfl

/-- Two values have one text only if they are one value, or if neither is a number. -/
theorem text_eq_iff {x y : Binary64} : style.text x = style.text y ↔ x.canonical = y.canonical := by
  constructor
  · intro same
    have kinds := style.isNaN_of_text same
    cases number : x.isNaN with
    | true =>
        rw [Binary64.canonical_of_isNaN number, Binary64.canonical_of_isNaN (kinds ▸ number)]
    | false =>
        have other : y.isNaN = false := kinds ▸ number
        have sign := style.sign_of_text number other same
        have texts := congrArg String.toList same
        rw [style.toList_text number, style.toList_text other, sign] at texts
        rw [Binary64.eq_of_sign_of_magnitude sign
          (style.magnitude_of_magnitudeText number other (List.append_cancel_left texts))]
  · intro same
    have kinds : x.isNaN = y.isNaN := by
      rw [← Binary64.isNaN_canonical x, same, Binary64.isNaN_canonical]
    cases number : x.isNaN with
    | true => rw [text, text, if_pos number, if_pos (kinds ▸ number)]
    | false =>
        rw [Binary64.canonical_of_number number, Binary64.canonical_of_number (kinds ▸ number)]
          at same
        rw [same]

/-- The characters of a text other than digits. -/
def marks : List Char :=
  ['.', 'e', 'E', '+', '-', 'N', 'a', 'i', 'n', 'f']

/-- The text of a value consists of digits and marks. -/
theorem not_mem_text {c : Char} (digitless : c.isDigit = false) (unmarked : c ∉ marks)
    (x : Binary64) : c ∉ (style.text x).toList := by
  intro member
  cases number : x.isNaN with
  | true =>
      rw [text, if_pos number] at member
      exact unmarked ((by decide : "NaN".toList ⊆ marks) member)
  | false =>
      rw [style.toList_text number, List.mem_append] at member
      rcases member with sign | magnitude
      · cases negative : x.isNegative <;> simp [negative] at sign
        exact unmarked (by rw [sign]; decide)
      · rcases style.magnitudeText_cases x with ⟨_, n, formed, lexeme, _⟩ | ⟨_, word⟩
        · rw [← lexeme] at magnitude
          rcases Numeral.mem_lexeme formed magnitude with digit | mark
          · rw [digit] at digitless
            exact absurd digitless (by decide)
          · exact unmarked (List.mem_append_left ['N', 'a', 'i', 'n', 'f'] mark)
        · rw [word] at magnitude
          exact unmarked ((by decide : ['i', 'n', 'f'] ⊆ marks) magnitude)

end DecimalStyle

end SmallMl
