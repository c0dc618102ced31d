import SmallMl.Proofs.Longest

/-!
# Numerals are read whole

A numeral is digits, digits with a point and perhaps more digits behind it, and either of these with
an exponent. Main statement: the reader of numerals takes the longest one at the front of a text.
-/

namespace SmallMl

/-- All characters of the text are decimal digits. -/
def AllDigits (text : List Char) : Prop :=
  ∀ c ∈ text, c.isDigit = true

/-- The text does not start with a decimal digit. -/
def NoDigitFirst (text : List Char) : Prop :=
  ∀ c ∈ text.head?, c.isDigit = false

theorem allDigits_digitRun (text : List Char) : AllDigits (digitRun text) :=
  List.all_eq_true.mp List.all_takeWhile

theorem digitRun_of_noDigitFirst {text : List Char} (stop : NoDigitFirst text) :
    digitRun text = [] := by
  cases text with
  | nil => rfl
  | cons c rest => exact List.takeWhile_cons_of_neg (by rw [stop c rfl]; exact Bool.false_ne_true)

theorem afterDigits_of_noDigitFirst {text : List Char} (stop : NoDigitFirst text) :
    afterDigits text = text := by
  have whole := digitRun_append_afterDigits text
  rw [digitRun_of_noDigitFirst stop] at whole
  exact whole

theorem digitRun_append {digits : List Char} (all : AllDigits digits) (rest : List Char) :
    digitRun (digits ++ rest) = digits ++ digitRun rest :=
  List.takeWhile_append_of_pos all

theorem afterDigits_append {digits : List Char} (all : AllDigits digits) (rest : List Char) :
    afterDigits (digits ++ rest) = afterDigits rest :=
  List.dropWhile_append_of_pos all

/-- The digits at the front of a text are told from it. -/
theorem digitRun_eq {digits behind : List Char} (all : AllDigits digits)
    (stop : NoDigitFirst behind) : digitRun (digits ++ behind) = digits := by
  rw [digitRun_append all, digitRun_of_noDigitFirst stop, List.append_nil]

theorem afterDigits_eq {digits behind : List Char} (all : AllDigits digits)
    (stop : NoDigitFirst behind) : afterDigits (digits ++ behind) = behind := by
  rw [afterDigits_append all, afterDigits_of_noDigitFirst stop]

theorem noDigitFirst_afterDigits (text : List Char) : NoDigitFirst (afterDigits text) := by
  intro c first
  have stops := List.head?_dropWhile_not Char.isDigit text
  rw [afterDigits] at first
  rw [Option.mem_def.mp first] at stops
  exact stops

namespace Exponent

/-- The exponent has a mark, perhaps a sign, and digits. -/
structure WellFormed (e : Exponent) : Prop where
  mark : e.mark = 'e' ∨ e.mark = 'E'
  sign : ∀ c ∈ e.sign, c = '+' ∨ c = '-'
  nonempty : e.digits ≠ []
  digits : AllDigits e.digits

theorem wellFormed_of_split? {text rest : List Char} {e : Exponent}
    (found : split? text = some (e, rest)) : e.WellFormed := by
  cases text with
  | nil => exact absurd found (by simp [split?])
  | cons mark text =>
      simp only [split?] at found
      split at found
      · next marked =>
          split at found
          · exact absurd found (by simp)
          · next nonempty =>
              cases found
              refine ⟨marked, ?_, nonempty, allDigits_digitRun _⟩
              intro c signed
              cases text with
              | nil => exact absurd signed (by simp [splitSign])
              | cons first text =>
                  by_cases sign : first = '+' ∨ first = '-'
                  · rw [splitSign, if_pos sign] at signed
                    cases signed
                    exact sign
                  · rw [splitSign, if_neg sign] at signed
                    exact absurd signed (by simp)
      · exact absurd found (by simp)

theorem not_sign_of_isDigit {c : Char} (digit : c.isDigit = true) : ¬ (c = '+' ∨ c = '-') := by
  rintro (rfl | rfl) <;> exact absurd digit (by decide)

theorem splitSign_digits {e : Exponent} (formed : e.WellFormed) (rest : List Char) :
    splitSign (e.sign.toList ++ (e.digits ++ rest)) = (e.sign, e.digits ++ rest) := by
  cases signed : e.sign with
  | some c => exact if_pos (formed.sign c signed)
  | none =>
      cases digits : e.digits with
      | nil => exact absurd digits formed.nonempty
      | cons c more =>
          have digit := formed.digits c (by rw [digits]; exact List.mem_cons_self ..)
          exact if_neg (not_sign_of_isDigit digit)

/-- Behind a whole exponent, all further digits belong to it too. -/
theorem split?_lexeme_append {e : Exponent} (formed : e.WellFormed) (rest : List Char) :
    split? (e.lexeme ++ rest) =
      some (⟨e.mark, e.sign, e.digits ++ digitRun rest⟩, afterDigits rest) := by
  have run := digitRun_append formed.digits rest
  have some_digit : e.digits ++ digitRun rest ≠ [] := by
    intro none
    exact formed.nonempty (List.append_eq_nil_iff.mp none).1
  rw [lexeme, List.cons_append, List.append_assoc, split?, if_pos formed.mark]
  simp only [splitSign_digits formed rest, run, if_neg some_digit,
    afterDigits_append formed.digits]

theorem split_lexeme_append {e : Exponent} (formed : e.WellFormed) (rest : List Char) :
    split (e.lexeme ++ rest) =
      (some ⟨e.mark, e.sign, e.digits ++ digitRun rest⟩, afterDigits rest) := by
  rw [split, split?_lexeme_append formed]

theorem WellFormed.noDigitFirst {e : Exponent} (formed : e.WellFormed) (rest : List Char) :
    NoDigitFirst (e.lexeme ++ rest) := by
  intro c first
  cases first
  rcases formed.mark with mark | mark <;> rw [mark] <;> decide

theorem wellFormed_of_split {text : List Char} {e : Exponent}
    (found : (split text).1 = some e) : e.WellFormed := by
  unfold split at found
  split at found
  · next read =>
      cases found
      exact wellFormed_of_split? read
  · exact absurd found (by simp)

/-- An exponent is split from a text exactly if one stands at its front. -/
theorem isSome_split_iff {text : List Char} :
    (split text).1.isSome = true ↔ ∃ e : Exponent, e.WellFormed ∧ e.lexeme <+: text := by
  constructor
  · intro found
    unfold split at found
    split at found
    · next e rest read => exact ⟨e, wellFormed_of_split? read, rest, split?_eq_some read⟩
    · exact absurd found Bool.false_ne_true
  · rintro ⟨e, formed, rest, rfl⟩
    rw [split_lexeme_append formed]
    rfl

end Exponent

namespace Numeral

/-- The numeral has digits in front, and its other parts are formed as they should be. -/
structure WellFormed (n : Numeral) : Prop where
  nonempty : n.whole ≠ []
  whole : AllDigits n.whole
  fraction : ∀ digits ∈ n.fraction, AllDigits digits
  exponent : ∀ e ∈ n.exponent, e.WellFormed

theorem wellFormed_of_split? {text rest : List Char} {n : Numeral}
    (found : split? text = some (n, rest)) : n.WellFormed := by
  simp only [split?] at found
  split at found
  · exact absurd found (by simp)
  · next nonempty =>
      split at found
      · cases found
        refine ⟨nonempty, allDigits_digitRun _, ?_, fun e => Exponent.wellFormed_of_split⟩
        intro digits here
        cases here
        exact allDigits_digitRun _
      · cases found
        exact ⟨nonempty, allDigits_digitRun _, by simp, fun e => Exponent.wellFormed_of_split⟩

/-- Behind digits and a point, the digits and the exponent that follow belong to the numeral. -/
theorem split?_point {digits : List Char} (nonempty : digits ≠ []) (all : AllDigits digits)
    (behind : List Char) :
    split? (digits ++ '.' :: behind) =
      some (⟨digits, some (digitRun behind), (Exponent.split (afterDigits behind)).1⟩,
        (Exponent.split (afterDigits behind)).2) := by
  have stop : NoDigitFirst ('.' :: behind) := by
    intro c first
    cases first
    decide
  simp only [split?, digitRun_eq all stop, afterDigits_eq all stop, if_neg nonempty]

/-- Digits without a point are followed by the exponent that stands behind them, if one does. -/
theorem split?_digits {digits behind : List Char} (nonempty : digits ≠ [])
    (all : AllDigits digits) (stop : NoDigitFirst behind) (noPoint : '.' ∉ behind.head?) :
    split? (digits ++ behind) =
      some (⟨digits, none, (Exponent.split behind).1⟩, (Exponent.split behind).2) := by
  simp only [split?, digitRun_eq all stop, afterDigits_eq all stop, if_neg nonempty]
  split
  · exact absurd rfl noPoint
  · rfl

theorem noPoint_of_exponent {e : Exponent} (formed : e.WellFormed) (rest : List Char) :
    '.' ∉ (e.lexeme ++ rest).head? := by
  intro first
  have mark := formed.mark
  rw [show e.mark = '.' from Option.some.inj first] at mark
  exact absurd mark (by decide)

/-- A numeral that is all of a text is read from it. -/
theorem split?_lexeme {n : Numeral} (formed : n.WellFormed) : split? n.lexeme = some (n, []) := by
  obtain ⟨nonempty, all, fraction, exponent⟩ := formed
  obtain ⟨whole, _ | digits, _ | e⟩ := n
  · have read : split? (whole ++ []) = _ :=
      split?_digits nonempty all (by simp [NoDigitFirst]) (by simp)
    simpa [lexeme, Exponent.split, Exponent.split?] using read
  · have formed := exponent e rfl
    have read := split?_digits nonempty all (formed.noDigitFirst []) (noPoint_of_exponent formed [])
    rw [Exponent.split_lexeme_append formed] at read
    simpa [lexeme, digitRun, afterDigits] using read
  · have inside := fraction digits rfl
    have read := split?_point nonempty all (digits ++ [])
    rw [digitRun_append inside, afterDigits_append inside] at read
    simpa [lexeme, digitRun, afterDigits, Exponent.split, Exponent.split?] using read
  · have inside := fraction digits rfl
    have formed := exponent e rfl
    have read := split?_point nonempty all (digits ++ (e.lexeme ++ []))
    have stop := formed.noDigitFirst []
    rw [digitRun_append inside, afterDigits_append inside, digitRun_of_noDigitFirst stop,
      afterDigits_of_noDigitFirst stop, Exponent.split_lexeme_append formed] at read
    simpa [lexeme, digitRun, afterDigits] using read

theorem lexeme_injective {first second : Numeral} (one : first.WellFormed)
    (other : second.WellFormed) (same : first.lexeme = second.lexeme) : first = second := by
  have read := split?_lexeme one
  rw [same, split?_lexeme other] at read
  exact (congrArg Prod.fst (Option.some.inj read)).symm

/-- No numeral at the front of a text is longer than the one that is read there. -/
theorem exists_split?_of_lexeme {n : Numeral} (formed : n.WellFormed) (rest : List Char) :
    ∃ found behind, split? (n.lexeme ++ rest) = some (found, behind) ∧
      n.lexeme.length ≤ found.lexeme.length := by
  obtain ⟨nonempty, all, fraction, exponent⟩ := formed
  obtain ⟨whole, _ | digits, _ | e⟩ := n
  · have some_digit : digitRun (whole ++ rest) ≠ [] := by
      rw [digitRun_append all]
      intro none
      exact nonempty (List.append_eq_nil_iff.mp none).1
    have longer : whole.length ≤ (digitRun (whole ++ rest)).length := by
      rw [digitRun_append all, List.length_append]
      exact Nat.le_add_right _ _
    simp only [lexeme, List.append_nil, split?, if_neg some_digit]
    split
    · refine ⟨_, _, rfl, ?_⟩
      simp only [List.length_append]
      omega
    · refine ⟨_, _, rfl, ?_⟩
      simp only [List.length_append]
      omega
  · have formed := exponent e rfl
    have read := split?_digits nonempty all (formed.noDigitFirst rest)
      (noPoint_of_exponent formed rest)
    rw [Exponent.split_lexeme_append formed, ← List.append_assoc] at read
    refine ⟨_, _, by simpa [lexeme] using read, ?_⟩
    simp only [lexeme, Exponent.lexeme, List.length_append, List.length_cons]
    omega
  · have inside := fraction digits rfl
    have read := split?_point nonempty all (digits ++ rest)
    rw [digitRun_append inside] at read
    refine ⟨_, _, by simpa [lexeme] using read, ?_⟩
    simp only [lexeme, List.length_append, List.length_cons, List.length_nil]
    omega
  · have inside := fraction digits rfl
    have formed := exponent e rfl
    have stop := formed.noDigitFirst rest
    have read := split?_point nonempty all (digits ++ (e.lexeme ++ rest))
    rw [digitRun_append inside, afterDigits_append inside, digitRun_of_noDigitFirst stop,
      afterDigits_of_noDigitFirst stop, Exponent.split_lexeme_append formed] at read
    refine ⟨_, _, by simpa [lexeme] using read, ?_⟩
    simp only [lexeme, Exponent.lexeme, List.length_append, List.length_cons]
    omega

end Numeral

/-- The text is a numeral. -/
def IsNumeral (text : List Char) : Prop :=
  ∃ n : Numeral, n.WellFormed ∧ n.lexeme = text

theorem longest_of_split? {text rest : List Char} {n : Numeral}
    (found : Numeral.split? text = some (n, rest)) : Longest IsNumeral n.lexeme text := by
  refine ⟨⟨n, Numeral.wellFormed_of_split? found, rfl⟩,
    ⟨rest, (Numeral.split?_eq_some found).2⟩, ?_⟩
  rintro _ ⟨other, formed, rfl⟩ ⟨behind, rfl⟩
  obtain ⟨read, _, reads, longer⟩ := Numeral.exists_split?_of_lexeme formed behind
  rw [reads] at found
  cases found
  exact longer

theorem readNumeral_takesLongest :
    TakesLongest Token.readNumeral IsNumeral fun lexeme token =>
      ∃ n : Numeral, n.WellFormed ∧ n.lexeme = lexeme ∧ n.token? = some token := by
  apply takesLongest_of
  · intro text token lexeme rest reads
    simp only [Token.readNumeral] at reads
    split at reads
    · exact absurd reads (by simp)
    · next n behind found =>
        split at reads
        · next meaning =>
            cases reads
            exact ⟨longest_of_split? found, (Numeral.split?_eq_some found).2, n,
              Numeral.wellFormed_of_split? found, rfl, meaning⟩
        · exact absurd reads (by simp)
  · rintro text lexeme token longest ⟨n, formed, rfl, meaning⟩
    obtain ⟨rest, whole⟩ := longest.front
    obtain ⟨found, behind, reads, _⟩ := Numeral.exists_split?_of_lexeme formed rest
    rw [whole] at reads
    have same := longest.unique (longest_of_split? reads)
    obtain rfl := Numeral.lexeme_injective formed (Numeral.wellFormed_of_split? reads) same
    refine ⟨token, n.lexeme, behind, ?_⟩
    simp only [Token.readNumeral, reads, meaning]
  · rintro lexeme first second ⟨n, formed, rfl, meaning⟩ ⟨other, well, same, means⟩
    obtain rfl := Numeral.lexeme_injective well formed same
    rw [meaning] at means
    exact Option.some.inj means

end SmallMl
