import SmallMl.Proofs.DecimalText
import SmallMl.Proofs.Dispatch

/-!
# The shapes of numerals

Digits with a point behind them, or with a complete exponent, are a float, and other digits are an
integer if their value is not too large. Main statement: at a digit, what stands behind the run of
digits decides which token is read there, if any, and how far it reaches.
-/

namespace SmallMl

/-- The digits are all that stand before the rest of a text. -/
structure IsDigitRun (digits rest : List Char) : Prop where
  digits : AllDigits digits
  stop : NoDigitFirst rest

/-- The exponent at the front of a text, with every digit that follows its sign, and the text behind
it. Where no exponent at the front is complete, there is none, and nothing is passed. -/
inductive ExponentAt : List Char → Option Exponent → List Char → Prop where
  | complete {e : Exponent} {rest : List Char} (formed : e.WellFormed)
      (run : IsDigitRun e.digits rest) : ExponentAt (e.lexeme ++ rest) (some e) rest
  | incomplete {text : List Char} (broken : ∀ e : Exponent, e.WellFormed → ¬ e.lexeme <+: text) :
      ExponentAt text none text

/-- What is read from a text that starts with a digit. -/
inductive NumeralAt : List Char → Reading → Prop where
  /-- A point behind the digits makes a float, with the digits behind the point and an exponent. -/
  | pointed {digits fraction behind rest : List Char} {exponent : Option Exponent}
      (nonempty : digits ≠ []) (whole : IsDigitRun digits ('.' :: (fraction ++ behind)))
      (part : IsDigitRun fraction behind) (scale : ExponentAt behind exponent rest) :
      NumeralAt (digits ++ '.' :: (fraction ++ behind))
        (.token (.float (Numeral.decimal ⟨digits, some fraction, exponent⟩).toBinary64)
          (digits ++ '.' :: (fraction ++ (exponent.map Exponent.lexeme).getD [])) rest)
  /-- A complete exponent behind the digits makes a float. -/
  | scaled {digits behind rest : List Char} {e : Exponent} (nonempty : digits ≠ [])
      (whole : IsDigitRun digits behind) (scale : ExponentAt behind (some e) rest) :
      NumeralAt (digits ++ behind)
        (.token (.float (Numeral.decimal ⟨digits, none, some e⟩).toBinary64) (digits ++ e.lexeme)
          rest)
  /-- Digits with neither are an integer, be it with zeros in front. -/
  | integer {digits rest : List Char} (nonempty : digits ≠ []) (whole : IsDigitRun digits rest)
      (noPoint : rest.head? ≠ some '.') (noScale : ExponentAt rest none rest)
      (small : digitValue digits ≤ 2 ^ 63 - 1) :
      NumeralAt (digits ++ rest) (.token (.int (digitValue digits)) digits rest)
  /-- An integer that is too large is no token. -/
  | overlong {digits rest : List Char} (nonempty : digits ≠ []) (whole : IsDigitRun digits rest)
      (noPoint : rest.head? ≠ some '.') (noScale : ExponentAt rest none rest)
      (large : 2 ^ 63 - 1 < digitValue digits) :
      NumeralAt (digits ++ rest) .absent

theorem isDigitRun_digitRun (text : List Char) : IsDigitRun (digitRun text) (afterDigits text) :=
  ⟨allDigits_digitRun text, noDigitFirst_afterDigits text⟩

/-! ## Exponents -/

theorem exponentAt_iff {text rest : List Char} {e : Option Exponent} :
    ExponentAt text e rest ↔ Exponent.split text = (e, rest) := by
  constructor
  · intro here
    cases here with
    | complete formed run =>
        rw [Exponent.split_lexeme_append formed, digitRun_of_noDigitFirst run.stop,
          afterDigits_of_noDigitFirst run.stop, List.append_nil]
    | incomplete broken =>
        unfold Exponent.split
        split
        · next e behind found =>
            have front : e.lexeme <+: text := ⟨behind, Exponent.split?_eq_some found⟩
            exact absurd front (broken e (Exponent.wellFormed_of_split? found))
        · rfl
  · intro splits
    cases e with
    | none =>
        have same : text = rest := by
          have whole := Exponent.split_append text
          rw [splits] at whole
          exact whole.symm
        subst same
        refine .incomplete fun e formed front => ?_
        have found := Exponent.isSome_split_iff.mpr ⟨e, formed, front⟩
        rw [splits] at found
        exact absurd found Bool.false_ne_true
    | some e =>
        have formed : e.WellFormed := Exponent.wellFormed_of_split (by rw [splits])
        have whole : e.lexeme ++ rest = text := by
          have whole := Exponent.split_append text
          rwa [splits] at whole
        have again := Exponent.split_lexeme_append formed rest
        rw [whole, splits, Prod.mk.injEq] at again
        subst whole
        refine .complete formed ⟨formed.digits, ?_⟩
        rw [again.2]
        exact noDigitFirst_afterDigits rest

theorem exponentAt_split (text : List Char) :
    ExponentAt text (Exponent.split text).1 (Exponent.split text).2 :=
  exponentAt_iff.mpr rfl

/-- No point stands where a complete exponent does. -/
theorem ExponentAt.noPoint {text rest : List Char} {e : Exponent}
    (here : ExponentAt text (some e) rest) : text.head? ≠ some '.' := by
  cases here with
  | complete formed _ => exact Numeral.noPoint_of_exponent formed rest

theorem ExponentAt.eq_of_none {text rest : List Char} (here : ExponentAt text none rest) :
    rest = text := by
  cases here
  rfl

/-! ## Numerals -/

theorem Token.read_digits {digits : List Char} (nonempty : digits ≠ []) (all : AllDigits digits)
    (behind : List Char) : read (digits ++ behind) = readNumeral (digits ++ behind) := by
  obtain ⟨c, more, rfl⟩ := List.exists_cons_of_ne_nil nonempty
  exact read_of_isDigit (more ++ behind) (all c (List.mem_cons_self ..))

/-- The shape at the front of a text decides the reading. -/
theorem read_of_numeralAt {text : List Char} {reading : Reading} (here : NumeralAt text reading) :
    Token.read text = reading := by
  cases here with
  | @pointed digits fraction behind rest exponent nonempty whole part scale =>
      rw [Token.read_digits nonempty whole.digits, Token.readNumeral,
        Numeral.split?_point nonempty whole.digits, digitRun_eq part.digits part.stop,
        afterDigits_eq part.digits part.stop, exponentAt_iff.mp scale]
      cases exponent <;> simp [Numeral.token?, Numeral.isFloat, Numeral.lexeme]
  | @scaled digits behind rest e nonempty whole scale =>
      rw [Token.read_digits nonempty whole.digits, Token.readNumeral,
        Numeral.split?_digits nonempty whole.digits whole.stop scale.noPoint,
        exponentAt_iff.mp scale]
      simp [Numeral.token?, Numeral.isFloat, Numeral.lexeme]
  | @integer digits rest nonempty whole noPoint noScale small =>
      have fits : digitValue digits ≤ Numeral.maxInteger := small
      rw [Token.read_digits nonempty whole.digits, Token.readNumeral,
        Numeral.split?_digits nonempty whole.digits whole.stop noPoint, exponentAt_iff.mp noScale]
      simp [Numeral.token?, Numeral.isFloat, Numeral.lexeme, fits]
  | @overlong digits rest nonempty whole noPoint noScale large =>
      have exceeds : ¬ digitValue digits ≤ Numeral.maxInteger := Nat.not_le.mpr large
      rw [Token.read_digits nonempty whole.digits, Token.readNumeral,
        Numeral.split?_digits nonempty whole.digits whole.stop noPoint, exponentAt_iff.mp noScale]
      simp [Numeral.token?, Numeral.isFloat, exceeds]

/-- Every text that starts with a digit has one of the shapes at its front. -/
theorem exists_numeralAt {c : Char} (digit : c.isDigit = true) (rest : List Char) :
    ∃ reading, NumeralAt (c :: rest) reading := by
  have nonempty : digitRun (c :: rest) ≠ [] := by
    rw [digitRun, List.takeWhile_cons_of_pos digit]
    exact List.cons_ne_nil _ _
  have whole := isDigitRun_digitRun (c :: rest)
  rw [← digitRun_append_afterDigits (c :: rest)]
  generalize digitRun (c :: rest) = digits at *
  generalize afterDigits (c :: rest) = behind at *
  by_cases point : behind.head? = some '.'
  · obtain ⟨more, rfl⟩ := List.head?_eq_some_iff.mp point
    rw [← digitRun_append_afterDigits more] at whole ⊢
    exact ⟨_, .pointed nonempty whole (isDigitRun_digitRun more) (exponentAt_split _)⟩
  · have scale := exponentAt_split behind
    generalize (Exponent.split behind).2 = last at scale
    cases exponent : (Exponent.split behind).1 with
    | some e =>
        rw [exponent] at scale
        exact ⟨_, .scaled nonempty whole scale⟩
    | none =>
        rw [exponent] at scale
        obtain rfl := scale.eq_of_none
        rcases Nat.lt_or_ge (2 ^ 63 - 1) (digitValue digits) with large | small
        · exact ⟨_, .overlong nonempty whole point scale large⟩
        · exact ⟨_, .integer nonempty whole point scale small⟩

theorem read_eq_iff_numeralAt {c : Char} (digit : c.isDigit = true) (rest : List Char)
    (reading : Reading) :
    Token.read (c :: rest) = reading ↔ NumeralAt (c :: rest) reading := by
  refine ⟨?_, read_of_numeralAt⟩
  rintro rfl
  obtain ⟨reading, here⟩ := exists_numeralAt digit rest
  rw [read_of_numeralAt here]
  exact here

namespace Numeral

/-- A float is told from an integer by a character that is no digit. -/
theorem isFloat_iff {n : Numeral} (formed : n.WellFormed) :
    n.isFloat = true ↔ ∃ c ∈ n.lexeme, c.isDigit = false := by
  obtain ⟨whole, fraction, exponent⟩ := n
  cases fraction with
  | some digits =>
      refine iff_of_true rfl ⟨'.', ?_, by decide⟩
      simp [lexeme]
  | none =>
      cases exponent with
      | some e =>
          refine iff_of_true rfl ⟨e.mark, by simp [lexeme, Exponent.lexeme], ?_⟩
          rcases (formed.exponent e rfl).mark with mark | mark <;> rw [mark] <;> decide
      | none =>
          refine iff_of_false Bool.false_ne_true ?_
          rintro ⟨c, inside, other⟩
          rw [formed.whole c (by simpa [lexeme] using inside)] at other
          exact absurd other (by decide)

end Numeral

/-- Where a float stands at the front of a text, a float is read that reaches at least as far. -/
theorem read_of_float {n : Numeral} {text : List Char} (formed : n.WellFormed)
    (float : n.isFloat = true) (front : n.lexeme <+: text) :
    ∃ value lexeme rest, Token.read text = .token (.float value) lexeme rest ∧
      n.lexeme <+: lexeme := by
  obtain ⟨behind, rfl⟩ := front
  obtain ⟨found, rest, reads, longer⟩ := Numeral.exists_split?_of_lexeme formed behind
  have wellFormed := Numeral.wellFormed_of_split? reads
  have inside : n.lexeme <+: found.lexeme :=
    List.prefix_of_prefix_length_le (List.prefix_append _ _)
      ⟨rest, (Numeral.split?_eq_some reads).2⟩ longer
  have alsoFloat : found.isFloat = true := by
    obtain ⟨c, member, other⟩ := (Numeral.isFloat_iff formed).mp float
    exact (Numeral.isFloat_iff wellFormed).mpr ⟨c, inside.subset member, other⟩
  refine ⟨found.decimal.toBinary64, found.lexeme, rest, ?_, inside⟩
  obtain ⟨d, more, front, digit⟩ := Numeral.exists_digit_of_lexeme formed
  rw [front, List.cons_append] at reads ⊢
  rw [Token.read_of_isDigit _ digit, Token.readNumeral, reads]
  simp only [Numeral.token?, if_pos alsoFloat]

/-- A float is a number and carries no sign. -/
theorem NumeralAt.float {text lexeme rest : List Char} {value : Binary64}
    (here : NumeralAt text (.token (.float value) lexeme rest)) :
    value.isNaN = false ∧ value.isNegative = false := by
  cases here with
  | pointed => exact ⟨Decimal.isNaN_toBinary64 _, Decimal.isNegative_toBinary64 _⟩
  | scaled => exact ⟨Decimal.isNaN_toBinary64 _, Decimal.isNegative_toBinary64 _⟩

/-- An integer is the value of its digits, and the largest one bounds it. -/
theorem NumeralAt.int {text lexeme rest : List Char} {value : Nat}
    (here : NumeralAt text (.token (.int value) lexeme rest)) :
    AllDigits lexeme ∧ value = digitValue lexeme ∧ value ≤ 2 ^ 63 - 1 := by
  cases here with
  | integer _ whole _ _ small => exact ⟨whole.digits, rfl, small⟩

/-- At a digit, the shape at the front of the text decides the reading. A float that is read is a
number and carries no sign, an integer that is read is the value of its digits and at most
`2 ^ 63 - 1`, and no front of a float is read as an integer. -/
theorem numerals_told_from_text {c : Char} (digit : c.isDigit = true) (behind : List Char) :
    let text := c :: behind
    (∀ reading, Token.read text = reading ↔ NumeralAt text reading) ∧
      (∀ value lexeme rest, Token.read text = .token (.float value) lexeme rest →
        value.isNaN = false ∧ value.isNegative = false) ∧
      (∀ value lexeme rest, Token.read text = .token (.int value) lexeme rest →
        AllDigits lexeme ∧ value = digitValue lexeme ∧ value ≤ 2 ^ 63 - 1) ∧
      ∀ n : Numeral, n.WellFormed → n.isFloat = true → n.lexeme <+: text →
        ∃ value lexeme rest, Token.read text = .token (.float value) lexeme rest ∧
          n.lexeme <+: lexeme := by
  intro text
  have shape := read_eq_iff_numeralAt digit behind
  refine ⟨shape, ?_, ?_, fun n => read_of_float⟩
  · intro value lexeme rest reads
    exact ((shape _).mp reads).float
  · intro value lexeme rest reads
    exact ((shape _).mp reads).int

/-- What follows a zero: the digits of the largest integer, an exponent that breaks off before its
digits, and a point. -/
def brokenExponent : String := "9223372036854775807e+.5"

theorem numeral_before_brokenExponent_told_from_text :
    let text := '0' :: brokenExponent.toList
    let reading := Reading.token (.int (2 ^ 63 - 1)) "09223372036854775807".toList "e+.5".toList
    '0'.isDigit = true ∧ Token.read text = reading ∧ NumeralAt text reading := by
  intro text reading
  have digit : '0'.isDigit = true := by decide
  have reads : Token.read text = reading := by decide +kernel
  exact ⟨digit, reads, ((numerals_told_from_text digit brokenExponent.toList).1 reading).mp reads⟩

end SmallMl
