import Mathlib.Algebra.Order.Field.Power
import Mathlib.Data.Int.Log
import Mathlib.Data.Rat.Floor
import Mathlib.Tactic.FieldSimp
import Mathlib.Tactic.Linarith
import Mathlib.Tactic.NormNum
import Mathlib.Tactic.Positivity
import SmallMl.Numeric.Shortest

/-!
# Rounding is exact where it can be

A decimal whose value some finite magnitude has is rounded to that magnitude. Main statement: the
shortest decimal of a magnitude reads back as it.
-/

namespace SmallMl

theorem scaledUp_div {base : Nat} (positive : 0 < base) (above below : Nat) (exponent : Int) :
    (scaledUp base above exponent : ℚ) / scaledUp base below (-exponent) =
      above / below * (base : ℚ) ^ exponent := by
  have nonzero : (base : ℚ) ≠ 0 := by positivity
  obtain ⟨n, rfl | rfl⟩ := exponent.eq_nat_or_neg
  · simp only [scaledUp, Nat.pow_eq, Int.toNat_natCast, Int.toNat_neg_natCast, pow_zero, mul_one,
      zpow_natCast]
    push_cast
    ring
  · simp only [scaledUp, Nat.pow_eq, neg_neg, Int.toNat_natCast, Int.toNat_neg_natCast, pow_zero,
      mul_one, zpow_neg, zpow_natCast]
    push_cast
    field_simp

theorem scaledUp_pos {base number : Nat} (base_pos : 0 < base) (number_pos : 0 < number)
    (exponent : Int) : 0 < scaledUp base number exponent :=
  Nat.mul_pos number_pos (Nat.pow_pos base_pos)

namespace Decimal

/-- The rational number that a decimal stands for. -/
def value (d : Decimal) : ℚ :=
  d.digits * 10 ^ d.exponent

theorem numerator_div_denominator (d : Decimal) : (d.numerator : ℚ) / d.denominator = d.value := by
  have scaled := scaledUp_div (by decide : 0 < 10) d.digits 1 d.exponent
  simpa [numerator, denominator, value] using scaled

theorem value_trimmedOf (digits : Nat) (exponent : Int) :
    (trimmedOf digits exponent).value = (⟨digits, exponent⟩ : Decimal).value := by
  fun_induction trimmedOf digits exponent with
  | case1 exponent => simp [value]
  | case2 digits exponent positive divisible ih =>
      rw [ih]
      have tenth : digits = digits / 10 * 10 := by omega
      have scaled : (digits : ℚ) = (digits / 10 : Nat) * 10 := by exact_mod_cast tenth
      simp only [value]
      rw [scaled, zpow_add₀ (by norm_num), zpow_one]
      ring
  | case3 => rfl

theorem value_trimmed (d : Decimal) : d.trimmed.value = d.value :=
  value_trimmedOf d.digits d.exponent

theorem value_eq_zero_iff {d : Decimal} : d.value = 0 ↔ d.digits = 0 := by
  simp [value, zpow_ne_zero]

/-- A decimal is less than the power of ten that has one digit more. -/
theorem value_lt (d : Decimal) : d.value < 10 ^ (d.exponent + digitCount d.digits) := by
  have below : d.digits < 10 ^ digitCount d.digits :=
    (Nat.length_toDigits_le_iff (by decide) Nat.length_toDigits_pos).mp (Nat.le_refl _)
  have bound : (d.digits : ℚ) < 10 ^ digitCount d.digits := by exact_mod_cast below
  calc d.value < 10 ^ digitCount d.digits * 10 ^ d.exponent := by
        exact mul_lt_mul_of_pos_right bound (by positivity)
    _ = 10 ^ (d.exponent + digitCount d.digits) := by
        rw [zpow_add₀ (by norm_num), zpow_natCast]
        ring

/-- A positive decimal is no less than the power of ten with as many digits. -/
theorem le_value {d : Decimal} (positive : d.digits ≠ 0) :
    10 ^ (d.exponent + digitCount d.digits - 1) ≤ d.value := by
  have above : 10 ^ (digitCount d.digits - 1) ≤ d.digits := by
    by_contra small
    by_cases single : digitCount d.digits - 1 = 0
    · rw [single] at small
      omega
    · have short := (Nat.length_toDigits_le_iff (by decide : 1 < 10)
        (Nat.pos_of_ne_zero single)).mpr (Nat.not_le.mp small)
      have count_pos : 0 < digitCount d.digits := Nat.length_toDigits_pos
      rw [digitCount] at *
      omega
  have count_pos : 0 < digitCount d.digits := Nat.length_toDigits_pos
  have bound : (10 : ℚ) ^ (digitCount d.digits - 1) ≤ d.digits := by exact_mod_cast above
  calc (10 : ℚ) ^ (d.exponent + digitCount d.digits - 1)
      = 10 ^ (digitCount d.digits - 1) * 10 ^ d.exponent := by
        rw [← zpow_natCast, ← zpow_add₀ (by norm_num)]
        congr 1
        omega
    _ ≤ d.value := mul_le_mul_of_nonneg_right bound (by positivity)

end Decimal

theorem roundedQuotient_of_eq {above below quotient : Nat} (positive : 0 < below)
    (multiple : above = quotient * below) : roundedQuotient above below = quotient := by
  have none_left : quotient * below % below = 0 := Nat.mul_mod_left _ _
  simp only [roundedQuotient, multiple, Nat.mul_div_cancel _ positive, none_left]
  exact if_pos positive

/-- The lengths of two numbers enclose the logarithm of their quotient. -/
theorem quotient_bracket {above below : Nat} (above_pos : 0 < above) (below_pos : 0 < below) :
    (2 : ℚ) ^ ((above.log2 : Int) - below.log2 - 1) ≤ above / below ∧
      (above : ℚ) / below < 2 ^ ((above.log2 : Int) - below.log2 + 1) := by
  have positive : (0 : ℚ) < below := by exact_mod_cast below_pos
  have lowAbove : (2 : ℚ) ^ above.log2 ≤ above := by
    exact_mod_cast Nat.log2_self_le (Nat.pos_iff_ne_zero.mp above_pos)
  have highAbove : (above : ℚ) < 2 ^ (above.log2 + 1) := by exact_mod_cast Nat.lt_log2_self
  have lowBelow : (2 : ℚ) ^ below.log2 ≤ below := by
    exact_mod_cast Nat.log2_self_le (Nat.pos_iff_ne_zero.mp below_pos)
  have highBelow : (below : ℚ) < 2 ^ (below.log2 + 1) := by exact_mod_cast Nat.lt_log2_self
  constructor
  · rw [le_div_iff₀ positive]
    calc (2 : ℚ) ^ ((above.log2 : Int) - below.log2 - 1) * below
        ≤ 2 ^ ((above.log2 : Int) - below.log2 - 1) * 2 ^ (below.log2 + 1) :=
          mul_le_mul_of_nonneg_left highBelow.le (by positivity)
      _ = 2 ^ above.log2 := by
          rw [← zpow_natCast, ← zpow_natCast, ← zpow_add₀ (by norm_num)]
          congr 1
          push_cast
          omega
      _ ≤ above := lowAbove
  · rw [div_lt_iff₀ positive]
    calc (above : ℚ) < 2 ^ (above.log2 + 1) := highAbove
      _ = 2 ^ ((above.log2 : Int) - below.log2 + 1) * 2 ^ below.log2 := by
          rw [← zpow_natCast, ← zpow_natCast, ← zpow_add₀ (by norm_num)]
          congr 1
          push_cast
          omega
      _ ≤ 2 ^ ((above.log2 : Int) - below.log2 + 1) * below :=
          mul_le_mul_of_nonneg_left lowBelow (by positivity)

theorem scaledUp_le_iff {above below : Nat} (above_pos : 0 < above) (below_pos : 0 < below)
    (exponent : Int) :
    scaledUp 2 below exponent ≤ scaledUp 2 above (-exponent) ↔
      (2 : ℚ) ^ exponent ≤ above / below := by
  have positive : (0 : ℚ) < above := by exact_mod_cast above_pos
  have scaled := scaledUp_div (by decide : 0 < 2) below above exponent
  have scaled_pos : (0 : ℚ) < scaledUp 2 above (-exponent) := by
    exact_mod_cast scaledUp_pos (by decide) above_pos _
  rw [← Nat.cast_le (α := ℚ), ← div_le_one₀ scaled_pos, scaled, Nat.cast_ofNat,
    div_mul_eq_mul_div, div_le_one₀ positive, mul_comm, le_div_iff₀ (by exact_mod_cast below_pos)]

/-- The order that the lengths of the two numbers suggest, corrected by one comparison, is the
logarithm of their quotient. -/
theorem binaryOrder_eq_log {above below : Nat} (above_pos : 0 < above) (below_pos : 0 < below) :
    binaryOrder above below = Int.log 2 ((above : ℚ) / below) := by
  have quotient_pos : (0 : ℚ) < above / below := by positivity
  have atLeast := fun e => Int.zpow_le_iff_le_log (by decide : 1 < 2) (x := e) quotient_pos
  have lessThan := fun e => Int.lt_zpow_iff_log_lt (by decide : 1 < 2) (x := e) quotient_pos
  simp only [Nat.cast_ofNat] at atLeast lessThan
  obtain ⟨low, high⟩ := quotient_bracket above_pos below_pos
  rw [atLeast] at low
  rw [lessThan] at high
  simp only [binaryOrder, scaledUp_le_iff above_pos below_pos, atLeast]
  split <;> omega

namespace Binary64

/-- The rational number that a finite magnitude stands for. -/
def magnitudeValue (magnitude : Nat) : ℚ :=
  (significandAndExponent magnitude).1 * 2 ^ (significandAndExponent magnitude).2

/-- The significand has at most 53 bits, and fewer only at the least exponent; the two together
give the number of the magnitude. -/
theorem significandAndExponent_bounds (magnitude : Nat) :
    -1074 ≤ (significandAndExponent magnitude).2 ∧
      (significandAndExponent magnitude).1 < 2 * fractionCount ∧
      ((significandAndExponent magnitude).1 < fractionCount →
        (significandAndExponent magnitude).2 = -1074) ∧
      ((significandAndExponent magnitude).2 + 1074).toNat * fractionCount +
        (significandAndExponent magnitude).1 = magnitude := by
  by_cases least : magnitude / fractionCount = 0
  · simp only [significandAndExponent, if_pos least]
    simp only [fractionCount] at *
    refine ⟨Int.le_refl _, ?_, fun _ => trivial, ?_⟩ <;> omega
  · simp only [significandAndExponent, if_neg least, Int.ofNat_eq_natCast]
    simp only [fractionCount] at *
    refine ⟨?_, ?_, ?_, ?_⟩ <;> omega

theorem significand_pos {magnitude : Nat} (positive : 0 < magnitude) :
    0 < (significandAndExponent magnitude).1 := by
  obtain ⟨_, _, least, whole⟩ := significandAndExponent_bounds magnitude
  rcases Nat.eq_zero_or_pos (significandAndExponent magnitude).1 with none | significant
  · rw [least (by rw [none]; decide), none] at whole
    exact absurd (show 0 = magnitude from whole) positive.ne
  · exact significant

/-- A quotient that is the value of a magnitude is rounded to that magnitude. -/
theorem nearestMagnitude_of_value {above below magnitude : Nat} (above_pos : 0 < above)
    (below_pos : 0 < below) (same : (above : ℚ) / below = magnitudeValue magnitude) :
    nearestMagnitude above below = magnitude := by
  obtain ⟨least, bounded, subnormal, whole⟩ := significandAndExponent_bounds magnitude
  rw [magnitudeValue] at same
  generalize (significandAndExponent magnitude).1 = significand at *
  generalize (significandAndExponent magnitude).2 = exponent at *
  have quotient_pos : (0 : ℚ) < above / below := by positivity
  have order := binaryOrder_eq_log above_pos below_pos
  have below_order : Int.log 2 ((above : ℚ) / below) < exponent + 53 := by
    apply (Int.lt_zpow_iff_log_lt (by decide : 1 < 2) quotient_pos).mp
    have bits : (significand : ℚ) < 2 ^ (53 : Int) := by
      exact_mod_cast (show significand < 2 ^ 53 from bounded)
    rw [same, Nat.cast_ofNat, add_comm, zpow_add₀ (by norm_num)]
    exact mul_lt_mul_of_pos_right bits (by positivity)
  have above_order : fractionCount ≤ significand →
      exponent + 52 ≤ Int.log 2 ((above : ℚ) / below) := by
    intro leading
    apply (Int.zpow_le_iff_le_log (by decide : 1 < 2) quotient_pos).mp
    have bits : (2 : ℚ) ^ (52 : Int) ≤ significand := by
      exact_mod_cast (show 2 ^ 52 ≤ significand from leading)
    rw [same, Nat.cast_ofNat, add_comm, zpow_add₀ (by norm_num)]
    exact mul_le_mul_of_nonneg_right bits (by positivity)
  have scale : max (binaryOrder above below - 52) (-1074) = exponent := by
    rw [order]
    rcases Nat.lt_or_ge significand fractionCount with small | leading
    · have := subnormal small
      omega
    · have := above_order leading
      omega
  have scaled_pos := scaledUp_pos (by decide : 0 < 2) below_pos exponent
  have multiple : scaledUp 2 above (-exponent) = significand * scaledUp 2 below exponent := by
    have scaled := scaledUp_div (by decide : 0 < 2) above below (-exponent)
    rw [neg_neg, same, Nat.cast_ofNat, mul_assoc, ← zpow_add₀ (by norm_num), add_neg_cancel,
      zpow_zero, mul_one, div_eq_iff (by exact_mod_cast scaled_pos.ne')] at scaled
    exact_mod_cast scaled
  simp only [nearestMagnitude, scale, roundedQuotient_of_eq scaled_pos multiple]
  exact whole

theorem two_pow_le_ten_pow : 2 ^ 1074 ≤ 10 ^ 330 := by
  decide +kernel

theorem two_pow_lt_ten_pow : 2 ^ 1024 < 10 ^ 310 := by
  decide +kernel

/-- The finite magnitudes lie between the bounds outside of which no arithmetic is done. -/
theorem magnitudeValue_bounds {magnitude : Nat} (positive : 0 < magnitude)
    (finite : magnitude < infiniteMagnitude) :
    (10 : ℚ) ^ (-330 : Int) ≤ magnitudeValue magnitude ∧
      magnitudeValue magnitude < 10 ^ (310 : Int) := by
  obtain ⟨least, bounded, _, whole⟩ := significandAndExponent_bounds magnitude
  have significant := significand_pos positive
  rw [magnitudeValue]
  generalize (significandAndExponent magnitude).1 = significand at *
  generalize (significandAndExponent magnitude).2 = exponent at *
  have greatest : exponent ≤ 971 := by
    simp only [infiniteMagnitude, fractionCount] at *
    omega
  have one : (1 : ℚ) ≤ significand := by exact_mod_cast significant
  have bits : (significand : ℚ) ≤ 2 ^ (53 : Int) := by
    exact_mod_cast (show significand ≤ 2 ^ 53 from bounded.le)
  constructor
  · have power : (2 : ℚ) ^ 1074 ≤ 10 ^ 330 := by exact_mod_cast two_pow_le_ten_pow
    calc (10 : ℚ) ^ (-330 : Int) = ((10 : ℚ) ^ 330)⁻¹ := rfl
      _ ≤ ((2 : ℚ) ^ 1074)⁻¹ := inv_anti₀ (by positivity) power
      _ = 2 ^ (-1074 : Int) := rfl
      _ ≤ 2 ^ exponent := zpow_le_zpow_right₀ (by norm_num) least
      _ ≤ significand * 2 ^ exponent := le_mul_of_one_le_left (by positivity) one
  · have power : (2 : ℚ) ^ 1024 < 10 ^ 310 := by exact_mod_cast two_pow_lt_ten_pow
    calc (significand : ℚ) * 2 ^ exponent ≤ 2 ^ (53 : Int) * 2 ^ (971 : Int) :=
          mul_le_mul bits (zpow_le_zpow_right₀ (by norm_num) greatest) (by positivity)
            (by positivity)
      _ = 2 ^ 1024 := by rw [← zpow_add₀ (by norm_num)]; rfl
      _ < 10 ^ (310 : Int) := power

end Binary64

namespace Decimal

/-- A decimal that is the value of a finite magnitude is read as it. -/
theorem toBinary64_of_value {d : Decimal} {magnitude : Nat}
    (finite : magnitude < Binary64.infiniteMagnitude)
    (same : d.value = Binary64.magnitudeValue magnitude) :
    d.toBinary64 = .ofMagnitude magnitude := by
  rw [← value_trimmed] at same
  rcases Nat.eq_zero_or_pos magnitude with rfl | positive
  · have none : d.trimmed.digits = 0 := by
      rw [← value_eq_zero_iff, same]
      simp [Binary64.magnitudeValue, Binary64.significandAndExponent, Binary64.fractionCount]
    simp only [toBinary64, none, if_true]
    rfl
  · obtain ⟨low, high⟩ := Binary64.magnitudeValue_bounds positive finite
    rw [← same] at low high
    have nonzero : d.trimmed.digits ≠ 0 := by
      intro none
      rw [value_eq_zero_iff.mpr none] at low
      exact absurd low (not_le.mpr (by positivity))
    have top : ¬ d.trimmed.exponent + digitCount d.trimmed.digits > 310 := by
      intro beyond
      have large := le_value nonzero
      have power : (10 : ℚ) ^ (310 : Int) ≤
          10 ^ (d.trimmed.exponent + digitCount d.trimmed.digits - 1) :=
        zpow_le_zpow_right₀ (by norm_num) (by omega)
      exact absurd (power.trans large) (not_le.mpr high)
    have bottom : ¬ d.trimmed.exponent + digitCount d.trimmed.digits < -330 := by
      intro beyond
      have power : (10 : ℚ) ^ (d.trimmed.exponent + digitCount d.trimmed.digits) ≤
          10 ^ (-330 : Int) :=
        zpow_le_zpow_right₀ (by norm_num) (by omega)
      exact absurd ((value_lt d.trimmed).trans_le power) (not_lt.mpr low)
    simp only [toBinary64, if_neg nonzero, if_neg top, if_neg bottom]
    have nearest := Binary64.nearestMagnitude_of_value
      (scaledUp_pos (by decide) (Nat.pos_of_ne_zero nonzero) _)
      (scaledUp_pos (by decide) (by decide) _) ((numerator_div_denominator d.trimmed).trans same)
    exact congrArg Binary64.ofMagnitude nearest

end Decimal

namespace Binary64

theorem toBinary64_of_shortestOn? {x : Binary64} {above below : Nat} {grid : Int} {d : Decimal}
    (found : x.shortestOn? above below grid = some d) : d.toBinary64 = x := by
  simp only [shortestOn?] at found
  split at found
  · next lower upper =>
      cases found
      split
      · exact of_decide_eq_true lower
      · exact of_decide_eq_true upper
  · next lower _ =>
      cases found
      exact of_decide_eq_true lower
  · next _ upper =>
      cases found
      exact of_decide_eq_true upper
  · exact absurd found (by simp)

theorem value_exactDecimal (significand : Nat) (exponent : Int) :
    (exactDecimal significand exponent).value = significand * 2 ^ exponent := by
  rw [exactDecimal, Decimal.value_trimmed, Decimal.value]
  obtain ⟨n, rfl | rfl⟩ := exponent.eq_nat_or_neg
  · simp [scaledUp]
  · have tenth : (10 : ℚ) = 5 * 2 := by norm_num
    simp only [scaledUp, Nat.pow_eq, neg_neg, Int.toNat_natCast, Int.toNat_neg_natCast, pow_zero,
      mul_one, min_eq_left (show (-(n : Int)) ≤ 0 by omega), zpow_neg, zpow_natCast, tenth, mul_pow]
    push_cast
    field_simp

/-- The shortest decimal of a finite magnitude reads back as it. -/
theorem toBinary64_shortestDecimal {magnitude : Nat} (finite : magnitude < infiniteMagnitude) :
    (shortestDecimal magnitude).toBinary64 = ofMagnitude magnitude := by
  have full : (exactDecimal (significandAndExponent magnitude).1
      (significandAndExponent magnitude).2).toBinary64 = ofMagnitude magnitude :=
    Decimal.toBinary64_of_value finite (value_exactDecimal _ _)
  simp only [shortestDecimal]
  split
  · next zero =>
      apply Decimal.toBinary64_of_value finite
      simp [Decimal.value, magnitudeValue, zero]
  · generalize found : List.findSome? _ _ = shortest
    cases shortest with
    | none => exact full
    | some d =>
        obtain ⟨extra, _, reads⟩ := List.exists_of_findSome?_eq_some found
        exact toBinary64_of_shortestOn? reads

end Binary64

end SmallMl
