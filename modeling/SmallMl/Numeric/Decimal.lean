import SmallMl.Numeric.Binary64

/-!
# Decimal numbers and their nearest binary64 values

A decimal is a natural number scaled by a power of ten. Its nearest binary64 value is found in exact
arithmetic: the exponent is fixed first, from the size of the number, then the quotient is rounded
once, half-way cases to the even neighbour.
-/

namespace SmallMl

/-- A number times a power of a base. A negative exponent leaves the number as it is, and with the
opposite exponent it scales the other side of a quotient. -/
def scaledUp (base number : Nat) (exponent : Int) : Nat :=
  number * Nat.pow base exponent.toNat

/-- The number `digits * 10 ^ exponent`. -/
structure Decimal where
  digits : Nat
  exponent : Int
  deriving DecidableEq, Repr

namespace Decimal

/-- Moves the trailing zeros of `digits` into the exponent. -/
def trimmedOf (digits : Nat) (exponent : Int) : Decimal :=
  if digits = 0 then ⟨0, 0⟩
  else if digits % 10 = 0 then trimmedOf (digits / 10) (exponent + 1)
  else ⟨digits, exponent⟩
termination_by digits

/-- The same number without trailing zeros; zero is written with exponent zero. Numbers have one
trimmed form each. -/
def trimmed (d : Decimal) : Decimal :=
  trimmedOf d.digits d.exponent

/-- The count of decimal digits in which a number is written. -/
def digitCount (n : Nat) : Nat :=
  (Nat.toDigits 10 n).length

/-- The numerator of the number as a quotient of natural numbers. -/
def numerator (d : Decimal) : Nat :=
  scaledUp 10 d.digits d.exponent

/-- The denominator of the number as a quotient of natural numbers. -/
def denominator (d : Decimal) : Nat :=
  scaledUp 10 1 (-d.exponent)

end Decimal

/-- The quotient of two natural numbers, rounded to the nearest; a half goes to the even
neighbour. -/
def roundedQuotient (numerator denominator : Nat) : Nat :=
  let whole := numerator / denominator
  let remainder := numerator % denominator
  if 2 * remainder < denominator then whole
  else if denominator < 2 * remainder then whole + 1
  else whole + whole % 2

/-- The largest exponent `e` with `2 ^ e ≤ numerator / denominator`, for a positive quotient. The
difference of the two lengths is that exponent or one more. -/
def binaryOrder (numerator denominator : Nat) : Int :=
  let estimate := (numerator.log2 : Int) - denominator.log2
  if scaledUp 2 denominator estimate ≤ scaledUp 2 numerator (-estimate) then estimate
  else estimate - 1

namespace Binary64

/-- The number of the binary64 magnitude nearest to a positive quotient. The scale leaves 53 bits
before the binary point, fewer only below the least normal exponent. A quotient that rounds up to
2 ^ 53 takes the number of the next exponent's first magnitude, as it should. -/
def nearestMagnitude (numerator denominator : Nat) : Nat :=
  let scale := max (binaryOrder numerator denominator - 52) (-1074)
  let quotient := roundedQuotient (scaledUp 2 numerator (-scale)) (scaledUp 2 denominator scale)
  (scale + 1074).toNat * fractionCount + quotient

end Binary64

namespace Decimal

/-- The binary64 value nearest to a decimal. Numbers from `10 ^ 310` on and below `10 ^ (-330)` lie
outside the range of the format and need no arithmetic, however large their exponents are. -/
def toBinary64 (d : Decimal) : Binary64 :=
  let ⟨digits, exponent⟩ := d.trimmed
  if digits = 0 then .zero
  else if exponent + digitCount digits > 310 then .infinity
  else if exponent + digitCount digits < -330 then .zero
  else
    .ofMagnitude (Binary64.nearestMagnitude (numerator ⟨digits, exponent⟩)
      (denominator ⟨digits, exponent⟩))

end Decimal

end SmallMl
