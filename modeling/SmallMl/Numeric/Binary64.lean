/-!
# Binary64 values

A floating-point value of the IEEE 754 format binary64, held as its 64 bits: a sign bit, eleven
exponent bits and 52 fraction bits. The bits below the sign number the magnitudes in order of size,
from zero over the finite ones to infinity; the numbers past infinity are not numbers.
-/

namespace SmallMl

/-- A binary64 value, given by its bits. -/
structure Binary64 where
  bits : UInt64
  deriving DecidableEq, Repr

namespace Binary64

/-- The number of fractions that one exponent has, two to the power of 52. -/
def fractionCount : Nat := 0x10000000000000

/-- The weight of the sign bit, two to the power of 63. -/
def signWeight : Nat := 0x8000000000000000

/-- The number of the magnitude infinity. -/
def infiniteMagnitude : Nat := 2047 * fractionCount

/-- The value without sign whose magnitude has the given number; beyond the last finite magnitude it
is infinity. -/
def ofMagnitude (magnitude : Nat) : Binary64 :=
  ⟨(min magnitude infiniteMagnitude).toUInt64⟩

/-- Positive infinity. -/
def infinity : Binary64 := ofMagnitude infiniteMagnitude

/-- Positive zero. -/
def zero : Binary64 := ofMagnitude 0

/-- Whether the sign bit is set. -/
def isNegative (x : Binary64) : Bool :=
  signWeight ≤ x.bits.toNat

/-- The number of the magnitude. -/
def magnitude (x : Binary64) : Nat :=
  x.bits.toNat % signWeight

/-- Whether the value is no number at all. -/
def isNaN (x : Binary64) : Bool :=
  infiniteMagnitude < x.magnitude

/-- Whether the value is neither infinite nor no number. -/
def isFinite (x : Binary64) : Bool :=
  x.magnitude < infiniteMagnitude

/-- Significand `m` and exponent `e` of the finite magnitude `m * 2 ^ e` with the given number. The
52 low bits are the fraction. The bits above them scale it, and when they are zero the fraction has
no leading one. -/
def significandAndExponent (magnitude : Nat) : Nat × Int :=
  let biased := magnitude / fractionCount
  let fraction := magnitude % fractionCount
  if biased = 0 then (fraction, -1074) else (fractionCount + fraction, Int.ofNat biased - 1075)

theorem magnitude_ofMagnitude (n : Nat) : (ofMagnitude n).magnitude = min n infiniteMagnitude := by
  have bound : min n infiniteMagnitude ≤ infiniteMagnitude := Nat.min_le_right _ _
  simp only [magnitude, ofMagnitude, Nat.toUInt64, UInt64.toNat_ofNat']
  rw [infiniteMagnitude, fractionCount] at *
  rw [signWeight]
  omega

end Binary64

end SmallMl
