import SmallMl.Numeric.Decimal

/-!
# Shortest decimals

The shortest decimal of a binary64 value is the one with the fewest digits that still reads back as
that value, and of several the nearest. It lies beside the value on a decimal grid, so for each
number of digits only the two neighbours of the value have to be tried, in exact arithmetic.
-/

namespace SmallMl

/-- The exponent `k` with `10 ^ (k - 1) ≤ numerator / denominator < 10 ^ k`, for a positive
quotient. -/
def decimalOrder (numerator denominator : Nat) : Int :=
  if denominator ≤ numerator then Decimal.digitCount (numerator / denominator)
  else 1 - (Decimal.digitCount ((denominator - 1) / numerator) : Int)

namespace Binary64

/-- The neighbours of a positive quotient on the grid of spacing `10 ^ grid`: the point at it or
below it and the next one, with the distance of each, in a unit that both share. -/
def neighbours (numerator denominator : Nat) (grid : Int) : (Decimal × Nat) × (Decimal × Nat) :=
  let scaled := scaledUp 10 numerator (-grid)
  let spacing := scaledUp 10 denominator grid
  let below := scaled / spacing
  let remainder := scaled % spacing
  ((Decimal.trimmed ⟨below, grid⟩, remainder),
    (Decimal.trimmed ⟨below + 1, grid⟩, spacing - remainder))

/-- The neighbour of the quotient on a grid that reads back as `x`; of two the nearer, and the upper
one when both are equally near. -/
def shortestOn? (x : Binary64) (numerator denominator : Nat) (grid : Int) : Option Decimal :=
  let ((below, toBelow), (above, toAbove)) := neighbours numerator denominator grid
  match decide (below.toBinary64 = x), decide (above.toBinary64 = x) with
  | true, true => some (if toBelow < toAbove then below else above)
  | true, false => some below
  | false, true => some above
  | false, false => none

/-- The exact decimal of `significand * 2 ^ exponent`; a negative power of two is one of five over
one of ten. -/
def exactDecimal (significand : Nat) (exponent : Int) : Decimal :=
  Decimal.trimmed ⟨scaledUp 5 (scaledUp 2 significand exponent) (-exponent), min exponent 0⟩

/-- The shortest decimal of the finite magnitude with the given number. Seventeen digits are enough
for every magnitude; past them the exact decimal stands in. -/
def shortestDecimal (magnitude : Nat) : Decimal :=
  let (significand, exponent) := significandAndExponent magnitude
  let numerator := scaledUp 2 significand exponent
  let denominator := scaledUp 2 1 (-exponent)
  let order := decimalOrder numerator denominator
  if significand = 0 then ⟨0, 0⟩
  else
    -- one digit first, then one digit more on each finer grid
    let found := (List.range 17).findSome? fun extra =>
      (ofMagnitude magnitude).shortestOn? numerator denominator (order - 1 - Int.ofNat extra)
    found.getD (exactDecimal significand exponent)

end Binary64

end SmallMl
