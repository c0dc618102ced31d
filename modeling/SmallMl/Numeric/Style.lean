import SmallMl.Numeric.Shortest

/-!
# Styles of decimal text

A style says how the shortest decimal of a binary64 value is laid out: which orders of magnitude are
written without an exponent, and whether a whole number keeps a fraction. Infinities and values that
are no number have a word each, and only the sign of a number is written.
-/

namespace SmallMl

/-- The choices of a decimal text. The order of a number is the exponent of its first digit. -/
structure DecimalStyle where
  /-- The least and the greatest order written without an exponent; `none` writes none with one. -/
  positional : Option (Int × Int)
  /-- Whether a whole number written without an exponent ends in a point and a zero. -/
  keepsFraction : Bool
  deriving DecidableEq, Repr

namespace DecimalStyle

/-- Whether a number of the given order is written with an exponent. -/
def isScientific (style : DecimalStyle) (order : Int) : Bool :=
  match style.positional with
  | none => false
  | some (least, greatest) => order < least || greatest < order

/-- Digits with the point after the first one, and the order behind the letter `e`. -/
def scientificText (digits : List Char) (order : Int) : List Char :=
  let fraction := digits.drop 1
  digits.take 1 ++ (if fraction = [] then [] else '.' :: fraction) ++ 'e' :: (toString order).toList

/-- Digits with the point in its place among them, and zeros between the two where they are apart.
`before` is the number of digits before the point. -/
def positionalText (style : DecimalStyle) (digits : List Char) (before : Int) : List Char :=
  if before ≤ 0 then '0' :: '.' :: (List.replicate (-before).toNat '0' ++ digits)
  else
    let count := before.toNat
    if count < digits.length then digits.take count ++ '.' :: digits.drop count
    else
      digits ++ List.replicate (count - digits.length) '0' ++
        if style.keepsFraction then ['.', '0'] else []

/-- A decimal in the style. -/
def decimalText (style : DecimalStyle) (d : Decimal) : List Char :=
  let digits := Nat.toDigits 10 d.digits
  let before := d.exponent + Int.ofNat digits.length
  if d.digits ≠ 0 && style.isScientific (before - 1) then scientificText digits (before - 1)
  else style.positionalText digits before

/-- A binary64 value in the style. -/
def text (style : DecimalStyle) (x : Binary64) : String :=
  if x.isNaN then "NaN"
  else
    let sign := if x.isNegative then ['-'] else []
    let magnitude :=
      if x.isFinite then style.decimalText (Binary64.shortestDecimal x.magnitude)
      else ['i', 'n', 'f']
    String.ofList (sign ++ magnitude)

end DecimalStyle

end SmallMl
