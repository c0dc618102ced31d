import SmallMl.Token.Reading

/-!
# Numerals

A numeral is a run of decimal digits; with a point, an exponent or both behind it, it is a float,
and otherwise an integer. The digits behind the point may be missing, those of an exponent may not:
an exponent without digits is not part of the numeral. Integers end at 2 ^ 63 - 1, and a larger run
of digits is no token.
-/

namespace SmallMl

/-- The digits at the front of a text. -/
def digitRun (text : List Char) : List Char :=
  text.takeWhile Char.isDigit

/-- The text behind the digits at its front. -/
def afterDigits (text : List Char) : List Char :=
  text.dropWhile Char.isDigit

theorem digitRun_append_afterDigits (text : List Char) :
    digitRun text ++ afterDigits text = text :=
  List.takeWhile_append_dropWhile

/-- The number that a run of decimal digits stands for. -/
def digitValue (digits : List Char) : Nat :=
  Nat.ofDigitChars 10 digits 0

/-- The exponent of a numeral: its mark, its sign if it has one, and its digits. -/
structure Exponent where
  mark : Char
  sign : Option Char
  digits : List Char
  deriving DecidableEq, Repr

namespace Exponent

/-- The characters of the exponent. -/
def lexeme (e : Exponent) : List Char :=
  e.mark :: (e.sign.toList ++ e.digits)

/-- The number that the exponent stands for. -/
def value (e : Exponent) : Int :=
  if e.sign = some '-' then -(digitValue e.digits : Int) else digitValue e.digits

/-- The sign at the front of a text, and the text behind it. -/
def splitSign : List Char → Option Char × List Char
  | [] => (none, [])
  | c :: rest => if c = '+' ∨ c = '-' then (some c, rest) else (none, c :: rest)

/-- The exponent at the front of a text, and the text behind it. -/
def split? : List Char → Option (Exponent × List Char)
  | [] => none
  | mark :: text =>
      if mark = 'e' ∨ mark = 'E' then
        let (sign, rest) := splitSign text
        if digitRun rest = [] then none
        else some (⟨mark, sign, digitRun rest⟩, afterDigits rest)
      else none

/-- The exponent at the front of a text, if there is one, and the text behind it. -/
def split (text : List Char) : Option Exponent × List Char :=
  match split? text with
  | some (exponent, rest) => (some exponent, rest)
  | none => (none, text)

theorem splitSign_append (text : List Char) :
    (splitSign text).1.toList ++ (splitSign text).2 = text := by
  cases text with
  | nil => rfl
  | cons c rest => by_cases sign : c = '+' ∨ c = '-' <;> simp [splitSign, sign]

theorem split?_eq_some {text rest : List Char} {e : Exponent}
    (found : split? text = some (e, rest)) : e.lexeme ++ rest = text := by
  cases text with
  | nil => exact absurd found (by simp [split?])
  | cons mark text =>
      simp only [split?] at found
      split at found
      · split at found
        · exact absurd found (by simp)
        · cases found
          simp [lexeme, digitRun_append_afterDigits, splitSign_append]
      · exact absurd found (by simp)

theorem split_append (text : List Char) :
    ((split text).1.map lexeme).getD [] ++ (split text).2 = text := by
  unfold split
  split
  · next found => simpa using split?_eq_some found
  · rfl

end Exponent

/-- A numeral: the digits before the point, those behind it if there is a point, and the exponent if
there is one. -/
structure Numeral where
  whole : List Char
  fraction : Option (List Char)
  exponent : Option Exponent
  deriving DecidableEq, Repr

namespace Numeral

/-- The characters of the numeral. -/
def lexeme (n : Numeral) : List Char :=
  let fraction := match n.fraction with
    | some digits => '.' :: digits
    | none => []
  let exponent := match n.exponent with
    | some e => e.lexeme
    | none => []
  n.whole ++ fraction ++ exponent

/-- Whether the numeral has a point or an exponent. -/
def isFloat (n : Numeral) : Bool :=
  n.fraction.isSome || n.exponent.isSome

/-- The exact number that the numeral stands for. -/
def decimal (n : Numeral) : Decimal :=
  let fraction := n.fraction.getD []
  let exponent := (n.exponent.map Exponent.value).getD 0
  ⟨digitValue (n.whole ++ fraction), exponent - fraction.length⟩

/-- The largest integer literal, `2 ^ 63 - 1`. -/
def maxInteger : Nat := 0x7fffffffffffffff

/-- The token of the numeral; integers that are too large have none. -/
def token? (n : Numeral) : Option Token :=
  if n.isFloat then some (.float n.decimal.toBinary64)
  else if digitValue n.whole ≤ maxInteger then some (.int (digitValue n.whole))
  else none

/-- The longest numeral at the front of a text, and the text behind it. -/
def split? (text : List Char) : Option (Numeral × List Char) :=
  let whole := digitRun text
  if whole = [] then none
  else
    match afterDigits text with
    | '.' :: behind =>
        let (exponent, rest) := Exponent.split (afterDigits behind)
        some (⟨whole, some (digitRun behind), exponent⟩, rest)
    | behind =>
        let (exponent, rest) := Exponent.split behind
        some (⟨whole, none, exponent⟩, rest)

theorem split?_eq_some {text rest : List Char} {n : Numeral}
    (found : split? text = some (n, rest)) : n.whole ≠ [] ∧ n.lexeme ++ rest = text := by
  have ends := fun behind => Exponent.split_append behind
  simp only [split?] at found
  split at found
  · exact absurd found (by simp)
  · next nonempty =>
      have front := digitRun_append_afterDigits text
      split at found
      · next behind point =>
          cases found
          refine ⟨nonempty, ?_⟩
          have last := ends (afterDigits behind)
          have middle := digitRun_append_afterDigits behind
          cases exponent : (Exponent.split (afterDigits behind)).1 <;>
            simp_all [lexeme]
      · cases found
        refine ⟨nonempty, ?_⟩
        have last := ends (afterDigits text)
        cases exponent : (Exponent.split (afterDigits text)).1 <;>
          simp_all [lexeme]

end Numeral

namespace Token

/-- Reads a numeral. -/
def readNumeral (text : List Char) : Reading :=
  match Numeral.split? text with
  | none => .absent
  | some (numeral, rest) =>
      match numeral.token? with
      | some token => .token token numeral.lexeme rest
      | none => .absent

theorem readNumeral_splits (text : List Char) : (readNumeral text).Splits text := by
  unfold readNumeral
  split
  · trivial
  · next found =>
      obtain ⟨nonempty, whole⟩ := Numeral.split?_eq_some found
      split
      · exact ⟨by simp [Numeral.lexeme, nonempty], whole⟩
      · trivial

end Token

end SmallMl
