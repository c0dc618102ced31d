import SmallMl.Token.Reading

/-!
# String literals

A string literal runs from a double quote to the next one that no backslash stands before. Five
characters may follow a backslash, each with a meaning of its own, and a line feed may not stand in
a literal as it is.
-/

namespace SmallMl

namespace StringLiteral

/-- The character that a backslash and the given character stand for. -/
def escapeValue? : Char → Option Char
  | 'n' => some '\n'
  | 't' => some '\t'
  | 'r' => some '\r'
  | '\\' => some '\\'
  | '"' => some '"'
  | _ => none

/-- A part of a literal: the value so far as it is known, the characters that write it, and the text
behind them. -/
structure Part where
  value : List Char
  written : List Char
  rest : List Char
  deriving DecidableEq, Repr

/-- The part with one more character of the value in front, written as given. -/
def Part.cons (c : Char) (written : List Char) (part : Part) : Part where
  value := c :: part.value
  written := written ++ part.written
  rest := part.rest

/-- What follows the opening quote, up to the closing quote and with it. -/
def body? : List Char → Option Part
  | [] => none
  | '"' :: rest => some ⟨[], ['"'], rest⟩
  | '\\' :: c :: rest =>
      match escapeValue? c with
      | some value => (body? rest).map (Part.cons value ['\\', c])
      | none => none
  | '\n' :: _ => none
  | c :: rest => (body? rest).map (Part.cons c [c])

theorem body?_eq_some {text : List Char} {part : Part} (closed : body? text = some part) :
    part.written ++ part.rest = text := by
  fun_induction body? text generalizing part with
  | case1 => exact absurd closed (by simp)
  | case2 => cases closed; rfl
  | case3 c rest value meaning ih =>
      obtain ⟨inner, read, rfl⟩ := Option.map_eq_some_iff.mp closed
      simp [Part.cons, ih read]
  | case4 => exact absurd closed (by simp)
  | case5 => exact absurd closed (by simp)
  | case6 c rest _ _ _ ih =>
      obtain ⟨inner, read, rfl⟩ := Option.map_eq_some_iff.mp closed
      simp [Part.cons, ih read]

end StringLiteral

namespace Token

/-- Reads a string literal. -/
def readString : List Char → Reading
  | '"' :: text =>
      match StringLiteral.body? text with
      | some part => .token (string (String.ofList part.value)) ('"' :: part.written) part.rest
      | none => .absent
  | _ => .absent

theorem readString_splits (text : List Char) : (readString text).Splits text := by
  unfold readString
  split
  · split
    · next closed => simpa [Reading.Splits] using StringLiteral.body?_eq_some closed
    · trivial
  · trivial

end Token

end SmallMl
