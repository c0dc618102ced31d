import SmallMl.Token.Basic

/-!
# Readings

A reader looks at the front of a text for one kind of token. It finds the token with its lexeme and
the text behind it, or it leaves the text to other readers, or it finds a token broken off, which no
other reader may take up. A list of readers is tried in order.
-/

namespace SmallMl

/-- What a reader makes of the front of a text. -/
inductive Reading where
  | token (token : Token) (lexeme rest : List Char)
  | absent
  | broken
  deriving DecidableEq, Repr

namespace Reading

/-- The reading of the first reader that does not leave the text to the others. -/
def first (text : List Char) : List (List Char → Reading) → Reading
  | [] => absent
  | reader :: others =>
      match reader text with
      | absent => first text others
      | token t lexeme rest => token t lexeme rest
      | broken => broken

/-- A reading splits a text when its lexeme is not empty and the text is the lexeme followed by the
rest. Readings without a token split every text. -/
def Splits (text : List Char) : Reading → Prop
  | token _ lexeme rest => lexeme ≠ [] ∧ lexeme ++ rest = text
  | absent => True
  | broken => True

theorem first_splits {text : List Char} {readers : List (List Char → Reading)}
    (each : ∀ reader ∈ readers, (reader text).Splits text) :
    (first text readers).Splits text := by
  induction readers with
  | nil => trivial
  | cons reader others ih =>
      have here := each reader (List.mem_cons_self ..)
      have later := ih fun other member => each other (List.mem_cons_of_mem _ member)
      unfold first
      split
      · exact later
      · next found => rw [found] at here; exact here
      · trivial

end Reading

end SmallMl
