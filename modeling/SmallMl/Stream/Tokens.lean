import SmallMl.Stream.Basic

/-!
# The tokens of a source

All tokens of a source but its comments, or the first error.
-/

namespace SmallMl

/-- The tokens among some items, without comments, or the first error among them. -/
def Item.tokens : List Item → Except LexicalError (List LocatedToken)
  | [] => .ok []
  | .error e :: _ => .error e
  | .token located :: items =>
      match Item.tokens items with
      | .error e => .error e
      | .ok others => .ok (if located.token.isComment then others else located :: others)

/-- The tokens of a source without its comments, or the first error in it. -/
def tokenize (source : String) : Except LexicalError (List LocatedToken) :=
  Item.tokens (TokenStream.ofSource source).items

end SmallMl
