import SmallMl.Token.Comment
import SmallMl.Token.Numeral
import SmallMl.Token.StringLiteral
import SmallMl.Token.Word

/-!
# Reading one token

All readers in their order. Comments come before symbols, because both may start with a parenthesis;
array primitives come before words, because they start with one. Main statement: a token's lexeme is
never empty, and the text is the lexeme followed by the rest.
-/

namespace SmallMl

namespace Token

/-- All readers, in the order in which they are tried. -/
def readers : List (List Char → Reading) :=
  [readComment, readString, readArrayPrimitive, readNumeral, readWord, readSymbol]

/-- Reads the token at the front of a text. -/
def read (text : List Char) : Reading :=
  Reading.first text readers

theorem read_splits (text : List Char) : (read text).Splits text := by
  refine Reading.first_splits fun reader member => ?_
  simp only [readers, List.mem_cons, List.not_mem_nil, or_false] at member
  rcases member with rfl | rfl | rfl | rfl | rfl | rfl
  · exact readComment_splits text
  · exact readString_splits text
  · exact readArrayPrimitive_splits text
  · exact readNumeral_splits text
  · exact readWord_splits text
  · exact readSymbol_splits text

end Token

end SmallMl
