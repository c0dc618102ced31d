import SmallMl.Source.Span
import SmallMl.Text.Quoted

/-!
# Lexical errors

Why no token starts at a place of the source, and where that place is.
-/

namespace SmallMl

/-- The reason why a source cannot be read further. The span covers the character that starts no
token, or the mark that opens what is never closed. -/
inductive LexicalError where
  | invalidToken (found : Char) (span : Span)
  | unterminatedComment (span : Span)
  | unterminatedString (span : Span)
  deriving DecidableEq, Repr

namespace LexicalError

/-- The place of the error in the source. -/
def span : LexicalError → Span
  | invalidToken _ span => span
  | unterminatedComment span => span
  | unterminatedString span => span

/-- The message for a reader of the source. -/
def message : LexicalError → String
  | invalidToken found span => "invalid token " ++ quotedChar found ++ " at " ++ span.text
  | unterminatedComment span => "unterminated comment starting at " ++ span.text
  | unterminatedString span => "unterminated string literal starting at " ++ span.text

instance : ToString LexicalError := ⟨message⟩

end LexicalError

end SmallMl
