import SmallMl.Numeric.Style
import SmallMl.Source.Span
import SmallMl.Text.Quoted
import SmallMl.Token.Symbol

/-!
# Tokens

The lexical units of the language, comments included, and their printed form: a name in capitals,
followed by the payload in parentheses where there is one.
-/

namespace SmallMl

/-- A lexical unit. Integers carry no sign, and the payload of a string literal is decoded. The two
array primitives are units although a point stands inside them. -/
inductive Token where
  | keyword (keyword : Keyword)
  | symbol (symbol : Symbol)
  | underscore
  | arrayMake
  | arrayLength
  | ident (name : String)
  | bool (value : Bool)
  | int (value : Nat)
  | float (value : Binary64)
  | string (value : String)
  | comment (text : String)
  deriving DecidableEq, Repr

namespace Token

/-- Floats keep a point or an exponent in their text, and leave positional writing outside the
orders from -4 to 15. -/
def floatStyle : DecimalStyle where
  positional := some (-4, 15)
  keepsFraction := true

/-- A name with a payload in parentheses. -/
def tagged (name payload : String) : String :=
  name ++ "(" ++ payload ++ ")"

/-- The printed form of a token. -/
def text : Token → String
  | keyword k => k.name
  | symbol s => s.name
  | underscore => "UNDERSCORE"
  | arrayMake => "ARRAY_MAKE"
  | arrayLength => "ARRAY_LENGTH"
  | ident name => tagged "IDENT" name
  | bool value => tagged "BOOL" (toString value)
  | int value => tagged "INT" (toString value)
  | float value => tagged "FLOAT" (floatStyle.text value)
  | string value => tagged "STRING" (quotedString value)
  | comment text => tagged "COMMENT" (quotedString text)

instance : ToString Token := ⟨text⟩

/-- Whether the token is a comment. -/
def isComment : Token → Bool
  | comment _ => true
  | _ => false

end Token

/-- A token and the place of its lexeme in the source. -/
structure LocatedToken where
  token : Token
  span : Span
  deriving DecidableEq, Repr

namespace LocatedToken

/-- The printed form of the token and its span. -/
def text (located : LocatedToken) : String :=
  located.token.text ++ " " ++ located.span.text

instance : ToString LocatedToken := ⟨text⟩

end LocatedToken

end SmallMl
