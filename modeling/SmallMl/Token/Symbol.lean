/-!
# Keywords and symbols

The fixed lexemes of the language: how each is spelled in a source, and the name under which it is
printed. Symbols of two characters come before those of one in `Symbol.all`, so that the first
symbol of the list that a text starts with is the longest one.
-/

namespace SmallMl

/-- The text behind a lexeme, if the text starts with it. -/
def behind? (lexeme text : List Char) : Option (List Char) :=
  if lexeme.isPrefixOf text then some (text.drop lexeme.length) else none

theorem behind?_eq_some {lexeme text rest : List Char} (found : behind? lexeme text = some rest) :
    lexeme ++ rest = text := by
  unfold behind? at found
  split at found
  · next front =>
      rw [List.isPrefixOf_iff_prefix] at front
      cases found
      exact List.prefix_iff_eq_append.mp front
  · exact absurd found (by simp)

/-- A reserved word. `some_` and `none_` are the constructors of optional values. -/
inductive Keyword where
  | let_ | rec_ | in_ | if_ | then_ | else_ | fun_ | match_
  | with_ | type_ | external | not_ | some_ | none_
  deriving DecidableEq, Repr

namespace Keyword

/-- Every keyword. -/
def all : List Keyword :=
  [.let_, .rec_, .in_, .if_, .then_, .else_, .fun_, .match_, .with_, .type_, .external, .not_,
   .some_, .none_]

/-- The word as a source spells it. -/
def spelling : Keyword → String
  | .let_ => "let"
  | .rec_ => "rec"
  | .in_ => "in"
  | .if_ => "if"
  | .then_ => "then"
  | .else_ => "else"
  | .fun_ => "fun"
  | .match_ => "match"
  | .with_ => "with"
  | .type_ => "type"
  | .external => "external"
  | .not_ => "not"
  | .some_ => "Some"
  | .none_ => "None"

/-- The name under which the keyword is printed. -/
def name : Keyword → String
  | .let_ => "LET"
  | .rec_ => "REC"
  | .in_ => "IN"
  | .if_ => "IF"
  | .then_ => "THEN"
  | .else_ => "ELSE"
  | .fun_ => "FUN"
  | .match_ => "MATCH"
  | .with_ => "WITH"
  | .type_ => "TYPE"
  | .external => "EXTERNAL"
  | .not_ => "NOT"
  | .some_ => "SOME"
  | .none_ => "NONE"

/-- The keyword that a word spells. -/
def ofWord? (word : String) : Option Keyword :=
  all.find? fun keyword => keyword.spelling == word

end Keyword

/-- An operator or a delimiter. -/
inductive Symbol where
  | leftBracketBar | barRightBracket | plusDot | minusDot
  | starDot | slashDot | minusGreater | lessMinus
  | lessGreater | lessEqual | greaterEqual | andAnd
  | barBar
  | leftParen | rightParen | leftBracket | rightBracket | plus | minus
  | star | slash | percent | equal | less | greater
  | semicolon | comma | dot | bar | colon
  deriving DecidableEq, Repr

namespace Symbol

/-- Every symbol, those of two characters first. -/
def all : List Symbol :=
  [.leftBracketBar, .barRightBracket, .plusDot, .minusDot, .starDot, .slashDot, .minusGreater,
   .lessMinus, .lessGreater, .lessEqual, .greaterEqual, .andAnd, .barBar, .leftParen,
   .rightParen, .leftBracket, .rightBracket, .plus, .minus, .star, .slash, .percent, .equal,
   .less, .greater, .semicolon, .comma, .dot, .bar, .colon]

/-- The characters of the symbol. -/
def spelling : Symbol → List Char
  | .leftBracketBar => ['[', '|']
  | .barRightBracket => ['|', ']']
  | .plusDot => ['+', '.']
  | .minusDot => ['-', '.']
  | .starDot => ['*', '.']
  | .slashDot => ['/', '.']
  | .minusGreater => ['-', '>']
  | .lessMinus => ['<', '-']
  | .lessGreater => ['<', '>']
  | .lessEqual => ['<', '=']
  | .greaterEqual => ['>', '=']
  | .andAnd => ['&', '&']
  | .barBar => ['|', '|']
  | .leftParen => ['(']
  | .rightParen => [')']
  | .leftBracket => ['[']
  | .rightBracket => [']']
  | .plus => ['+']
  | .minus => ['-']
  | .star => ['*']
  | .slash => ['/']
  | .percent => ['%']
  | .equal => ['=']
  | .less => ['<']
  | .greater => ['>']
  | .semicolon => [';']
  | .comma => [',']
  | .dot => ['.']
  | .bar => ['|']
  | .colon => [':']

/-- The name under which the symbol is printed. -/
def name : Symbol → String
  | .leftBracketBar => "LBRACKET_BAR"
  | .barRightBracket => "BAR_RBRACKET"
  | .plusDot => "PLUS_DOT"
  | .minusDot => "MINUS_DOT"
  | .starDot => "STAR_DOT"
  | .slashDot => "SLASH_DOT"
  | .minusGreater => "MINUS_GREATER"
  | .lessMinus => "LESS_MINUS"
  | .lessGreater => "LESS_GREATER"
  | .lessEqual => "LESS_EQUAL"
  | .greaterEqual => "GREATER_EQUAL"
  | .andAnd => "AND_AND"
  | .barBar => "BAR_BAR"
  | .leftParen => "LPAREN"
  | .rightParen => "RPAREN"
  | .leftBracket => "LBRACKET"
  | .rightBracket => "RBRACKET"
  | .plus => "PLUS"
  | .minus => "MINUS"
  | .star => "STAR"
  | .slash => "SLASH"
  | .percent => "PERCENT"
  | .equal => "EQUAL"
  | .less => "LESS"
  | .greater => "GREATER"
  | .semicolon => "SEMICOLON"
  | .comma => "COMMA"
  | .dot => "DOT"
  | .bar => "BAR"
  | .colon => "COLON"

/-- The longest symbol at the front of a text, and the text behind it. -/
def split? (text : List Char) : Option (Symbol × List Char) :=
  all.findSome? fun symbol => (behind? symbol.spelling text).map fun rest => (symbol, rest)

theorem mem_all (symbol : Symbol) : symbol ∈ all := by
  cases symbol <;> decide

theorem spelling_ne_nil (symbol : Symbol) : symbol.spelling ≠ [] := by
  cases symbol <;> decide

end Symbol

end SmallMl
