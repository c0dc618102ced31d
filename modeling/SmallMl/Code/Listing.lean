import SmallMl.Code.Program
import SmallMl.Numeric.Style
import SmallMl.Text.Quoted

/-!
# Listings

The text form of the intermediate code: one instruction a line, two spaces before each line for each
block around it. A listing does not show spans.
-/

namespace SmallMl

namespace UnaryOperator

/-- The sign of the operator in a listing. -/
def sign : UnaryOperator → String
  | negate => "-"
  | floatNegate => "-."
  | not_ => "not"

end UnaryOperator

namespace BinaryOperator

/-- The sign of the operator in a listing. -/
def sign : BinaryOperator → String
  | add => "+"
  | subtract => "-"
  | multiply => "*"
  | divide => "/"
  | modulo => "%"
  | floatAdd => "+."
  | floatSubtract => "-."
  | floatMultiply => "*."
  | floatDivide => "/."
  | equal => "="
  | notEqual => "<>"
  | less => "<"
  | lessEqual => "<="
  | greater => ">"
  | greaterEqual => ">="
  | and_ => "&&"
  | or_ => "||"

end BinaryOperator

/-- The word of the call kind in a listing. -/
def CallKind.word : CallKind → String
  | unclassified => "app.?"
  | known => "app"
  | closure => "app.cls"
  | external => "app.x"

/-- Names with commas between them. -/
def nameList (names : List Name) : String :=
  ", ".intercalate names

/-- Words with single spaces between them. -/
def phrase (words : List String) : String :=
  " ".intercalate words

namespace Operation

/-- Listed floats have no exponent, and whole ones no fraction. -/
def floatStyle : DecimalStyle where
  positional := none
  keepsFraction := false

/-- The operation as it is listed behind the name that it binds. -/
def listing : Operation → String
  | unit => "unit"
  | bool value => phrase ["bool", toString value]
  | int value => phrase ["int", toString value.toInt]
  | float value => phrase ["float", floatStyle.text value]
  | string value => phrase ["string", quotedString value]
  | reference name => phrase ["ref", name]
  | externalReference name => phrase ["xref", name]
  | unary operator operand => phrase ["unary", operator.sign, operand]
  | binary operator left right => phrase ["binary", operator.sign, left, right]
  | makeClosure captured function => phrase ["makecls", "(" ++ nameList captured ++ ")", function]
  | tuple elements => phrase ["tuple", nameList elements]
  | tupleLoad source index => phrase ["tplload", toString index, source]
  | array size element => phrase ["array", size, element]
  | arrayLoad source index => phrase ["arrload", index, source]
  | arrayStore target index value => phrase ["arrstore", index, target, value]
  | arrayLength source => phrase ["arrlen", source]

end Operation

/-- The call as it is listed behind the name that it binds. -/
def Call.listing (call : Call) : String :=
  phrase (call.kind.word :: call.callee :: call.arguments)

/-- A line of a listing inside `depth` blocks. -/
def listingLine (depth : Nat) (text : String) : String :=
  String.ofList (List.replicate (2 * depth) ' ') ++ text ++ "\n"

namespace Block

/-- The lines of a block that stands inside `depth` others. -/
def listing (depth : Nat) : Block → String
  | done => ""
  | compute ident _ operation next =>
      listingLine depth (ident ++ " = " ++ operation.listing) ++ next.listing depth
  | apply ident _ call next =>
      listingLine depth (ident ++ " = " ++ call.listing) ++ next.listing depth
  | branch ident _ condition onTrue onFalse next =>
      listingLine depth (ident ++ " = if " ++ condition) ++
        listingLine depth "then \x7b" ++ onTrue.listing (depth + 1) ++ listingLine depth "\x7d" ++
        listingLine depth "else \x7b" ++ onFalse.listing (depth + 1) ++ listingLine depth "\x7d" ++
        next.listing depth
  | literal ident _ parameters body next =>
      listingLine depth (ident ++ " = fun " ++ nameList parameters ++ " \x7b") ++
        body.listing (depth + 1) ++ listingLine depth "\x7d" ++ next.listing depth

/-- The lines of a block that stands by itself. -/
def text (block : Block) : String :=
  block.listing 0

end Block

/-- The lines of a function. -/
def Function.text (function : Function) : String :=
  let mark := if function.isRecursive then " rec" else ""
  listingLine 0 ("fun " ++ function.name ++ "(" ++ nameList function.parameters ++ ")" ++ mark ++
      " \x7b") ++
    function.body.listing 1 ++ listingLine 0 "\x7d"

namespace Program

/-- The line of a closure. -/
def closureLine (name : Name) (captured : List Name) : String :=
  listingLine 0 ("closure " ++ name ++ " [" ++ nameList captured ++ "]")

/-- The lines of a program: its functions, an empty line behind each, its closures, and its entry
block. -/
def text (program : Program) : String :=
  let functions := program.functions.values.map fun function => function.text ++ "\n"
  let closures := program.closures.entries.map fun (name, captured) => closureLine name captured
  String.join functions ++ String.join closures ++ listingLine 0 "entry \x7b" ++
    program.entry.listing 1 ++ listingLine 0 "\x7d"

end Program

end SmallMl
