import SmallMl.Calls.Walk
import SmallMl.Code.Listing

/-!
# Counts and records of a classification

What a classification reports: how many calls of each kind it has found, and a log of its steps.
-/

namespace SmallMl

/-- How many calls of each kind a program makes, and how many of its functions are recursive. -/
structure CallCensus where
  known : Nat
  closure : Nat
  external : Nat
  recursiveFunctions : Nat
  deriving DecidableEq, Repr

namespace CallCensus

/-- The census of some calls and functions. -/
def ofCalls (calls : List CallSite) (functions : List Function) : CallCensus where
  known := calls.countP fun site => site.call.kind = .known
  closure := calls.countP fun site => site.call.kind = .closure
  external := calls.countP fun site => site.call.kind = .external
  recursiveFunctions := functions.countP fun function => function.isRecursive

end CallCensus

/-- How much detail a record adds. -/
inductive LogLevel where
  | info | debug | trace
  deriving DecidableEq, Repr

/-- The name of a level in a log. -/
def LogLevel.name : LogLevel → String
  | info => "INFO"
  | debug => "DEBUG"
  | trace => "TRACE"

/-- A step of a classification. -/
inductive LogRecord where
  /-- The body of the function stored under the name comes next. -/
  | function (key : Name)
  /-- A call has been given its kind. -/
  | call (site : CallSite)
  /-- The function stored under the name has been found to call itself. -/
  | recursive (key : Name)
  /-- The entry block comes next. -/
  | entry
  /-- All calls have their kinds. -/
  | census (census : CallCensus)
  /-- The program after the classification. -/
  | program (program : Program)
  deriving DecidableEq, Repr

namespace LogRecord

/-- The level of a record. -/
def level : LogRecord → LogLevel
  | function _ => .debug
  | call _ => .trace
  | recursive _ => .debug
  | entry => .debug
  | census _ => .info
  | program _ => .trace

/-- The text of a record. -/
def text : LogRecord → String
  | function key => "Classifying calls in function: " ++ key
  | call site => site.ident ++ " = " ++ site.call.kind.word ++ " " ++ site.call.callee
  | recursive key => "Function '" ++ key ++ "' is recursive"
  | entry => "Classifying calls in entry block"
  | census counts =>
      "Classified calls: " ++ toString counts.known ++ " known, " ++ toString counts.closure ++
        " closure, " ++ toString counts.external ++ " external; " ++
        toString counts.recursiveFunctions ++ " recursive functions"
  | program result => "MIR after call classification:\n" ++ result.text

end LogRecord

end SmallMl
