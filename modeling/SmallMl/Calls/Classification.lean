import SmallMl.Calls.Convention
import SmallMl.Calls.Log

/-!
# Classification of calls

The classification gives each call of a program its kind and marks the functions that call
themselves. It goes through the functions in the order of their table and then through the entry
block. A function literal must not occur in any block; the first one ends the classification, which
keeps what has been done so far.
-/

namespace SmallMl

/-- A function literal that stands in a block, in the body of the function stored under a name or,
without one, in the entry block. -/
structure LeftoverLiteral where
  ident : Name
  owner : Option Name
  span : Span
  deriving DecidableEq, Repr

/-- The walk over the body of a function stored under a name. -/
structure Visit where
  key : Name
  function : Function
  walk : Walk
  deriving DecidableEq, Repr

namespace Visit

/-- Whether a call of the function itself has been reached, of whatever kind. -/
def callsItself (visit : Visit) : Bool :=
  visit.walk.calls.any fun site => site.call.callee = visit.key

/-- The function after the visit. -/
def result (visit : Visit) : Function :=
  { visit.function with
    body := visit.walk.block
    isRecursive := visit.function.isRecursive || visit.callsItself }

/-- The records of the visit. That the function is recursive is told only where it was not known. -/
def log (visit : Visit) : List LogRecord :=
  let discovery :=
    if visit.callsItself && !visit.function.isRecursive then [LogRecord.recursive visit.key] else []
  .function visit.key :: (visit.walk.calls.map .call ++ discovery)

/-- The literal that stopped the walk. -/
def leftover? (visit : Visit) : Option LeftoverLiteral :=
  visit.walk.stop.map fun site => ⟨site.ident, some visit.key, site.span⟩

end Visit

/-- What a classification leaves: the program, the log, and the census or the literal that ended
it. -/
structure Classification where
  program : Program
  log : List LogRecord
  outcome : Except LeftoverLiteral CallCensus

namespace Program

/-- The visit to a function stored under a name. -/
def visit (program : Program) (key : Name) (function : Function) : Visit where
  key := key
  function := function
  walk := function.body.walk program.classify

/-- The visits to some functions, up to and with the first that a literal stops. -/
def visitsTo (program : Program) : List (Name × Function) → List Visit
  | [] => []
  | (key, function) :: rest =>
      let visit := program.visit key function
      visit :: if visit.walk.stop.isSome then [] else program.visitsTo rest

/-- All visits that a classification makes. -/
def visits (program : Program) : List Visit :=
  program.visitsTo program.functions.entries

/-- The functions after their visits; those that are not visited stay as they are. -/
def visitedFunctions (program : Program) : Table Function :=
  program.functions.mapThrough
    (fun key function => (program.visit key function).walk.stop.isSome)
    (fun key function => (program.visit key function).result)

/-- Classifies the calls of a program. -/
def classifyCalls (program : Program) : Classification :=
  let functions := program.visitedFunctions
  let functionLog := program.visits.flatMap Visit.log
  match program.visits.findSome? Visit.leftover? with
  | some leftover => ⟨{ program with functions }, functionLog, .error leftover⟩
  | none =>
      let walk := program.entry.walk program.classify
      let classified := { program with functions, entry := walk.block }
      let log := functionLog ++ .entry :: walk.calls.map .call
      match walk.stop with
      | some site => ⟨classified, log, .error ⟨site.ident, none, site.span⟩⟩
      | none =>
          let calls := program.visits.flatMap (fun visit => visit.walk.calls) ++ walk.calls
          let census := CallCensus.ofCalls calls functions.values
          ⟨classified, log ++ [.census census, .program classified], .ok census⟩

end Program

end SmallMl
