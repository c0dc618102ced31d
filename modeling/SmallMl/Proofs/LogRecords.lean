import SmallMl.Proofs.Repetition

/-!
# What the log tells

A classification writes its log while it decides the kinds and marks the functions. Main statement:
the log can be told afterwards from the program before and the program that is left, up to the place
where the classification has ended; and a second classification writes the same log, without the
functions found to be recursive.
-/

namespace SmallMl

namespace LogRecord

/-- The level of a record and its text. -/
def line (record : LogRecord) : LogLevel × String :=
  (record.level, record.text)

/-- Whether the record tells that a function has been found to be recursive. -/
def isDiscovery : LogRecord → Bool
  | recursive _ => true
  | _ => false

/-- The records but for those that tell of a function found to be recursive. -/
def withoutDiscoveries (records : List LogRecord) : List LogRecord :=
  records.filter fun record => !record.isDiscovery

theorem withoutDiscoveries_append (first second : List LogRecord) :
    withoutDiscoveries (first ++ second) =
      withoutDiscoveries first ++ withoutDiscoveries second :=
  List.filter_append first second

theorem withoutDiscoveries_flatMap {α : Type} (list : List α) (tell : α → List LogRecord) :
    withoutDiscoveries (list.flatMap tell) =
      list.flatMap fun element => withoutDiscoveries (tell element) :=
  List.filter_flatMap

end LogRecord

namespace Block

/-- The calls of a block before its first literal, in order. -/
def callsInReach (block : Block) : List CallSite :=
  Station.callsAt (Station.beforeLiteral block.traversal)

/-- A walk reports the calls that it has reached as they stand in the block that it leaves. -/
theorem callsInReach_walk (change : Call → Call) (block : Block) :
    (block.walk change).block.callsInReach = (block.walk change).calls := by
  have reached : (Station.beforeLiteral block.traversal).mapIdx
      (fun place station => station.mapCall (changeBefore block.reach change place)) =
        (Station.beforeLiteral block.traversal).map (Station.mapCall change) := by
    apply List.ext_getElem
    · simp
    · intro place inside _
      have before : place < block.reach := by simpa [reach] using inside
      have changed : changeBefore block.reach change place = change := by
        funext call
        exact if_pos before
      simp [changed]
  rw [callsInReach, walk_block, traversal_mapCalls, Station.beforeLiteral_mapIdx, reached,
    Station.callsAt_map, walk_calls]

end Block

/-! ## Records told afterwards -/

/-- The records about calls. -/
def callRecords (block : Block) : List LogRecord :=
  block.callsInReach.map .call

/-- The records about a function, told from the function before a classification and after it. -/
def functionRecords (key : Name) (before after : Function) : List LogRecord :=
  .function key :: (callRecords after.body ++
    if !before.isRecursive && after.isRecursive then [.recursive key] else [])

theorem withoutDiscoveries_callRecords (block : Block) :
    LogRecord.withoutDiscoveries (callRecords block) = callRecords block := by
  apply List.filter_eq_self.mpr
  intro record member
  obtain ⟨site, _, rfl⟩ := List.mem_map.mp member
  rfl

/-- Without the discovery, the records are those about a function that was marked before. -/
theorem withoutDiscoveries_functionRecords (key : Name) (before after : Function) :
    LogRecord.withoutDiscoveries (functionRecords key before after) =
      functionRecords key after after := by
  have opening : LogRecord.withoutDiscoveries [.function key] = [.function key] := rfl
  have discovery : LogRecord.withoutDiscoveries
      (if !before.isRecursive && after.isRecursive then [.recursive key] else []) = [] := by
    split
    · rfl
    · rfl
  rw [functionRecords, ← List.singleton_append, LogRecord.withoutDiscoveries_append,
    LogRecord.withoutDiscoveries_append, opening, withoutDiscoveries_callRecords, discovery,
    functionRecords, Bool.not_and_self]
  rfl

/-! ## Records as text -/

/-- The lines about the calls of a block: what the result is bound to, the kind and the callee. -/
def callLines (block : Block) : List (LogLevel × String) :=
  block.callsInReach.map fun site =>
    (.trace, site.ident ++ " = " ++ site.call.kind.word ++ " " ++ site.call.callee)

/-- The lines about a function, told from the function before a classification and after it. -/
def functionLines (key : Name) (before after : Function) : List (LogLevel × String) :=
  (.debug, "Classifying calls in function: " ++ key) ::
    (callLines after.body ++
      if !before.isRecursive && after.isRecursive then
        [(.debug, "Function '" ++ key ++ "' is recursive")]
      else [])

/-- The line that sums a success up. -/
def summaryLine (census : CallCensus) : LogLevel × String :=
  (.info, "Classified calls: " ++ toString census.known ++ " known, " ++
    toString census.closure ++ " closure, " ++ toString census.external ++ " external; " ++
    toString census.recursiveFunctions ++ " recursive functions")

theorem line_callRecords (block : Block) :
    (callRecords block).map LogRecord.line = callLines block := by
  rw [callRecords, callLines, List.map_map]
  rfl

theorem line_functionRecords (key : Name) (before after : Function) :
    (functionRecords key before after).map LogRecord.line = functionLines key before after := by
  rw [functionRecords, functionLines, List.map_cons, List.map_append, line_callRecords]
  split
  · rfl
  · rfl

/-! ## The log of a classification -/

namespace Program

theorem log_visit (program : Program) (key : Name) (function : Function) :
    (program.visit key function).log =
      functionRecords key function (program.visit key function).result := by
  have calls : callRecords (program.visit key function).result.body =
      (program.visit key function).walk.calls.map .call :=
    congrArg _ (Block.callsInReach_walk program.classify function.body)
  have found : (!function.isRecursive && (program.visit key function).result.isRecursive) =
      ((program.visit key function).callsItself && !function.isRecursive) := by
    change (!function.isRecursive && (function.isRecursive || _)) = _
    rw [Bool.and_or_distrib_left, Bool.not_and_self, Bool.false_or, Bool.and_comm]
  rw [functionRecords, calls, found]
  rfl

/-- What the visits to some functions tell, up to and with the first that holds a literal. -/
theorem log_visitsTo (program : Program) (entries : List (Name × Function)) :
    (program.visitsTo entries).flatMap Visit.log =
      ((entries.zip (Table.changeThrough
          (fun key function => (program.visit key function).walk.stop.isSome)
          (fun key function => (program.visit key function).result) entries)).take
        (entries.findIdx (fun entry => entry.2.body.firstLiteral?.isSome) + 1)).flatMap
          fun (before, after) => functionRecords after.1 before.2 after.2 := by
  induction entries with
  | nil => rfl
  | cons entry rest ih =>
      obtain ⟨key, function⟩ := entry
      have stops : (program.visit key function).walk.stop = function.body.firstLiteral? :=
        Block.walk_stop program.classify function.body
      simp only [visitsTo, Table.changeThrough, List.zip_cons_cons, List.take_succ_cons,
        List.flatMap_cons, List.findIdx_cons, log_visit, stops]
      cases function.body.firstLiteral? with
      | some site => rfl
      | none => exact congrArg _ ih

theorem functions_classifyCalls (program : Program) :
    program.classifyCalls.program.functions = program.visitedFunctions := by
  rw [classifyCalls_program, visitedFunctions_eq]
  rfl

/-- A classification goes beyond the functions exactly when none of them holds a literal. -/
theorem functions_free_iff {program : Program} :
    (∀ function ∈ program.functions.values, function.body.LiteralFree) ↔
      program.stopBody = program.functions.entries.length := by
  rw [stopBody, List.findIdx_eq_length]
  simp only [Table.values, List.forall_mem_map, Block.literalFree_iff, Option.isSome_eq_false_iff,
    Option.isNone_iff_eq_none]

theorem unreported_functions_iff {program : Program} :
    program.visits.findSome? Visit.leftover? = none ↔
      ∀ function ∈ program.functions.values, function.body.LiteralFree := by
  rw [visits, leftover_visitsTo, List.findSome?_eq_none_iff]
  simp only [Table.values, List.forall_mem_map, Block.literalFree_iff, Option.map_eq_none_iff]

/-- The records about the functions that a classification reaches, told from a program and from
what the classification leaves of it. -/
def recordsOfFunctions (program left : Program) : List LogRecord :=
  ((program.functions.entries.zip left.functions.entries).take (program.stopBody + 1)).flatMap
    fun (before, after) => functionRecords after.1 before.2 after.2

/-- The records about the entry block, which a classification reaches when no function holds a
literal. -/
def recordsOfEntry (program left : Program) : List LogRecord :=
  if ∀ function ∈ program.functions.values, function.body.LiteralFree then
    .entry :: callRecords left.entry
  else []

/-- The records of a success. -/
def closingRecords (classification : Classification) : List LogRecord :=
  match classification.outcome with
  | .ok census => [.census census, .program classification.program]
  | .error _ => []

theorem classifyCalls_log (program : Program) :
    program.classifyCalls.log =
      recordsOfFunctions program program.classifyCalls.program ++
        (recordsOfEntry program program.classifyCalls.program ++
          closingRecords program.classifyCalls) := by
  have functions : program.visits.flatMap Visit.log =
      recordsOfFunctions program program.classifyCalls.program := by
    rw [recordsOfFunctions, functions_classifyCalls]
    exact log_visitsTo program program.functions.entries
  rw [← functions]
  cases early : program.visits.findSome? Visit.leftover? with
  | some leftover =>
      have held : ¬ ∀ function ∈ program.functions.values, function.body.LiteralFree := by
        rw [← unreported_functions_iff, early]
        exact Option.some_ne_none leftover
      rw [recordsOfEntry, if_neg held]
      simp only [classifyCalls, early, closingRecords, List.append_nil]
  | none =>
      have entry : callRecords (program.entry.walk program.classify).block =
          (program.entry.walk program.classify).calls.map .call :=
        congrArg _ (Block.callsInReach_walk program.classify program.entry)
      rw [recordsOfEntry, if_pos (unreported_functions_iff.mp early)]
      simp only [classifyCalls, early, closingRecords]
      cases (program.entry.walk program.classify).stop with
      | some site => simp only [entry, List.append_nil]
      | none => simp only [entry, List.append_assoc]

/-! ## The log of a second classification -/

theorem length_functions_classifyCalls (program : Program) :
    program.classifyCalls.program.functions.entries.length = program.functions.entries.length := by
  rw [functions_classifyCalls, visitedFunctions_eq, Table.mapEntries, List.length_mapIdx]

theorem stopBody_classifyCalls_program (program : Program) :
    program.classifyCalls.program.stopBody = program.stopBody :=
  congrArg Place.body (stop_classifyCalls_program program)

theorem recordsOfFunctions_self (program : Program) :
    recordsOfFunctions program program =
      (program.functions.entries.take (program.stopBody + 1)).flatMap
        fun entry => functionRecords entry.1 entry.2 entry.2 := by
  rw [recordsOfFunctions, List.zip_eq_zipWith, List.zipWith_self, ← List.map_take,
    List.flatMap_map]

theorem withoutDiscoveries_recordsOfFunctions {program left : Program}
    (short : left.functions.entries.length ≤ program.functions.entries.length) :
    LogRecord.withoutDiscoveries (recordsOfFunctions program left) =
      (left.functions.entries.take (program.stopBody + 1)).flatMap
        fun entry => functionRecords entry.1 entry.2 entry.2 := by
  have reached : left.functions.entries.take (program.stopBody + 1) =
      ((program.functions.entries.zip left.functions.entries).take (program.stopBody + 1)).map
        Prod.snd := by
    rw [List.map_take, List.map_snd_zip short]
  rw [reached, List.flatMap_map, recordsOfFunctions, LogRecord.withoutDiscoveries_flatMap]
  simp only [withoutDiscoveries_functionRecords]

theorem withoutDiscoveries_recordsOfEntry (program left : Program) :
    LogRecord.withoutDiscoveries (recordsOfEntry program left) = recordsOfEntry program left := by
  unfold recordsOfEntry
  split
  · exact congrArg _ (withoutDiscoveries_callRecords left.entry)
  · rfl

theorem withoutDiscoveries_closingRecords (classification : Classification) :
    LogRecord.withoutDiscoveries (closingRecords classification) =
      closingRecords classification := by
  unfold closingRecords
  split
  · rfl
  · rfl

theorem log_classifyCalls_program (program : Program) :
    program.classifyCalls.program.classifyCalls.log =
      LogRecord.withoutDiscoveries program.classifyCalls.log := by
  have again := program_classifyCalls_program program
  have functions := withoutDiscoveries_recordsOfFunctions
    (Nat.le_of_eq (length_functions_classifyCalls program))
  have entry : recordsOfEntry program.classifyCalls.program program.classifyCalls.program =
      recordsOfEntry program program.classifyCalls.program := by
    simp only [recordsOfEntry, functions_free_iff, stopBody_classifyCalls_program,
      length_functions_classifyCalls]
  have closing : closingRecords program.classifyCalls.program.classifyCalls =
      closingRecords program.classifyCalls := by
    rw [closingRecords, outcome_classifyCalls_program, again, closingRecords]
  rw [classifyCalls_log, classifyCalls_log program, again, recordsOfFunctions_self,
    stopBody_classifyCalls_program, entry, closing, LogRecord.withoutDiscoveries_append,
    LogRecord.withoutDiscoveries_append, functions, withoutDiscoveries_recordsOfEntry,
    withoutDiscoveries_closingRecords]

/-- The log names each function that a classification reaches, tells each call that it reaches there
with the kind that it has afterwards, and says where a function has come to be marked; then, unless
a function holds a literal, it tells the entry block in the same way; and after a success it ends
with the census and the program. A second classification logs the same without what has come to be
marked. -/
theorem log_tells_classification (program : Program) :
    let run := program.classifyCalls
    let reached := (program.functions.entries.zip run.program.functions.entries).take
      (program.stopBody + 1)
    run.log.map LogRecord.line =
        reached.flatMap (fun (before, after) => functionLines after.1 before.2 after.2) ++
          ((if ∀ function ∈ program.functions.values, function.body.LiteralFree then
              (.debug, "Classifying calls in entry block") :: callLines run.program.entry
            else []) ++
          match run.outcome with
          | .ok census =>
              [summaryLine census,
                (.trace, "MIR after call classification:\n" ++ run.program.text)]
          | .error _ => []) ∧
      run.program.classifyCalls.log = LogRecord.withoutDiscoveries run.log := by
  intro run reached
  refine ⟨?_, log_classifyCalls_program program⟩
  have functions : (recordsOfFunctions program run.program).map LogRecord.line =
      reached.flatMap fun (before, after) => functionLines after.1 before.2 after.2 := by
    rw [recordsOfFunctions, List.map_flatMap]
    simp only [line_functionRecords]
    rfl
  rw [classifyCalls_log, List.map_append, List.map_append, functions]
  congr 2
  · rw [recordsOfEntry, apply_ite (List.map LogRecord.line), List.map_cons, line_callRecords]
    rfl
  · rw [closingRecords]
    cases run.outcome with
    | ok census => rfl
    | error leftover => rfl

/-- A function that calls itself before a literal is told to be recursive, and nothing else
follows. -/
example :
    ((ofEntry (.apply "r" .generated ⟨"f", [], .unclassified⟩ .done)).insertFunction "f"
      { name := "g"
        parameters := []
        body :=
          .branch "b" .generated "x" (.apply "s" .generated ⟨"f", [], .external⟩ .done)
            (.literal "l" .generated [] .done .done)
            (.apply "t" .generated ⟨"f", [], .known⟩ .done) }).classifyCalls.log.map
              LogRecord.line =
      [(.debug, "Classifying calls in function: f"), (.trace, "s = app.x f"),
        (.debug, "Function 'f' is recursive")] := by
  decide +kernel

end Program

end SmallMl
