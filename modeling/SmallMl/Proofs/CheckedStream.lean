import SmallMl.Proofs.CheckedReaders
import SmallMl.Proofs.Exhaustion
import SmallMl.Proofs.Refusals

/-!
# Streams with checks

The stream of a source told with every step that may fail: a difference of lengths, an index into the
table of lines, and the steps of the readers. The stream keeps the whole text and the part that is
left, and tells from the lengths of both where it stands. Main statement: however often it is called,
no step fails, the part that is left is a slice of the whole, and the answers are those of the token
stream.
-/

namespace SmallMl

/-! ## Positions -/

namespace LineTable

/-- Looks for an offset among the starts of lines from index `low` up to `high`: the index where it
stands, or else, as an error, the one where it would have its place. -/
def search (starts : Array Nat) (offset low high : Nat) : Except Nat Nat :=
  if low < high then
    let middle := (low + high) / 2
    if starts.getD middle 0 = offset then .ok middle
    else if starts.getD middle 0 < offset then search starts offset (middle + 1) high
    else search starts offset low middle
  else .error low
termination_by high - low

/-- The index of the line that an offset belongs to. An offset at which no line starts belongs to the
line before its place, so that there has to be one. -/
def lineIndex? (table : LineTable) (offset : Nat) : Option Nat :=
  match search table.starts offset 0 table.starts.size with
  | .ok index => some index
  | .error place => difference? place 1

/-- The position of a byte offset. -/
def position? (table : LineTable) (offset : Nat) : Option Position := do
  let index ← table.lineIndex? offset
  let start ← table.starts[index]?
  return ⟨index + 1, (← difference? offset start) + 1⟩

/-- The span between two byte offsets. -/
def span? (table : LineTable) (first beyond : Nat) : Option Span := do
  return ⟨← table.position? first, ← table.position? beyond⟩

/-- What a search knows at the ends of its range holds at the place it finds. -/
theorem search_spec (starts : Array Nat) (offset low high : Nat) (range : low ≤ high)
    (known : high ≤ starts.size) (before : low = 0 ∨ starts.getD (low - 1) 0 < offset)
    (behind : high = starts.size ∨ offset < starts.getD high 0) :
    match search starts offset low high with
    | .ok index => index < starts.size ∧ starts.getD index 0 = offset
    | .error place => place ≤ starts.size ∧ (place = 0 ∨ starts.getD (place - 1) 0 < offset) ∧
        (place = starts.size ∨ offset < starts.getD place 0) := by
  fun_induction search starts offset low high with
  | case1 low high inside middle here =>
      have halved : middle < high := by omega
      exact ⟨by omega, here⟩
  | case2 low high inside middle other small ih =>
      have halved : low ≤ middle ∧ middle < high := by omega
      exact ih (by omega) known (Or.inr small) behind
  | case3 low high inside middle other large ih =>
      have halved : low ≤ middle ∧ middle < high := by omega
      exact ih halved.1 (by omega) before (Or.inr (by omega))
  | case4 low high outside =>
      have ends : low = high := by omega
      subst ends
      exact ⟨known, before, behind⟩

/-- The first line starts at zero, so that no offset has its place before it. -/
theorem search_ne_zero (table : LineTable) (offset : Nat) :
    search table.starts offset 0 table.starts.size ≠ .error 0 := by
  intro first
  have found := search_spec table.starts offset 0 table.starts.size (Nat.zero_le _) (Nat.le_refl _)
    (Or.inl rfl) (Or.inl rfl)
  obtain ⟨inside, zero⟩ := Array.getElem?_eq_some_iff.mp table.first_start
  have start : table.starts.getD 0 0 = 0 := by
    rw [Array.getD_eq_getD_getElem?, table.first_start, Option.getD_some]
  simp only [first, start] at found
  omega

/-- Each line starts behind the start of the line before it. -/
theorem getD_starts_lt {text : List Char} {index : Nat}
    (next : index + 1 < (ofText text).starts.size) :
    (ofText text).starts.getD index 0 < (ofText text).starts.getD (index + 1) 0 := by
  have later : index + 1 < (startsOf text).length := next
  have known : index < (startsOf text).length := Nat.lt_of_succ_lt next
  have increasing := List.pairwise_iff_getElem.mp (sorted_startsOf text) index (index + 1) known
    later (Nat.lt_succ_self index)
  rw [getD_starts_ofText, getD_starts_ofText, List.getD_eq_getElem?_getD,
    List.getElem?_eq_getElem known, List.getD_eq_getElem?_getD, List.getElem?_eq_getElem later]
  exact increasing

/-- An offset belongs to the line that starts at it or before it and whose next line starts beyond
it. -/
theorem linesUpTo_eq {text : List Char} {offset index : Nat}
    (known : index < (ofText text).starts.size)
    (before : (ofText text).starts.getD index 0 ≤ offset)
    (behind : index + 1 = (ofText text).starts.size ∨
      offset < (ofText text).starts.getD (index + 1) 0) :
    (ofText text).linesUpTo offset = index + 1 := by
  rw [getD_starts_ofText] at before behind
  rw [linesUpTo_ofText]
  exact countP_eq_of_sorted (sorted_startsOf text) known (Or.inr before) behind

theorem lineIndex?_ofText (text : List Char) (offset : Nat) : ∃ index,
    (ofText text).lineIndex? offset = some index ∧ (ofText text).linesUpTo offset = index + 1 := by
  have found := search_spec (ofText text).starts offset 0 (ofText text).starts.size
    (Nat.zero_le _) (Nat.le_refl _) (Or.inl rfl) (Or.inl rfl)
  rw [lineIndex?]
  cases result : search (ofText text).starts offset 0 (ofText text).starts.size with
  | ok index =>
      rw [result] at found
      obtain ⟨known, here⟩ := found
      refine ⟨index, rfl, linesUpTo_eq known (Nat.le_of_eq here) ?_⟩
      rcases Nat.lt_or_ge (index + 1) (ofText text).starts.size with next | last
      · exact Or.inr (here ▸ getD_starts_lt next)
      · exact Or.inl (Nat.le_antisymm known last)
  | error place =>
      rw [result] at found
      obtain ⟨known, before, behind⟩ := found
      have positive : place ≠ 0 := by
        rintro rfl
        exact search_ne_zero (ofText text) offset result
      obtain ⟨index, rfl⟩ := Nat.exists_eq_succ_of_ne_zero positive
      have below := before.resolve_left (Nat.succ_ne_zero index)
      exact ⟨index, rfl, linesUpTo_eq known (Nat.le_of_lt below) behind⟩

/-- No step fails on the way to a position. -/
theorem position?_ofText (text : List Char) (offset : Nat) :
    (ofText text).position? offset = some ((ofText text).position offset) := by
  obtain ⟨index, found, lines⟩ := lineIndex?_ofText text offset
  obtain ⟨-, known, before⟩ := linesUpTo_spec (ofText text) offset
  rw [lines] at known before
  have left : difference? offset ((ofText text).start (index + 1)) =
      some (offset - (ofText text).start (index + 1)) :=
    if_pos before
  rw [position?, position, lines]
  simp only [found, Option.bind_eq_bind, Option.bind_some, getElem?_starts _ known, left]
  rfl

theorem span?_ofText (text : List Char) (first beyond : Nat) :
    (ofText text).span? first beyond = some ((ofText text).span first beyond) := by
  simp only [span?, position?_ofText, Option.bind_eq_bind, Option.bind_some]
  rfl

end LineTable

/-! ## Streams -/

/-- A source that is read with checks: all of its text and the part that is left, its lines, and
whether an error has ended the reading. -/
structure CheckedStream where
  input : List Char
  remaining : List Char
  lines : LineTable
  failed : Bool

namespace CheckedStream

/-- The stream at the front of a source. -/
def ofSource (source : String) : CheckedStream where
  input := source.toList
  remaining := source.toList
  lines := LineTable.ofText source.toList
  failed := false

/-- The byte offset at which a part of the text starts that goes on to its end. -/
def offsetOf? (stream : CheckedStream) (rest : List Char) : Option Nat :=
  difference? (byteLength stream.input) (byteLength rest)

/-- The error for the text that is left. -/
def refusal? (stream : CheckedStream) : Option LexicalError := do
  let start ← stream.offsetOf? stream.remaining
  if ['(', '*'] <+: stream.remaining then
    return .unterminatedComment (← stream.lines.span? start (start + 2))
  else if ['"'] <+: stream.remaining then
    return .unterminatedString (← stream.lines.span? start (start + 1))
  else
    let found := stream.remaining.head?.getD (Char.ofNat 0)
    return .invalidToken found (← stream.lines.span? start (start + found.utf8Size))

/-- The stream behind the blanks at its front. -/
def skipBlanks (stream : CheckedStream) : CheckedStream :=
  { stream with remaining := stream.remaining.dropWhile isBlank }

/-- The next item from a place where no blank stands. -/
def nextHere? (stream : CheckedStream) : Option (Option Item × CheckedStream) :=
  if stream.remaining = [] then some (none, stream)
  else do
    let start ← stream.offsetOf? stream.remaining
    match ← Token.parse? stream.remaining with
    | .token token rest =>
        let span ← stream.lines.span? start (← stream.offsetOf? rest)
        return (some (.token ⟨token, span⟩), { stream with remaining := rest })
    | _ => return (some (.error (← stream.refusal?)), { stream with failed := true })

/-- The next item, if there is one, and the stream behind it. -/
def next? (stream : CheckedStream) : Option (Option Item × CheckedStream) :=
  if stream.failed then some (none, stream) else stream.skipBlanks.nextHere?

/-- What the given number of calls for the next item yield, and the stream behind them. -/
def nextTimes? (stream : CheckedStream) : Nat → Option (List (Option Item) × CheckedStream)
  | 0 => some ([], stream)
  | count + 1 => do
      let (answer, after) ← stream.next?
      let (answers, last) ← after.nextTimes? count
      return (answer :: answers, last)

end CheckedStream

namespace TokenStream

/-- The stream with checks that stands where a stream of the source stands. -/
def checked (stream : TokenStream) (source : String) : CheckedStream where
  input := source.toList
  remaining := stream.rest
  lines := stream.lines
  failed := stream.failed

variable {stream : TokenStream} {source : String} {passed : List Char}

theorem Reads.offsetOf? (reads : stream.Reads source passed) (front : List Char) {rest : List Char}
    (splits : front ++ rest = stream.rest) :
    (stream.checked source).offsetOf? rest = some (stream.offset + byteLength front) := by
  rw [CheckedStream.offsetOf?, difference?_eq_some_iff]
  have whole : source.toList = passed ++ (front ++ rest) := by rw [splits, reads.whole]
  simp only [checked, whole, byteLength_append, reads.offset]
  omega

theorem comment_front_iff {c : Char} {behind : List Char} :
    ['(', '*'] <+: c :: behind ↔ c = '(' ∧ behind.head? = some '*' := by
  rw [List.cons_prefix_cons, eq_comm, and_congr_right_iff]
  rintro rfl
  cases behind <;> simp [eq_comm]

theorem quote_front_iff {c : Char} {behind : List Char} : ['"'] <+: c :: behind ↔ c = '"' := by
  simp [List.cons_prefix_cons, eq_comm]

theorem Reads.span? (reads : stream.Reads source passed) (first beyond : Nat) :
    (stream.checked source).lines.span? first beyond = some (stream.lines.span first beyond) := by
  rw [checked, reads.lines, LineTable.span?_ofText]

/-- The error of a stream with checks is that of the stream without them. -/
theorem Reads.refusal? {c : Char} {behind : List Char} (reads : stream.Reads source passed)
    (front : stream.rest = c :: behind) :
    (stream.checked source).refusal? = some (stream.refusal c behind) := by
  have start : (stream.checked source).offsetOf? (c :: behind) = some stream.offset :=
    reads.offsetOf? [] front.symm
  have same : (stream.checked source).remaining = c :: behind := front
  rw [CheckedStream.refusal?, same]
  simp only [start, reads.span?, comment_front_iff, quote_front_iff, Option.bind_eq_bind,
    Option.bind_some, refusal]
  by_cases quote : c = '"'
  · subst quote
    rfl
  · by_cases comment : c = '(' ∧ behind.head? = some '*'
    · rw [if_pos comment, if_neg quote, if_pos comment]
      rfl
    · rw [if_neg comment, if_neg quote, if_neg quote, if_neg comment]
      rfl

theorem next?_of_running (running : stream.failed = false) :
    (stream.checked source).next? = (stream.skipBlanks.checked source).nextHere? :=
  if_neg (by rw [checked, running]; exact Bool.false_ne_true)

/-- A call with checks does not fail, and answers as the call without them does. -/
theorem Reads.next? (reads : stream.Reads source passed) :
    (stream.checked source).next? = some (stream.next.1, stream.next.2.checked source) := by
  have way := stream.answers_next
  have here := reads.skipBlanks
  have start : (stream.skipBlanks.checked source).offsetOf?
      (stream.skipBlanks.checked source).remaining = some stream.skipBlanks.offset :=
    here.offsetOf? [] rfl
  generalize stream.next = answer at way ⊢
  cases way with
  | failed failed => exact if_pos failed
  | ended running nothing =>
      rw [next?_of_running running]
      exact if_pos nothing
  | @token token lexeme rest running read =>
      obtain ⟨nonempty, whole⟩ := splits_of_read read
      have more : (stream.skipBlanks.checked source).remaining ≠ [] := by
        rw [checked, ← whole]
        simp [nonempty]
      have parsed : Token.parse? (stream.skipBlanks.checked source).remaining =
          some (.token token rest) := by
        rw [Token.parse?_eq, checked, read, Reading.parse]
      have beyond := here.offsetOf? lexeme whole
      rw [next?_of_running running, CheckedStream.nextHere?, if_neg more]
      simp only [start, parsed, beyond, here.span?, Option.bind_eq_bind, Option.bind_some]
      rfl
  | @error c behind running front unread =>
      have more : (stream.skipBlanks.checked source).remaining ≠ [] := by
        rw [checked, front]
        exact List.cons_ne_nil _ _
      have parsed : Token.parse? (stream.skipBlanks.checked source).remaining =
          some (Token.read (c :: behind)).parse := by
        rw [Token.parse?_eq, checked, front]
      have refused := here.refusal? front
      rw [next?_of_running running, CheckedStream.nextHere?, if_neg more]
      cases read : Token.read (c :: behind) with
      | token token lexeme rest => exact absurd read (unread token lexeme rest)
      | absent | broken =>
          rw [read] at parsed
          simp only [start, parsed, refused, Reading.parse, Option.bind_eq_bind, Option.bind_some]
          rfl

/-- Calls with checks do not fail, and answer as the calls without them do. -/
theorem Reads.nextTimes? (reads : stream.Reads source passed) (count : Nat) :
    ∃ (last : TokenStream) (further : List Char), last.Reads source further ∧
      (stream.checked source).nextTimes? count =
        some (stream.nextTimes count, last.checked source) := by
  induction count generalizing stream passed with
  | zero => exact ⟨stream, passed, reads, rfl⟩
  | succ count ih =>
      obtain ⟨further, later⟩ := reads.next
      obtain ⟨last, passed, stands, answers⟩ := ih later
      refine ⟨last, passed, stands, ?_⟩
      simp only [CheckedStream.nextTimes?, reads.next?, answers, Option.bind_eq_bind,
        Option.bind_some]
      rfl

end TokenStream

/-- However often the stream of a source is called, no slice is taken where no character ends, no
number from a smaller one, and no entry from outside the table of lines; the answers are those that
are given without checks. Behind the calls, what is left is the text from some byte offset on, and the
search for a line never ends before the first one. -/
theorem checked_calls_never_fail (source : String) (count : Nat) :
    ∃ last : CheckedStream,
      (CheckedStream.ofSource source).nextTimes? count =
          some ((TokenStream.ofSource source).nextTimes count, last) ∧
        last.input = source.toList ∧
        (∃ offset, last.offsetOf? last.remaining = some offset ∧
          behindBytes? offset last.input = some last.remaining) ∧
        ∀ offset, LineTable.search last.lines.starts offset 0 last.lines.starts.size ≠ .error 0 := by
  obtain ⟨last, passed, reads, answers⟩ := (TokenStream.reads_ofSource source).nextTimes? count
  have start : (last.checked source).offsetOf? last.rest = some (byteLength passed) := by
    rw [← reads.offset]
    exact reads.offsetOf? [] rfl
  exact ⟨last.checked source, answers, rfl,
    ⟨_, start, behindBytes?_eq_some_iff.mpr ⟨passed, reads.whole, rfl⟩⟩,
    LineTable.search_ne_zero last.lines⟩

end SmallMl
