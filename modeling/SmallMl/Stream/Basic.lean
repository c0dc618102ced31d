import SmallMl.Source.LineTable
import SmallMl.Stream.Error
import SmallMl.Token.Reader

/-!
# Token streams

A token stream yields the tokens of a source one by one, comments included, and ends at the first
error. Between tokens it passes over spaces, tabs, carriage returns and line feeds. Main statement:
each item leaves less to read, so the items of a source are a finite list.
-/

namespace SmallMl

/-- Whether the character may stand between tokens. -/
def isBlank (c : Char) : Bool :=
  c == ' ' || c == '\t' || c == '\r' || c == '\n'

/-- A source being read: its lines, the text that is left and the byte offset of that text, and
whether an error has ended the reading. -/
structure TokenStream where
  lines : LineTable
  offset : Nat
  rest : List Char
  failed : Bool
  deriving DecidableEq, Repr

/-- What a token stream yields. -/
inductive Item where
  | token (located : LocatedToken)
  | error (error : LexicalError)
  deriving DecidableEq, Repr

namespace TokenStream

/-- The stream at the front of a source. -/
def ofSource (source : String) : TokenStream where
  lines := LineTable.ofText source.toList
  offset := 0
  rest := source.toList
  failed := false

/-- The span of a text that starts where the stream stands. -/
def spanOf (stream : TokenStream) (text : List Char) : Span :=
  stream.lines.span stream.offset (stream.offset + byteLength text)

/-- The stream behind the blanks at its front. -/
def skipBlanks (stream : TokenStream) : TokenStream where
  lines := stream.lines
  offset := stream.offset + byteLength (stream.rest.takeWhile isBlank)
  rest := stream.rest.dropWhile isBlank
  failed := stream.failed

/-- The stream behind a lexeme at its front. -/
def advance (stream : TokenStream) (lexeme rest : List Char) : TokenStream where
  lines := stream.lines
  offset := stream.offset + byteLength lexeme
  rest := rest
  failed := stream.failed

/-- The stream after an error. -/
def fail (stream : TokenStream) : TokenStream where
  lines := stream.lines
  offset := stream.offset
  rest := stream.rest
  failed := true

/-- The error where no token starts, told from the first characters of the text. -/
def refusal (stream : TokenStream) (c : Char) (after : List Char) : LexicalError :=
  if c = '"' then .unterminatedString (stream.spanOf [c])
  else if c = '(' ∧ after.head? = some '*' then .unterminatedComment (stream.spanOf ['(', '*'])
  else .invalidToken c (stream.spanOf [c])

/-- The next item from a place where no blank stands. -/
def nextHere (stream : TokenStream) : Option Item × TokenStream :=
  match stream.rest with
  | [] => (none, stream)
  | c :: after =>
      match Token.read (c :: after) with
      | .token token lexeme rest =>
          (some (.token ⟨token, stream.spanOf lexeme⟩), stream.advance lexeme rest)
      | _ => (some (.error (stream.refusal c after)), stream.fail)

/-- The next item, if there is one, and the stream behind it. -/
def next (stream : TokenStream) : Option Item × TokenStream :=
  if stream.failed then (none, stream) else stream.skipBlanks.nextHere

theorem next_of_failed {stream : TokenStream} (failed : stream.failed = true) :
    stream.next = (none, stream) :=
  if_pos failed

theorem next_of_running {stream : TokenStream} (running : stream.failed = false) :
    stream.next = stream.skipBlanks.nextHere :=
  if_neg (by rw [running]; exact Bool.false_ne_true)

/-- A bound on the number of items that are left. -/
def remaining (stream : TokenStream) : Nat :=
  if stream.failed then 0 else stream.rest.length + 1

theorem remaining_next {stream after : TokenStream} {item : Item}
    (yields : stream.next = (some item, after)) : after.remaining < stream.remaining := by
  unfold next at yields
  split at yields
  · exact absurd yields (by simp)
  · next running =>
      have shorter : stream.skipBlanks.rest.length ≤ stream.rest.length :=
        (List.dropWhile_sublist _).length_le
      unfold nextHere at yields
      split at yields
      · exact absurd yields (by simp)
      · next c text front =>
          split at yields
          · next token lexeme rest read =>
              have splits := Token.read_splits (c :: text)
              rw [read] at splits
              obtain ⟨nonempty, whole⟩ := splits
              have lengths := congrArg List.length whole
              have positive := List.length_pos_iff.mpr nonempty
              cases yields
              rw [front] at shorter
              simp only [List.length_append, List.length_cons] at lengths shorter
              simp only [remaining, advance, skipBlanks, running]
              simp
              omega
          · cases yields
            simp_all [remaining, fail]

/-- Appends up to `bound` items of a stream to those in `done`, which holds the last one first. -/
def collect (stream : TokenStream) (done : List Item) : Nat → List Item
  | 0 => done.reverse
  | bound + 1 =>
      match stream.next with
      | (none, _) => done.reverse
      | (some item, after) => collect after (item :: done) bound

/-- All items of a stream. -/
def items (stream : TokenStream) : List Item :=
  stream.collect [] stream.remaining

theorem collect_append (stream : TokenStream) (done : List Item) (bound : Nat) :
    stream.collect done bound = done.reverse ++ stream.collect [] bound := by
  induction bound generalizing stream done with
  | zero => simp [collect]
  | succ bound ih =>
      cases yields : stream.next with
      | mk found after =>
          cases found with
          | none => simp [collect, yields]
          | some item => simp [collect, yields, ih after (item :: done), ih after [item]]

theorem items_of_next_none {stream after : TokenStream} (ends : stream.next = (none, after)) :
    stream.items = [] := by
  unfold items
  cases stream.remaining with
  | zero => rfl
  | succ bound => simp [collect, ends]

/-- Bounds that are large enough give the same items. -/
theorem collect_eq_collect {stream : TokenStream} {first second : Nat}
    (large : stream.remaining ≤ first) (enough : stream.remaining ≤ second) :
    stream.collect [] first = stream.collect [] second := by
  induction first generalizing stream second with
  | zero =>
      cases yields : stream.next with
      | mk found after =>
          cases found with
          | none => cases second <;> simp [collect, yields]
          | some item =>
              have := remaining_next yields
              omega
  | succ first ih =>
      cases yields : stream.next with
      | mk found after =>
          cases found with
          | none => cases second <;> simp [collect, yields]
          | some item =>
              have shorter := remaining_next yields
              obtain ⟨less, rfl⟩ : ∃ less, second = less + 1 := ⟨second - 1, by omega⟩
              simp only [collect, yields]
              rw [collect_append after [item] first, collect_append after [item] less]
              have fits : after.remaining ≤ first ∧ after.remaining ≤ less := by omega
              rw [ih fits.1 fits.2]

theorem items_of_next_some {stream after : TokenStream} {item : Item}
    (yields : stream.next = (some item, after)) : stream.items = item :: after.items := by
  have shorter := remaining_next yields
  obtain ⟨bound, full⟩ : ∃ bound, stream.remaining = bound + 1 :=
    ⟨stream.remaining - 1, by omega⟩
  have fits : after.remaining ≤ bound := by omega
  rw [items, full, collect]
  simp only [yields]
  rw [collect_append, collect_eq_collect fits (Nat.le_refl _)]
  rfl

/-- What the given number of calls for the next item yield, one after the other. -/
def nextTimes (stream : TokenStream) : Nat → List (Option Item)
  | 0 => []
  | count + 1 => stream.next.1 :: nextTimes stream.next.2 count

end TokenStream

end SmallMl
