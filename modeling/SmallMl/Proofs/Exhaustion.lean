import SmallMl.Proofs.Pieces
import SmallMl.Stream.Tokens

/-!
# Streams come to an end

A stream can be asked for the next item any number of times. It answers with tokens first, each of
which leaves less of the text, and then perhaps with one error; from there on it has nothing to
yield. Main statement: the answers to any number of calls, how many items there are among them, and
what `tokenize` makes of them.
-/

namespace SmallMl

/-- Some tokens, and behind them the error, if there is one. -/
def Item.run (tokens : List LocatedToken) (failure : Option LexicalError) : List Item :=
  tokens.map .token ++ failure.toList.map .error

namespace Item

@[simp]
theorem run_cons (located : LocatedToken) (tokens : List LocatedToken)
    (failure : Option LexicalError) :
    run (located :: tokens) failure = .token located :: run tokens failure := rfl

theorem error_mem_run_iff {tokens : List LocatedToken} {failure : Option LexicalError}
    {e : LexicalError} : .error e ∈ run tokens failure ↔ failure = some e := by
  simp [run]

theorem tokens_run_error (tokens : List LocatedToken) (e : LexicalError) :
    Item.tokens (run tokens (some e)) = .error e := by
  induction tokens with
  | nil => rfl
  | cons located tokens ih => rw [run_cons, Item.tokens, ih]

theorem tokens_run_none (tokens : List LocatedToken) :
    Item.tokens (run tokens none) =
      .ok (tokens.filter fun located => !located.token.isComment) := by
  induction tokens with
  | nil => rfl
  | cons located tokens ih =>
      rw [run_cons, Item.tokens, ih, List.filter_cons]
      cases located.token.isComment <;> rfl

end Item

namespace TokenStream

/-! ## One call -/

/-- The ways in which a stream answers a call for the next item. -/
inductive Answers (stream : TokenStream) : Option Item × TokenStream → Prop where
  | failed (failed : stream.failed = true) : stream.Answers (none, stream)
  | ended (running : stream.failed = false) (nothing : stream.skipBlanks.rest = []) :
      stream.Answers (none, stream.skipBlanks)
  | token {token : Token} {lexeme rest : List Char} (running : stream.failed = false)
      (reads : Token.read stream.skipBlanks.rest = .token token lexeme rest) :
      stream.Answers (some (.token ⟨token, stream.skipBlanks.spanOf lexeme⟩),
        stream.skipBlanks.advance lexeme rest)
  | error {c : Char} {behind : List Char} (running : stream.failed = false)
      (front : stream.skipBlanks.rest = c :: behind)
      (unread : ∀ token lexeme rest, Token.read (c :: behind) ≠ .token token lexeme rest) :
      stream.Answers (some (.error (stream.skipBlanks.refusal c behind)), stream.skipBlanks.fail)

theorem answers_next (stream : TokenStream) : stream.Answers stream.next := by
  cases failed : stream.failed with
  | true =>
      rw [next_of_failed failed]
      exact .failed failed
  | false =>
      rw [next_of_running failed, nextHere]
      split
      · next nothing => exact .ended failed nothing
      · next c behind front =>
          split
          · next reads => exact .token failed (front ▸ reads)
          · next unread => exact .error failed front unread

variable {stream after : TokenStream}

/-- A token takes characters off the front of the text. -/
theorem shorter_of_next_token {located : LocatedToken}
    (yields : stream.next = (some (.token located), after)) :
    ∃ front, front ≠ [] ∧ front ++ after.rest = stream.rest := by
  have way := stream.answers_next
  rw [yields] at way
  cases way with
  | @token token lexeme rest running reads =>
      obtain ⟨nonempty, whole⟩ := splits_of_read reads
      refine ⟨stream.rest.takeWhile isBlank ++ lexeme, by simp [nonempty], ?_⟩
      rw [List.append_assoc]
      exact (congrArg _ whole).trans (List.takeWhile_append_dropWhile ..)

/-- An error stands at a character, and ends the stream. -/
theorem failed_of_next_error {e : LexicalError}
    (yields : stream.next = (some (.error e), after)) :
    stream.rest ≠ [] ∧ after.failed = true := by
  have way := stream.answers_next
  rw [yields] at way
  cases way with
  | error running front unread =>
      refine ⟨?_, rfl⟩
      intro nothing
      rw [skipBlanks, nothing] at front
      exact absurd front (by simp)

/-- Where a stream has nothing to yield, it has nothing to yield later. -/
theorem next_again_of_none (ends : stream.next = (none, after)) : after.next = (none, after) := by
  have way := stream.answers_next
  rw [ends] at way
  cases way with
  | failed failed => exact next_of_failed failed
  | ended running nothing =>
      have solid : ∀ c ∈ stream.skipBlanks.rest.head?, isBlank c = false := by simp [nothing]
      have still : stream.skipBlanks.failed = false := running
      rw [next_of_solid still solid, nextHere]
      split
      · rfl
      · next front => exact absurd (nothing.symm.trans front) (by simp)

/-! ## All calls -/

/-- The items of a stream are tokens, and then an error or nothing; there are no more of them than
bytes of its text. -/
theorem exists_items_eq_run (stream : TokenStream) : ∃ tokens failure,
    stream.items = Item.run tokens failure ∧ stream.items.length ≤ byteLength stream.rest := by
  generalize size : byteLength stream.rest = bytes
  induction bytes using Nat.strongRecOn generalizing stream with
  | ind bytes ih =>
      cases yields : stream.next with
      | mk answer after =>
          cases answer with
          | none =>
              rw [items_of_next_none yields]
              exact ⟨[], none, rfl, Nat.zero_le _⟩
          | some item =>
              rw [items_of_next_some yields]
              cases item with
              | token located =>
                  obtain ⟨front, nonempty, whole⟩ := shorter_of_next_token yields
                  have positive := byteLength_pos nonempty
                  rw [← whole, byteLength_append] at size
                  obtain ⟨tokens, failure, same, few⟩ :=
                    ih (byteLength after.rest) (by omega) after rfl
                  refine ⟨located :: tokens, failure, by rw [same, Item.run_cons], ?_⟩
                  rw [List.length_cons]
                  omega
              | error e =>
                  obtain ⟨more, failed⟩ := failed_of_next_error yields
                  have positive := byteLength_pos more
                  rw [items_of_failed failed]
                  exact ⟨[], some e, rfl, by rw [List.length_singleton]; omega⟩

/-- Each call answers with the item that has its number, while there are items left. -/
theorem nextTimes_eq (stream : TokenStream) (count : Nat) :
    stream.nextTimes count = (List.range count).map fun call => stream.items[call]? := by
  induction count generalizing stream with
  | zero => rfl
  | succ count ih =>
      rw [nextTimes, ih, List.range_succ_eq_map, List.map_cons, List.map_map]
      cases yields : stream.next with
      | mk answer after =>
          cases answer with
          | none =>
              have ends := items_of_next_none yields
              have again := items_of_next_none (next_again_of_none yields)
              rw [ends, again]
              rfl
          | some item => simp [items_of_next_some yields]

theorem error_mem_nextTimes_iff {e : LexicalError} :
    (∃ count, some (.error e) ∈ stream.nextTimes count) ↔ .error e ∈ stream.items := by
  simp only [nextTimes_eq, List.mem_map, List.mem_range]
  constructor
  · rintro ⟨count, call, -, found⟩
    exact List.mem_of_getElem? found
  · intro member
    obtain ⟨call, found⟩ := List.getElem?_of_mem member
    exact ⟨call + 1, call, Nat.lt_succ_self call, found⟩

/-- However often it is called, the stream of a source answers with tokens, then with at most one
error, and then with nothing any more; there are no more items than bytes. Each token takes some
characters off the front of the text that is left. And `tokenize` fails exactly with an error that is
among the answers, and otherwise returns the tokens among them that are no comments. -/
theorem answers_come_to_an_end (source : String) :
    ∃ (tokens : List LocatedToken) (failure : Option LexicalError),
      (∀ count, (ofSource source).nextTimes count =
        (List.range count).map fun call => (Item.run tokens failure)[call]?) ∧
      tokens.length + failure.toList.length ≤ source.utf8ByteSize ∧
      (∀ (stream after : TokenStream) located, stream.next = (some (.token located), after) →
        ∃ front, front ≠ [] ∧ front ++ after.rest = stream.rest) ∧
      (∀ e, tokenize source = .error e ↔
        ∃ count, some (.error e) ∈ (ofSource source).nextTimes count) ∧
      ∀ kept, tokenize source = .ok kept ↔
        failure = none ∧ kept = tokens.filter fun located => !located.token.isComment := by
  obtain ⟨tokens, failure, same, few⟩ := exists_items_eq_run (ofSource source)
  refine ⟨tokens, failure, ?_, ?_, ?_, ?_, ?_⟩
  · intro count
    rw [nextTimes_eq, same]
  · rw [same, Item.run, List.length_append, List.length_map, List.length_map] at few
    rw [utf8ByteSize_eq]
    exact few
  · intro stream after located yields
    exact shorter_of_next_token yields
  · intro e
    rw [error_mem_nextTimes_iff, same, Item.error_mem_run_iff, tokenize, same]
    cases failure with
    | none => simp [Item.tokens_run_none]
    | some other => simp [Item.tokens_run_error]
  · intro kept
    rw [tokenize, same]
    cases failure with
    | none => simp [Item.tokens_run_none, eq_comm]
    | some other => simp [Item.tokens_run_error]

/-- A name, a comment, and a character that starts no token, with a name behind it. -/
def spoiledSource : String := "a(**) #b"

/-- Nothing is read behind the error. -/
example : (ofSource spoiledSource).nextTimes 5 =
    [some (.token ⟨.ident "a", ⟨⟨1, 1⟩, ⟨1, 2⟩⟩⟩), some (.token ⟨.comment "", ⟨⟨1, 2⟩, ⟨1, 6⟩⟩⟩),
      some (.error (.invalidToken '#' ⟨⟨1, 7⟩, ⟨1, 8⟩⟩)), none, none] := by
  decide +kernel

theorem answers_in_spoiledSource_come_to_an_end :
    let stream := ofSource spoiledSource
    let name := LocatedToken.mk (.ident "a") ⟨⟨1, 1⟩, ⟨1, 2⟩⟩
    let e := LexicalError.invalidToken '#' ⟨⟨1, 7⟩, ⟨1, 8⟩⟩
    stream.next = (some (.token name), stream.next.2) ∧
      (∃ front, front ≠ [] ∧ front ++ stream.next.2.rest = stream.rest) ∧
      (∃ count, some (.error e) ∈ stream.nextTimes count) ∧ tokenize spoiledSource = .error e := by
  intro stream name e
  obtain ⟨-, -, -, -, shorter, fails, -⟩ := answers_come_to_an_end spoiledSource
  have yields : stream.next = (some (.token name), stream.next.2) := by decide +kernel
  have among : ∃ count, some (.error e) ∈ stream.nextTimes count := ⟨3, by decide +kernel⟩
  exact ⟨yields, shorter _ _ _ yields, among, (fails e).mpr among⟩

end TokenStream

end SmallMl
