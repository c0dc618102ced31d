import SmallMl.Proofs.Lines
import SmallMl.Proofs.Lookahead
import SmallMl.Proofs.Pieces

/-!
# A line feed between two sources

No token reaches over a line feed that follows a source without errors. Main statement: the items of
two sources with a line feed between them are those of the first and then those of the second, as
many lines further down as the first source has.
-/

namespace SmallMl

open Piece (spelled)

/-- The span that many lines further down. -/
def Span.movedDown (lines : Nat) (span : Span) : Span where
  start := span.start.movedDown lines
  stop := span.stop.movedDown lines

/-- The error that many lines further down. -/
def LexicalError.movedDown (lines : Nat) : LexicalError → LexicalError
  | invalidToken found span => invalidToken found (span.movedDown lines)
  | unterminatedComment span => unterminatedComment (span.movedDown lines)
  | unterminatedString span => unterminatedString (span.movedDown lines)

/-- The item that many lines further down. -/
def Item.movedDown (lines : Nat) : Item → Item
  | token located => token ⟨located.token, located.span.movedDown lines⟩
  | error e => error (e.movedDown lines)

/-- Two texts with a line feed between them are cut as they are cut apart, if nothing is left of the
first. -/
theorem Cut.across_lineFeed {first second rest : List Char} {pieces more : List Piece}
    (front : Cut first pieces []) (back : Cut second more rest) :
    Cut (first ++ '\n' :: second) (pieces ++ .blank '\n' :: more) rest := by
  generalize nothing : [] = left at front
  induction front with
  | stop =>
      subst nothing
      exact .blank rfl back
  | blank blank _ ih => exact .blank blank (ih nothing)
  | @token text behind lexeme left token pieces reads _ ih =>
      have breaks : BreaksOff ('\n' :: second) := by
        intro c first
        cases first
        rfl
      have whole := (splits_of_read reads).2
      have ended : Token.read (lexeme ++ (behind ++ [])) = .token token lexeme (behind ++ []) := by
        rw [List.append_nil, whole]
        exact reads
      have goesOn := Token.read_cut ended breaks (Or.inr (by simp [BreaksOff]))
      rw [← List.append_assoc, whole] at goesOn
      exact .token goesOn (ih nothing)

section Moved

variable {one other : LineTable} {further lines : Nat}
  (moved : ∀ place, one.position (further + place) = (other.position place).movedDown lines)

include moved

theorem span_movedDown (first beyond : Nat) :
    one.span (further + first) (further + beyond) = (other.span first beyond).movedDown lines := by
  rw [LineTable.span, moved, moved]
  rfl

theorem located_movedDown (offset : Nat) (pieces : List Piece) :
    located one (further + offset) pieces =
      (located other offset pieces).map (Item.movedDown lines) := by
  induction pieces generalizing offset with
  | nil => rfl
  | cons piece pieces ih =>
      cases piece with
      | blank c => rw [located, located, Nat.add_assoc, ih]
      | token token lexeme =>
          rw [located, located, Nat.add_assoc, span_movedDown moved, ih]
          rfl

theorem ending_movedDown (offset : Nat) (rest : List Char) :
    ending one (further + offset) rest =
      (ending other offset rest).map (Item.movedDown lines) := by
  cases rest with
  | nil => rfl
  | cons c rest =>
      have spans : ∀ text, TokenStream.spanOf ⟨one, further + offset, c :: rest, false⟩ text =
          (TokenStream.spanOf ⟨other, offset, c :: rest, false⟩ text).movedDown lines := by
        intro text
        simp only [TokenStream.spanOf, Nat.add_assoc]
        exact span_movedDown moved offset (offset + byteLength text)
      simp only [ending, TokenStream.refusal, spans, List.map_cons, List.map_nil, Item.movedDown]
      split
      · rfl
      · split <;> rfl

end Moved

theorem eq_nil_of_no_error {lines : LineTable} {offset : Nat} {rest : List Char}
    (clean : ∀ e, Item.error e ∉ ending lines offset rest) : rest = [] := by
  cases rest with
  | nil => rfl
  | cons c rest => exact absurd (List.mem_singleton_self _) (clean _)

/-- The items of two sources with a line feed between them, the first of which has no error: those
of the first as they are, and those of the second further down. -/
theorem items_across_lineFeed (first second : String)
    (clean : ∀ e, Item.error e ∉ (TokenStream.ofSource first).items) :
    (TokenStream.ofSource (first ++ "\n" ++ second)).items =
      (TokenStream.ofSource first).items ++
        (TokenStream.ofSource second).items.map
          (Item.movedDown (first.toList.count '\n' + 1)) := by
  obtain ⟨pieces, left, front⟩ := exists_cut first.toList
  obtain ⟨more, rest, back⟩ := exists_cut second.toList
  have items := TokenStream.items_ofSource front
  obtain rfl : left = [] := by
    rw [items] at clean
    exact eq_nil_of_no_error fun e member => clean e (List.mem_append_right _ member)
  have whole : (first ++ "\n" ++ second).toList = first.toList ++ '\n' :: second.toList := by
    simp
  have size : byteLength (spelled pieces) = byteLength first.toList := by
    rw [← front.whole, List.append_nil]
  have before : located (.ofText (first.toList ++ '\n' :: second.toList)) 0 pieces =
      located (.ofText first.toList) 0 pieces := by
    apply located_congr
    · intro place inside
      exact LineTable.position_before_lineFeed second.toList inside
    · exact Nat.le_of_eq (by rw [size, Nat.zero_add])
  have moved := LineTable.position_behind_lineFeed first.toList second.toList
  have behind := located_movedDown moved 0 more
  have last := ending_movedDown moved (byteLength (spelled more)) rest
  have both := front.across_lineFeed back
  rw [← whole] at both
  have feed : ('\n' : Char).utf8Size = 1 := rfl
  rw [TokenStream.items_ofSource both, items, TokenStream.items_ofSource back, whole,
    located_append, before, Piece.spelled_append, Piece.spelled_cons, byteLength_append,
    byteLength_append, size, List.map_append, ← behind, ← last]
  simp [located, ending, Piece.text, feed, Nat.add_assoc]

/-- A source that ends in the middle of an exponent, behind a comment of two lines. -/
def brokenOffSource : String := "(* one\n two *) 1e"

theorem items_across_lineFeed_of_brokenOffSource :
    (∀ e, Item.error e ∉ (TokenStream.ofSource brokenOffSource).items) ∧
      (TokenStream.ofSource (brokenOffSource ++ "\n" ++ "5 #")).items =
        (TokenStream.ofSource brokenOffSource).items ++
          [.token ⟨.int 5, ⟨⟨3, 1⟩, ⟨3, 2⟩⟩⟩, .error (.invalidToken '#' ⟨⟨3, 3⟩, ⟨3, 4⟩⟩)] := by
  have tokens : (TokenStream.ofSource brokenOffSource).items =
      [.token ⟨.comment "one\n two", ⟨⟨1, 1⟩, ⟨2, 8⟩⟩⟩, .token ⟨.int 1, ⟨⟨2, 9⟩, ⟨2, 10⟩⟩⟩,
        .token ⟨.ident "e", ⟨⟨2, 10⟩, ⟨2, 11⟩⟩⟩] := by
    decide +kernel
  have clean : ∀ e, Item.error e ∉ (TokenStream.ofSource brokenOffSource).items := by
    intro e
    rw [tokens]
    simp
  have later : (TokenStream.ofSource "5 #").items.map (Item.movedDown 2) =
      [.token ⟨.int 5, ⟨⟨3, 1⟩, ⟨3, 2⟩⟩⟩, .error (.invalidToken '#' ⟨⟨3, 3⟩, ⟨3, 4⟩⟩)] := by
    decide +kernel
  refine ⟨clean, ?_⟩
  rw [items_across_lineFeed brokenOffSource "5 #" clean, ← later]
  rfl

end SmallMl
