import SmallMl.Proofs.Dispatch
import SmallMl.Proofs.Tiling

/-!
# A source cut into pieces

The reading of a source does two things that have nothing to do with each other: it cuts the text
into blanks and lexemes, and it finds the place of each lexeme. Main statement: the items of a
source are the tokens of its pieces, each at its place, and an error where the cutting stops before
the end.
-/

namespace SmallMl

/-- A piece of a source: a blank between tokens, or a token with its lexeme. -/
inductive Piece where
  | blank (c : Char)
  | token (token : Token) (lexeme : List Char)

namespace Piece

/-- The characters of the piece. -/
def text : Piece → List Char
  | blank c => [c]
  | token _ lexeme => lexeme

/-- The characters of some pieces, one after the other. -/
def spelled (pieces : List Piece) : List Char :=
  pieces.flatMap text

@[simp]
theorem spelled_nil : spelled [] = [] := rfl

@[simp]
theorem spelled_cons (piece : Piece) (pieces : List Piece) :
    spelled (piece :: pieces) = piece.text ++ spelled pieces := rfl

@[simp]
theorem spelled_append (first second : List Piece) :
    spelled (first ++ second) = spelled first ++ spelled second :=
  List.flatMap_append

end Piece

open Piece (spelled)

/-- The text is cut into the pieces, up to the rest, where neither a blank nor a token stands. -/
inductive Cut : List Char → List Piece → List Char → Prop where
  | stop {text : List Char} (solid : ∀ c ∈ text.head?, isBlank c = false)
      (none : ∀ token lexeme behind, Token.read text ≠ .token token lexeme behind) :
      Cut text [] text
  | blank {c : Char} {text rest : List Char} {pieces : List Piece} (blank : isBlank c = true)
      (later : Cut text pieces rest) : Cut (c :: text) (.blank c :: pieces) rest
  | token {text behind lexeme rest : List Char} {token : Token} {pieces : List Piece}
      (reads : Token.read text = .token token lexeme behind) (later : Cut behind pieces rest) :
      Cut text (.token token lexeme :: pieces) rest

theorem splits_of_read {text lexeme rest : List Char} {token : Token}
    (reads : Token.read text = .token token lexeme rest) : lexeme ≠ [] ∧ lexeme ++ rest = text := by
  have splits := Token.read_splits text
  rw [reads] at splits
  exact splits

/-- A text starts with a blank, with a token, or with neither. -/
theorem front_cases (text : List Char) :
    (∃ c rest, text = c :: rest ∧ isBlank c = true) ∨
      (∃ token lexeme rest, Token.read text = .token token lexeme rest) ∨
      ((∀ c ∈ text.head?, isBlank c = false) ∧
        ∀ token lexeme rest, Token.read text ≠ .token token lexeme rest) := by
  by_cases token : ∃ token lexeme rest, Token.read text = .token token lexeme rest
  · exact Or.inr (Or.inl token)
  · have none : ∀ token lexeme rest, Token.read text ≠ .token token lexeme rest :=
      fun t lexeme rest reads => token ⟨t, lexeme, rest, reads⟩
    cases text with
    | nil => exact Or.inr (Or.inr ⟨by simp, none⟩)
    | cons c rest =>
        cases blank : isBlank c with
        | true => exact Or.inl ⟨c, rest, rfl, blank⟩
        | false => exact Or.inr (Or.inr ⟨by simp [blank], none⟩)

theorem exists_cut (text : List Char) : ∃ pieces rest, Cut text pieces rest := by
  generalize size : text.length = n
  induction n using Nat.strongRecOn generalizing text with
  | ind n ih =>
      rcases front_cases text with ⟨c, behind, rfl, blank⟩ | ⟨token, lexeme, behind, reads⟩ |
        ⟨solid, none⟩
      · rw [List.length_cons] at size
        obtain ⟨pieces, rest, later⟩ := ih behind.length (by omega) behind rfl
        exact ⟨_, _, .blank blank later⟩
      · obtain ⟨nonempty, whole⟩ := splits_of_read reads
        have positive := List.length_pos_iff.mpr nonempty
        rw [← whole, List.length_append] at size
        obtain ⟨pieces, rest, later⟩ := ih behind.length (by omega) behind rfl
        exact ⟨_, _, .token reads later⟩
      · exact ⟨_, _, .stop solid none⟩

namespace Cut

variable {text rest : List Char} {pieces : List Piece}

theorem whole (cut : Cut text pieces rest) : spelled pieces ++ rest = text := by
  induction cut with
  | stop => rfl
  | blank _ _ ih => exact congrArg _ ih
  | token reads _ ih =>
      rw [Piece.spelled_cons, List.append_assoc, ih]
      exact (splits_of_read reads).2

/-- What stands behind some of the pieces is cut into the others. -/
theorem behind {before : List Piece} (cut : Cut text (before ++ pieces) rest) :
    ∃ behind, text = spelled before ++ behind ∧ Cut behind pieces rest := by
  induction before generalizing text with
  | nil => exact ⟨text, rfl, cut⟩
  | cons piece before ih =>
      cases cut with
      | blank _ later =>
          obtain ⟨behind, rfl, last⟩ := ih later
          exact ⟨behind, rfl, last⟩
      | token reads later =>
          obtain ⟨behind, rfl, last⟩ := ih later
          refine ⟨behind, ?_, last⟩
          rw [Piece.spelled_cons, List.append_assoc]
          exact (splits_of_read reads).2.symm

end Cut

/-- The tokens of some pieces, the first of which starts at the offset. -/
def located (lines : LineTable) (offset : Nat) : List Piece → List Item
  | [] => []
  | .blank c :: pieces => located lines (offset + c.utf8Size) pieces
  | .token token lexeme :: pieces =>
      .token ⟨token, lines.span offset (offset + byteLength lexeme)⟩ ::
        located lines (offset + byteLength lexeme) pieces

/-- The error at the offset where the cutting stops, if anything is left there. -/
def ending (lines : LineTable) (offset : Nat) : List Char → List Item
  | [] => []
  | c :: rest => [.error (TokenStream.refusal ⟨lines, offset, c :: rest, false⟩ c rest)]

theorem token_not_mem_ending {lines : LineTable} {offset : Nat} {rest : List Char}
    {located : LocatedToken} : Item.token located ∉ ending lines offset rest := by
  cases rest with
  | nil => exact List.not_mem_nil
  | cons c rest => simp [ending]

theorem located_append (lines : LineTable) (offset : Nat) (first second : List Piece) :
    located lines offset (first ++ second) =
      located lines offset first ++
        located lines (offset + byteLength (spelled first)) second := by
  induction first generalizing offset with
  | nil => rfl
  | cons piece first ih =>
      cases piece with
      | blank c => simp [located, ih, Piece.text, Nat.add_assoc]
      | token token lexeme => simp [located, ih, Piece.text, Nat.add_assoc]

/-- An item at its place among the tokens of some pieces, and the piece that it comes from. -/
theorem exists_piece_of_getElem?_located {lines : LineTable} {offset place : Nat}
    {pieces : List Piece} {item : Item} (here : (located lines offset pieces)[place]? = some item) :
    ∃ before token lexeme after, pieces = before ++ .token token lexeme :: after ∧
      item = .token ⟨token, lines.span (offset + byteLength (spelled before))
        (offset + byteLength (spelled before) + byteLength lexeme)⟩ ∧
      (located lines offset before).length = place := by
  induction pieces generalizing offset place with
  | nil => exact absurd here (by simp [located])
  | cons piece pieces ih =>
      cases piece with
      | blank c =>
          obtain ⟨before, token, lexeme, after, rfl, rfl, count⟩ := ih here
          refine ⟨.blank c :: before, token, lexeme, after, rfl, ?_, count⟩
          simp [Piece.text, Nat.add_assoc]
      | token first front =>
          cases place with
          | zero =>
              cases here
              exact ⟨[], first, front, pieces, rfl, rfl, rfl⟩
          | succ place =>
              obtain ⟨before, token, lexeme, after, rfl, rfl, rfl⟩ := ih here
              refine ⟨.token first front :: before, token, lexeme, after, rfl, ?_, rfl⟩
              simp [Piece.text, Nat.add_assoc]

theorem exists_piece_of_mem_located {lines : LineTable} {offset : Nat} {pieces : List Piece}
    {item : Item} (member : item ∈ located lines offset pieces) :
    ∃ before token lexeme after, pieces = before ++ .token token lexeme :: after ∧
      item = .token ⟨token, lines.span (offset + byteLength (spelled before))
        (offset + byteLength (spelled before) + byteLength lexeme)⟩ := by
  obtain ⟨place, here⟩ := List.getElem?_of_mem member
  obtain ⟨before, token, lexeme, after, split, same, -⟩ := exists_piece_of_getElem?_located here
  exact ⟨before, token, lexeme, after, split, same⟩

theorem located_congr {one other : LineTable} {offset bound : Nat} {pieces : List Piece}
    (same : ∀ place ≤ bound, one.position place = other.position place)
    (inside : offset + byteLength (spelled pieces) ≤ bound) :
    located one offset pieces = located other offset pieces := by
  induction pieces generalizing offset with
  | nil => rfl
  | cons piece pieces ih =>
      rw [Piece.spelled_cons, byteLength_append] at inside
      cases piece with
      | blank c =>
          simp only [Piece.text, byteLength_cons, byteLength_nil] at inside
          simp only [located]
          exact ih (by omega)
      | token token lexeme =>
          simp only [Piece.text] at inside
          simp only [located, LineTable.span]
          rw [same offset (by omega), same (offset + byteLength lexeme) (by omega), ih (by omega)]

namespace TokenStream

theorem items_congr {first second : TokenStream} (same : first.next = second.next) :
    first.items = second.items := by
  cases yields : second.next with
  | mk item after =>
      rw [yields] at same
      cases item with
      | none => rw [items_of_next_none same, items_of_next_none yields]
      | some item => rw [items_of_next_some same, items_of_next_some yields]

variable {stream : TokenStream} {text behind lexeme rest : List Char} {pieces : List Piece}

theorem items_of_isBlank {c : Char} (running : stream.failed = false)
    (front : stream.rest = c :: behind) (blank : isBlank c = true) :
    stream.items = (stream.advance [c] behind).items := by
  apply items_congr
  have skips : stream.skipBlanks = (stream.advance [c] behind).skipBlanks := by
    simp [skipBlanks, advance, front, blank, Nat.add_assoc]
  have also : (stream.advance [c] behind).failed = false := running
  simp only [next, skips, running, also, Bool.false_eq_true, if_false]

theorem skipBlanks_of_solid (solid : ∀ c ∈ stream.rest.head?, isBlank c = false) :
    stream.skipBlanks = stream := by
  obtain ⟨lines, offset, text, failed⟩ := stream
  cases text with
  | nil => rfl
  | cons c behind =>
      have other := solid c rfl
      simp [skipBlanks, other]

theorem next_of_solid (running : stream.failed = false)
    (solid : ∀ c ∈ stream.rest.head?, isBlank c = false) : stream.next = stream.nextHere := by
  rw [next_of_running running, skipBlanks_of_solid solid]

theorem solid_of_read {token : Token} (reads : Token.read text = .token token lexeme behind) :
    ∀ c ∈ text.head?, isBlank c = false := by
  intro c first
  obtain ⟨rest, rfl⟩ := List.head?_eq_some_iff.mp first
  cases blank : isBlank c with
  | false => rfl
  | true =>
      rw [Token.read_of_isBlank rest blank] at reads
      exact absurd reads (by simp)

theorem next_of_read {token : Token} (running : stream.failed = false)
    (reads : Token.read stream.rest = .token token lexeme behind) :
    stream.next =
      (some (.token ⟨token, stream.spanOf lexeme⟩), stream.advance lexeme behind) := by
  rw [next_of_solid running (solid_of_read reads), nextHere]
  split
  · next front =>
      have splits := splits_of_read reads
      rw [front] at splits
      exact absurd (List.append_eq_nil_iff.mp splits.2).1 splits.1
  · next c text front =>
      rw [front] at reads
      rw [reads]

theorem items_of_read {token : Token} (running : stream.failed = false)
    (reads : Token.read stream.rest = .token token lexeme behind) :
    stream.items = .token ⟨token, stream.spanOf lexeme⟩ ::
      (stream.advance lexeme behind).items :=
  items_of_next_some (next_of_read running reads)

theorem items_of_stop (running : stream.failed = false)
    (solid : ∀ c ∈ stream.rest.head?, isBlank c = false)
    (none : ∀ token lexeme behind, Token.read stream.rest ≠ .token token lexeme behind) :
    stream.items = ending stream.lines stream.offset stream.rest := by
  have yields := next_of_solid running solid
  rw [nextHere] at yields
  split at yields
  · next front => rw [items_of_next_none yields, front, ending]
  · next c text front =>
      rw [front] at none
      split at yields
      · next token lexeme behind reads => exact absurd reads (none token lexeme behind)
      · rw [items_of_next_some yields, items_of_failed rfl, front, ending]
        rfl

/-- The items of a stream are the tokens of the pieces that its text is cut into, and the error
where the cutting stops. -/
theorem items_of_cut (running : stream.failed = false) (cut : Cut stream.rest pieces rest) :
    stream.items = located stream.lines stream.offset pieces ++
      ending stream.lines (stream.offset + byteLength (spelled pieces)) rest := by
  generalize front : stream.rest = text at cut
  induction cut generalizing stream with
  | stop solid none =>
      subst front
      exact items_of_stop running solid none
  | @blank c behind rest pieces blank later ih =>
      have goesOn : (stream.advance [c] behind).failed = false := running
      rw [items_of_isBlank running front blank, ih goesOn rfl]
      simp [located, advance, Piece.text, Nat.add_assoc]
  | @token text behind lexeme rest token pieces reads later ih =>
      subst front
      have goesOn : (stream.advance lexeme behind).failed = false := running
      rw [items_of_read running reads, ih goesOn rfl]
      simp [located, advance, spanOf, Piece.text, Nat.add_assoc]

theorem items_ofSource {source : String} (cut : Cut source.toList pieces rest) :
    (ofSource source).items = located (.ofText source.toList) 0 pieces ++
      ending (.ofText source.toList) (byteLength (spelled pieces)) rest := by
  have items : (ofSource source).items = _ := items_of_cut rfl cut
  rw [items, ofSource, Nat.zero_add]

end TokenStream

end SmallMl
