import SmallMl.Proofs.Lines
import SmallMl.Proofs.Lookahead
import SmallMl.Proofs.Pieces
import SmallMl.Stream.Tokens

/-!
# Comments are blanks

Main statement: a source and the same source with a space for each byte of its comments, line feeds
apart, have the same tokens at the same places, and the same error.
-/

namespace SmallMl

open Piece (spelled)

/-- Whether the item is a comment. -/
def Item.isComment : Item → Bool
  | token located => located.token.isComment
  | error _ => false

/-- Whether a comment among some items of the source covers the offset. -/
def coveredByComment (source : String) (items : List Item) (offset : Nat) : Bool :=
  items.any fun item => item.isComment && item.owns source offset

/-- Spaces for the bytes of a character, unless it is a line feed. -/
def blankedChar (c : Char) : List Char :=
  if c = '\n' then ['\n'] else List.replicate c.utf8Size ' '

/-- Spaces for the bytes of a text, line feeds apart. -/
def blankedText (text : List Char) : List Char :=
  text.flatMap blankedChar

/-- Whether the piece is a comment. -/
def Piece.isComment : Piece → Bool
  | blank _ => false
  | token t _ => t.isComment

/-- The piece with blanks in the place of a comment. -/
def Piece.blanked : Piece → List Piece
  | blank c => [blank c]
  | token t lexeme =>
      if t.isComment then (blankedText lexeme).map blank else [token t lexeme]

/-- The pieces with blanks in the place of the comments. -/
def blankedPieces (pieces : List Piece) : List Piece :=
  pieces.flatMap Piece.blanked

/-! ## Blanked texts -/

theorem isBlank_of_mem_blankedText {text : List Char} :
    ∀ c ∈ blankedText text, isBlank c = true := by
  intro c member
  obtain ⟨d, _, inside⟩ := List.mem_flatMap.mp member
  simp only [blankedChar] at inside
  split at inside
  · rw [List.mem_singleton.mp inside]
    rfl
  · rw [List.eq_of_mem_replicate inside]
    rfl

@[simp]
theorem blankedText_cons (c : Char) (rest : List Char) :
    blankedText (c :: rest) = blankedChar c ++ blankedText rest := rfl

theorem byteLength_replicate (count : Nat) : byteLength (List.replicate count ' ') = count := by
  induction count with
  | zero => rfl
  | succ count ih =>
      rw [List.replicate_succ, byteLength_cons, ih]
      exact Nat.add_comm 1 count

theorem byteLength_blankedChar (c : Char) : byteLength (blankedChar c) = c.utf8Size := by
  by_cases feed : c = '\n'
  · subst feed
    rfl
  · rw [blankedChar, if_neg feed, byteLength_replicate]

theorem byteLength_blankedText (text : List Char) :
    byteLength (blankedText text) = byteLength text := by
  induction text with
  | nil => rfl
  | cons c rest ih =>
      rw [blankedText_cons, byteLength_append, byteLength_blankedChar, ih, byteLength_cons]

theorem startsAfter_replicate (base count : Nat) :
    LineTable.startsAfter base (List.replicate count ' ') = [] := by
  induction count generalizing base with
  | zero => rfl
  | succ count ih =>
      rw [List.replicate_succ, LineTable.startsAfter, if_neg (by decide), ih]

theorem startsAfter_blankedText (text : List Char) (base : Nat) :
    LineTable.startsAfter base (blankedText text) = LineTable.startsAfter base text := by
  induction text generalizing base with
  | nil => rfl
  | cons c rest ih =>
      rw [blankedText_cons, LineTable.startsAfter_append, byteLength_blankedChar, ih,
        LineTable.startsAfter]
      by_cases feed : c = '\n'
      · subst feed
        rfl
      · rw [blankedChar, if_neg feed, if_neg feed, startsAfter_replicate]
        rfl

/-- The byte that stands for a byte of a comment. -/
def blankedByte (byte : UInt8) : UInt8 :=
  if byte = 0x0A then byte else 0x20

theorem bytes_replicate (count : Nat) :
    bytes (List.replicate count ' ') = List.replicate count 0x20 := by
  induction count with
  | zero => rfl
  | succ count ih =>
      rw [List.replicate_succ, List.replicate_succ, ← ih]
      rfl

theorem bytes_blankedChar (c : Char) :
    bytes (blankedChar c) = (String.utf8EncodeChar c).map blankedByte := by
  by_cases feed : c = '\n'
  · subst feed
    rfl
  · rw [blankedChar, if_neg feed, bytes_replicate, ← String.length_utf8EncodeChar]
    symm
    rw [List.map_eq_replicate_iff]
    intro byte member
    exact if_neg (ne_of_mem_utf8EncodeChar feed byte member)

theorem bytes_blankedText (text : List Char) :
    bytes (blankedText text) = (bytes text).map blankedByte := by
  induction text with
  | nil => rfl
  | cons c rest ih =>
      rw [blankedText_cons, bytes_append, bytes_blankedChar, ih, ← List.map_append]
      rfl

/-! ## Blanked pieces -/

@[simp]
theorem blankedPieces_cons (piece : Piece) (pieces : List Piece) :
    blankedPieces (piece :: pieces) = piece.blanked ++ blankedPieces pieces := rfl

theorem spelled_map_blank (text : List Char) : spelled (text.map Piece.blank) = text := by
  induction text with
  | nil => rfl
  | cons c rest ih => rw [List.map_cons, Piece.spelled_cons, ih, Piece.text, List.singleton_append]

theorem spelled_blanked_comment {token : Token} (comment : token.isComment = true)
    (lexeme : List Char) : spelled (Piece.token token lexeme).blanked = blankedText lexeme := by
  rw [Piece.blanked, if_pos comment, spelled_map_blank]

theorem blanked_token {token : Token} (other : token.isComment = false) (lexeme : List Char) :
    (Piece.token token lexeme).blanked = [.token token lexeme] := by
  rw [Piece.blanked, other, if_neg Bool.false_ne_true]

theorem byteLength_blanked (piece : Piece) :
    byteLength (spelled piece.blanked) = byteLength piece.text := by
  cases piece with
  | blank c => simp [Piece.blanked, Piece.text]
  | token token lexeme =>
      cases comment : token.isComment with
      | true => rw [spelled_blanked_comment comment, byteLength_blankedText, Piece.text]
      | false => simp [blanked_token comment, Piece.text]

theorem startsAfter_blanked (piece : Piece) (base : Nat) :
    LineTable.startsAfter base (spelled piece.blanked) =
      LineTable.startsAfter base piece.text := by
  cases piece with
  | blank c => simp [Piece.blanked, Piece.text]
  | token token lexeme =>
      cases comment : token.isComment with
      | true => rw [spelled_blanked_comment comment, startsAfter_blankedText, Piece.text]
      | false => simp [blanked_token comment, Piece.text]

theorem bytes_blanked (piece : Piece) :
    bytes (spelled piece.blanked) =
      if piece.isComment then (bytes piece.text).map blankedByte else bytes piece.text := by
  cases piece with
  | blank c => simp [Piece.blanked, Piece.text, Piece.isComment]
  | token token lexeme =>
      cases comment : token.isComment with
      | true =>
          rw [spelled_blanked_comment comment, bytes_blankedText, Piece.isComment, comment,
            if_pos rfl, Piece.text]
      | false => simp [blanked_token comment, Piece.text, Piece.isComment, comment]

theorem byteLength_blankedPieces (pieces : List Piece) :
    byteLength (spelled (blankedPieces pieces)) = byteLength (spelled pieces) := by
  induction pieces with
  | nil => rfl
  | cons piece pieces ih =>
      rw [blankedPieces_cons, Piece.spelled_append, Piece.spelled_cons, byteLength_append,
        byteLength_append, byteLength_blanked, ih]

theorem startsAfter_blankedPieces (pieces : List Piece) (base : Nat) :
    LineTable.startsAfter base (spelled (blankedPieces pieces)) =
      LineTable.startsAfter base (spelled pieces) := by
  induction pieces generalizing base with
  | nil => rfl
  | cons piece pieces ih =>
      rw [blankedPieces_cons, Piece.spelled_append, Piece.spelled_cons,
        LineTable.startsAfter_append, LineTable.startsAfter_append, startsAfter_blanked,
        byteLength_blanked, ih]

/-- The lines of a source start where they did. -/
theorem ofText_blankedPieces (pieces : List Piece) (rest : List Char) :
    LineTable.ofText (spelled (blankedPieces pieces) ++ rest) =
      LineTable.ofText (spelled pieces ++ rest) := by
  simp only [LineTable.ofText, LineTable.startsAfter_append, startsAfter_blankedPieces,
    byteLength_blankedPieces]

theorem located_map_blank (lines : LineTable) (offset : Nat) (text : List Char)
    (pieces : List Piece) :
    located lines offset (text.map Piece.blank ++ pieces) =
      located lines (offset + byteLength text) pieces := by
  induction text generalizing offset with
  | nil => rfl
  | cons c rest ih =>
      rw [List.map_cons, List.cons_append, located, ih, byteLength_cons, Nat.add_assoc]

/-- The tokens that are no comments stay where they are. -/
theorem located_blankedPieces (lines : LineTable) (offset : Nat) (pieces : List Piece) :
    located lines offset (blankedPieces pieces) =
      (located lines offset pieces).filter fun item => !item.isComment := by
  induction pieces generalizing offset with
  | nil => rfl
  | cons piece pieces ih =>
      cases piece with
      | blank c => exact ih _
      | token token lexeme =>
          cases comment : token.isComment with
          | true =>
              rw [blankedPieces_cons, Piece.blanked, if_pos comment, located_map_blank,
                byteLength_blankedText, ih, located]
              simp [Item.isComment, comment]
          | false =>
              rw [blankedPieces_cons, blanked_token comment, List.singleton_append, located, ih,
                located]
              simp [Item.isComment, comment]

theorem tokens_filter (items : List Item) :
    Item.tokens (items.filter fun item => !item.isComment) = Item.tokens items := by
  induction items with
  | nil => rfl
  | cons item items ih =>
      cases item with
      | error e => rfl
      | token located =>
          cases comment : located.token.isComment with
          | true =>
              rw [List.filter_cons_of_neg (by simp [Item.isComment, comment]), ih, Item.tokens,
                comment]
              cases Item.tokens items <;> rfl
          | false =>
              rw [List.filter_cons_of_pos (by simp [Item.isComment, comment]), Item.tokens, ih,
                Item.tokens]

/-! ## The cut of a source with blanked comments -/

namespace Token

theorem isComment_ofWord (word : String) : (ofWord word).isComment = false := by
  unfold ofWord
  split
  · rfl
  · split
    · rfl
    · split
      · rfl
      · split <;> rfl

/-- A comment starts with a parenthesis. -/
theorem head?_of_isComment {token : Token} {lexeme rest : List Char}
    (reads : read (lexeme ++ rest) = .token token lexeme rest) (comment : token.isComment = true) :
    lexeme.head? = some '(' := by
  have other : ∀ found : Token, found.isComment = false → token ≠ found := by
    rintro found not rfl
    rw [not] at comment
    exact absurd comment Bool.false_ne_true
  rcases read_dispatch (splits_of_read reads).1 with string | ⟨first, _⟩ | numeral | word | symbol
  · rw [string] at reads
    unfold readString at reads
    split at reads
    · split at reads
      · cases reads
        exact absurd comment Bool.false_ne_true
      · exact absurd reads (by simp)
    · exact absurd reads (by simp)
  · exact first
  · rw [numeral] at reads
    obtain ⟨_, _, n, _, _, meaning⟩ := (readNumeral_takesLongest _ _ _ _).mp reads
    unfold Numeral.token? at meaning
    split at meaning
    · cases meaning
      exact absurd comment Bool.false_ne_true
    · split at meaning
      · cases meaning
        exact absurd comment Bool.false_ne_true
      · exact absurd meaning (by simp)
  · rw [word, Reading.first_pair_eq_token_iff] at reads
    rcases reads with array | ⟨_, reads⟩
    · have member := (readArrayPrimitive_eq_token_iff.mp array).1
      rcases mem_arrayPrimitives.mp member with ⟨same, _⟩ | ⟨same, _⟩
      · exact absurd same (other _ rfl)
      · exact absurd same (other _ rfl)
    · have meaning := ((readWord_takesLongest _ _ _ _).mp reads).2.2
      exact absurd meaning (other _ (isComment_ofWord _))
  · rw [symbol] at reads
    obtain ⟨_, _, one, _, meaning⟩ := (readSymbol_takesLongest _ _ _ _).mp reads
    exact absurd meaning (other _ rfl)

end Token

theorem breaksOff_of_head {text : List Char} {c : Char} (first : text.head? = some c)
    (isBreak : isBreak c = true) : BreaksOff text := by
  intro d front
  rw [first] at front
  cases front
  exact isBreak

/-- Up to the first comment, a text stays as it is; there, a break takes the place of another. -/
theorem blanked_cases {text rest : List Char} {pieces : List Piece} (cut : Cut text pieces rest) :
    ∃ more one other, text = more ++ one ∧
      spelled (blankedPieces pieces) ++ rest = more ++ other ∧ BreaksOff one ∧ BreaksOff other := by
  induction cut with
  | @stop text =>
      exact ⟨text, [], [], by simp, by simp [blankedPieces], by simp [BreaksOff],
        by simp [BreaksOff]⟩
  | @blank c text rest pieces _ _ ih =>
      obtain ⟨more, one, other, rfl, same, breaks, breaksToo⟩ := ih
      refine ⟨c :: more, one, other, rfl, ?_, breaks, breaksToo⟩
      exact congrArg (c :: ·) same
  | @token text behind lexeme rest token pieces reads _ ih =>
      have whole := (splits_of_read reads).2
      cases comment : token.isComment with
      | true =>
          rw [← whole] at reads
          have opens := Token.head?_of_isComment reads comment
          obtain ⟨tail, rfl⟩ := List.head?_eq_some_iff.mp opens
          refine ⟨[], _, _, rfl, rfl, ?_, ?_⟩
          · exact breaksOff_of_head (c := '(') (by rw [← whole]; rfl) rfl
          · rw [blankedPieces_cons, Piece.spelled_append, spelled_blanked_comment comment,
              blankedText_cons]
            exact breaksOff_of_head (c := ' ') rfl rfl
      | false =>
          obtain ⟨more, one, other, rfl, same, breaks, breaksToo⟩ := ih
          refine ⟨lexeme ++ more, one, other, ?_, ?_, breaks, breaksToo⟩
          · rw [List.append_assoc]
            exact whole.symm
          · rw [blankedPieces_cons, blanked_token comment, Piece.spelled_append, List.append_assoc,
              same]
            simp [Piece.text]

theorem Cut.map_blank {text rest : List Char} {pieces : List Piece} (cut : Cut text pieces rest)
    {blanks : List Char} (all : ∀ c ∈ blanks, isBlank c = true) :
    Cut (blanks ++ text) (blanks.map Piece.blank ++ pieces) rest := by
  induction blanks with
  | nil => exact cut
  | cons c blanks ih =>
      exact .blank (all c (List.mem_cons_self ..))
        (ih fun d member => all d (List.mem_cons_of_mem _ member))

/-- With its comments blanked, a text is cut into the blanked pieces. -/
theorem Cut.blanked {text rest : List Char} {pieces : List Piece} (cut : Cut text pieces rest) :
    Cut (spelled (blankedPieces pieces) ++ rest) (blankedPieces pieces) rest := by
  induction cut with
  | stop solid none => exact .stop solid none
  | blank blank _ ih => exact .blank blank ih
  | @token text behind lexeme rest token pieces reads later ih =>
      cases comment : token.isComment with
      | true =>
          have front := ih.map_blank (@isBlank_of_mem_blankedText lexeme)
          rw [blankedPieces_cons, Piece.spelled_append, spelled_blanked_comment comment,
            Piece.blanked, if_pos comment, List.append_assoc]
          exact front
      | false =>
          obtain ⟨more, one, other, rfl, same, breaks, breaksToo⟩ := blanked_cases later
          rw [← (splits_of_read reads).2] at reads
          have goesOn := Token.read_cut reads breaksToo (Or.inr breaks)
          rw [← same] at goesOn
          rw [blankedPieces_cons, blanked_token comment, List.singleton_append,
            Piece.spelled_cons, List.append_assoc]
          exact .token goesOn ih

/-! ## The bytes of a source with blanked comments -/

theorem owns_token (source : String) (token : Token) (first beyond offset : Nat) :
    Item.owns source offset
        (.token ⟨token, (LineTable.ofText source.toList).span first beyond⟩) =
      decide (first ≤ offset ∧ offset < beyond) := by
  simp only [Item.owns, LineTable.span, LineTable.offsetIn?_position]

variable (source : String)

theorem not_coveredByComment_before {base offset : Nat} (pieces : List Piece)
    (before : offset < base) :
    coveredByComment source (located (.ofText source.toList) base pieces) offset = false := by
  induction pieces generalizing base with
  | nil => rfl
  | cons piece pieces ih =>
      cases piece with
      | blank c => exact ih (by omega)
      | token token lexeme =>
          have later : coveredByComment source
              (located (.ofText source.toList) (base + byteLength lexeme) pieces) offset = false :=
            ih (by omega)
          rw [coveredByComment] at later ⊢
          rw [located, List.any_cons, owns_token, later]
          simp
          omega

/-- Inside the first of some pieces, a comment covers what the piece does if it is a comment. -/
theorem coveredByComment_inside {base offset : Nat} {piece : Piece} (pieces : List Piece)
    (inside : offset < byteLength piece.text) :
    coveredByComment source (located (.ofText source.toList) base (piece :: pieces))
      (base + offset) = piece.isComment := by
  cases piece with
  | blank c =>
      simp only [Piece.text, byteLength_cons, byteLength_nil] at inside
      exact not_coveredByComment_before source pieces (by omega)
  | token token lexeme =>
      have later : coveredByComment source
          (located (.ofText source.toList) (base + byteLength lexeme) pieces) (base + offset) =
          false := not_coveredByComment_before source pieces (Nat.add_lt_add_left inside base)
      have here : base ≤ base + offset ∧ base + offset < base + byteLength lexeme :=
        ⟨Nat.le_add_right _ _, Nat.add_lt_add_left inside base⟩
      rw [coveredByComment] at later ⊢
      rw [located, List.any_cons, owns_token, later, decide_eq_true here, Bool.or_false,
        Bool.and_true]
      rfl

/-- Behind the first of some pieces, that piece covers nothing. -/
theorem coveredByComment_behind {base offset : Nat} {piece : Piece} (pieces : List Piece)
    (behind : byteLength piece.text ≤ offset) :
    coveredByComment source (located (.ofText source.toList) base (piece :: pieces))
      (base + offset) =
      coveredByComment source
        (located (.ofText source.toList) (base + byteLength piece.text) pieces)
        (base + offset) := by
  cases piece with
  | blank c => rfl
  | token token lexeme =>
      have outside : ¬ (base ≤ base + offset ∧ base + offset < base + byteLength lexeme) := by
        intro within
        exact Nat.not_lt_of_le behind (Nat.lt_of_add_lt_add_left within.2)
      rw [coveredByComment, located, List.any_cons, owns_token, decide_eq_false outside,
        Bool.and_false, Bool.false_or]
      rfl

/-- Byte by byte, blanks stand in the place of what the comments cover. -/
theorem getElem?_bytes_blankedPieces (base : Nat) (pieces : List Piece) (rest : List Char)
    (offset : Nat) :
    (bytes (spelled (blankedPieces pieces) ++ rest))[offset]? =
      (bytes (spelled pieces ++ rest))[offset]?.map fun byte =>
        if coveredByComment source (located (.ofText source.toList) base pieces)
          (base + offset) then blankedByte byte else byte := by
  induction pieces generalizing base offset with
  | nil => simp [coveredByComment, located, blankedPieces]
  | cons piece pieces ih =>
      have sizes := byteLength_blanked piece
      rw [blankedPieces_cons, Piece.spelled_append, Piece.spelled_cons, List.append_assoc,
        List.append_assoc, bytes_append (spelled piece.blanked), bytes_append piece.text]
      by_cases inside : offset < byteLength piece.text
      · rw [List.getElem?_append_left (by rw [length_bytes, sizes]; exact inside),
          List.getElem?_append_left (by rw [length_bytes]; exact inside),
          coveredByComment_inside source pieces inside, bytes_blanked]
        cases piece.isComment with
        | true => rw [if_pos rfl, List.getElem?_map]; rfl
        | false => rw [if_neg Bool.false_ne_true]; simp
      · have behind := Nat.le_of_not_lt inside
        have place : base + byteLength piece.text + (offset - byteLength piece.text) =
            base + offset := by omega
        rw [List.getElem?_append_right (by rw [length_bytes, sizes]; exact behind),
          List.getElem?_append_right (by rw [length_bytes]; exact behind), length_bytes,
          length_bytes, sizes, ih (base + byteLength piece.text), place,
          coveredByComment_behind source pieces behind]

theorem filter_ending (lines : LineTable) (edge : Nat) (rest : List Char) :
    (ending lines edge rest).filter (fun item => !item.isComment) = ending lines edge rest := by
  cases rest with
  | nil => rfl
  | cons c rest => rfl

theorem coveredByComment_append_ending (items : List Item) (lines : LineTable)
    (edge offset : Nat) (rest : List Char) :
    coveredByComment source (items ++ ending lines edge rest) offset =
      coveredByComment source items offset := by
  have none : coveredByComment source (ending lines edge rest) offset = false := by
    cases rest with
    | nil => rfl
    | cons c rest => rfl
  rw [coveredByComment] at none ⊢
  rw [List.any_append, none, Bool.or_false]
  rfl

/-- With a space for each byte of a comment, line feeds apart, a source has the same tokens at the
same places and the same error, and no comments. The bytes tell which text that is. -/
theorem comments_are_blanks (source : String) :
    ∃ blanked : String,
      (∀ offset, byteAt? blanked offset = (byteAt? source offset).map fun byte =>
        if byte ≠ 0x0A ∧ coveredByComment source (TokenStream.ofSource source).items offset
          then 0x20 else byte) ∧
      tokenize blanked = tokenize source ∧
      ∀ item ∈ (TokenStream.ofSource blanked).items, item.isComment = false := by
  obtain ⟨pieces, rest, cut⟩ := exists_cut source.toList
  have whole := cut.whole
  have blankedCut := cut.blanked
  have lines : LineTable.ofText (spelled (blankedPieces pieces) ++ rest) =
      LineTable.ofText source.toList := by
    rw [ofText_blankedPieces, whole]
  have items := TokenStream.items_ofSource cut
  generalize same : String.ofList (spelled (blankedPieces pieces) ++ rest) = blanked
  have text : spelled (blankedPieces pieces) ++ rest = blanked.toList := by
    rw [← same, String.toList_ofList]
  rw [text] at blankedCut lines
  have blankedItems := TokenStream.items_ofSource blankedCut
  rw [lines, located_blankedPieces, byteLength_blankedPieces, ← filter_ending,
    ← List.filter_append, ← items] at blankedItems
  refine ⟨blanked, ?_, ?_, ?_⟩
  · intro offset
    have covered := coveredByComment_append_ending source
      (located (.ofText source.toList) 0 pieces) (.ofText source.toList)
      (byteLength (spelled pieces)) offset rest
    have written := getElem?_bytes_blankedPieces source 0 pieces rest offset
    rw [← items] at covered
    rw [text, whole, Nat.zero_add, ← covered] at written
    rw [byteAt?_eq, byteAt?_eq, written]
    congr 1
    funext byte
    cases coveredByComment source (TokenStream.ofSource source).items offset with
    | true => simp [blankedByte]
    | false => simp
  · rw [tokenize, tokenize, blankedItems, tokens_filter]
  · intro item member
    rw [blankedItems] at member
    simpa using (List.mem_filter.mp member).2

end SmallMl
