import SmallMl.Proofs.Lookahead
import SmallMl.Proofs.Pieces

/-!
# Maximal munch

Main statement: each token of a source is what its lexeme is by itself, and no longer piece of the
source from the same place on is a token, save where an array primitive would be cut out of a longer
word.
-/

namespace SmallMl

open Piece (spelled)

/-- The whole text is the one lexeme of the token. -/
def LexesAs (text : String) (token : Token) : Prop :=
  ∃ span : Span, (TokenStream.ofSource text).items = [.token ⟨token, span⟩] ∧
    span.Covers text 0 text.utf8ByteSize

/-- The word of a module and a field of it, which are one token unless the field's name goes on. -/
def IsCutArrayField (lexeme rest : String) : Prop :=
  lexeme = "Array" ∧
    ∃ field ∈ [".make", ".length"], ∃ c after,
      rest = field ++ String.ofList (c :: after) ∧ isWordChar c = true

theorem eq_nil_of_byteLength {text : List Char} (none : byteLength text = 0) : text = [] := by
  cases text with
  | nil => rfl
  | cons c rest =>
      have positive := byteLength_pos (List.cons_ne_nil c rest)
      omega

/-- Nothing is cut off from the empty text. -/
theorem cut_nil : Cut [] [] [] :=
  .stop (by simp) fun _ _ _ reads => absurd (List.append_eq_nil_iff.mp (splits_of_read reads).2).1
    (splits_of_read reads).1

theorem lexesAs_of_read {text : String} {token : Token}
    (reads : Token.read text.toList = .token token text.toList []) : LexesAs text token := by
  have cut : Cut text.toList [.token token text.toList] [] := .token reads cut_nil
  have nonempty := byteLength_pos (splits_of_read reads).1
  refine ⟨_, TokenStream.items_ofSource cut, ?_⟩
  rw [utf8ByteSize_eq, Nat.zero_add]
  exact covers_span text nonempty

/-- A token of a source and the reading that yields it: the text before it, its lexeme, and the text
behind it. -/
theorem exists_reading {source : String} {found : LocatedToken}
    (yielded : Item.token found ∈ (TokenStream.ofSource source).items) :
    ∃ before lexeme rest : List Char, source.toList = before ++ (lexeme ++ rest) ∧
      Token.read (lexeme ++ rest) = .token found.token lexeme rest ∧
      found.span = (LineTable.ofText source.toList).span (byteLength before)
        (byteLength before + byteLength lexeme) := by
  obtain ⟨pieces, stop, cut⟩ := exists_cut source.toList
  rw [TokenStream.items_ofSource cut] at yielded
  rcases List.mem_append.mp yielded with inside | outside
  · obtain ⟨before, token, lexeme, after, rfl, same⟩ := exists_piece_of_mem_located inside
    cases same
    obtain ⟨behind, whole, later⟩ := cut.behind
    cases later with
    | @token _ rest _ _ _ _ reads =>
        obtain ⟨_, rfl⟩ := splits_of_read reads
        refine ⟨spelled before, lexeme, rest, whole, reads, ?_⟩
        rw [Nat.zero_add]
  · exact absurd outside token_not_mem_ending

theorem read_of_lexesAs {text : String} {token : Token} (lexes : LexesAs text token) :
    Token.read text.toList = .token token text.toList [] := by
  obtain ⟨span, items, covers⟩ := lexes
  have yielded : Item.token ⟨token, span⟩ ∈ (TokenStream.ofSource text).items := by
    rw [items]
    exact List.mem_singleton_self _
  obtain ⟨before, lexeme, rest, whole, reads, place⟩ := exists_reading yielded
  simp only at reads place
  have start := covers.start
  have stop := covers.stop
  simp only [place, LineTable.span, LineTable.offsetIn?_position, Option.some.injEq] at start stop
  obtain rfl := eq_nil_of_byteLength start
  have size := congrArg byteLength whole
  rw [utf8ByteSize_eq] at stop
  simp only [byteLength_append, byteLength_nil] at size stop
  obtain rfl : rest = [] := eq_nil_of_byteLength (by omega)
  rw [List.nil_append, List.append_nil] at whole
  rw [List.append_nil] at reads
  rw [whole]
  exact reads

theorem lexesAs_of_isCutArrayField {lexeme rest : String} (cut : IsCutArrayField lexeme rest) :
    ∃ more beyond token, more ≠ "" ∧ rest = more ++ beyond ∧ LexesAs (lexeme ++ more) token := by
  obtain ⟨rfl, field, member, c, after, rfl, _⟩ := cut
  simp only [List.mem_cons, List.not_mem_nil, or_false] at member
  rcases member with rfl | rfl
  · exact ⟨_, _, .arrayMake, by decide, rfl, lexesAs_of_read (by decide +kernel)⟩
  · exact ⟨_, _, .arrayLength, by decide, rfl, lexesAs_of_read (by decide +kernel)⟩

theorem field_of_arrayPrimitive {token : Token} {more : String}
    (member : (token, "Array".toList ++ more.toList) ∈ Token.arrayPrimitives) :
    more ∈ [".make", ".length"] := by
  rw [List.mem_cons, List.mem_singleton]
  rcases Token.mem_arrayPrimitives.mp member with ⟨_, same⟩ | ⟨_, same⟩
  · left
    have split : "Array".toList ++ more.toList = "Array".toList ++ ".make".toList := same
    exact String.toList_inj.mp (List.append_cancel_left split)
  · right
    have split : "Array".toList ++ more.toList = "Array".toList ++ ".length".toList := same
    exact String.toList_inj.mp (List.append_cancel_left split)

/-- A longer piece of the source that is a token cuts an array primitive out of a longer word. -/
theorem isCutArrayField_of_lexesAs {lexeme rest more beyond : String} {token longer : Token}
    (reads : Token.read (lexeme.toList ++ rest.toList) = .token token lexeme.toList rest.toList)
    (nonempty : more ≠ "") (split : rest = more ++ beyond)
    (lexes : LexesAs (lexeme ++ more) longer) : IsCutArrayField lexeme rest := by
  have alone := read_of_lexesAs lexes
  subst split
  rw [String.toList_append] at reads alone
  rw [← List.append_assoc] at reads
  have before : Token.read (lexeme.toList ++ more.toList ++ []) =
      .token longer (lexeme.toList ++ more.toList) [] := by
    rw [List.append_nil]
    exact alone
  rcases Token.length_le_of_read before reads with shorter | ⟨member, same, goesOn⟩
  · have positive : more.toList ≠ [] := fun none => nonempty (String.toList_eq_nil_iff.mp none)
    have some := List.length_pos_iff.mpr positive
    rw [List.length_append] at shorter
    omega
  · rw [same] at member
    refine ⟨String.toList_inj.mp same, more, field_of_arrayPrimitive member, ?_⟩
    cases letters : beyond.toList with
    | nil =>
        rw [letters] at goesOn
        exact absurd goesOn Bool.false_ne_true
    | cons c after =>
        rw [letters] at goesOn
        exact ⟨c, after, by rw [← letters, String.ofList_toList], goesOn⟩

/-- Each token of a source is what its lexeme is by itself, and no longer piece of the source from
the same place on is a token, save where an array primitive would be cut out of a longer word. -/
theorem tokens_are_maximal (source : String) (found : LocatedToken)
    (yielded : Item.token found ∈ (TokenStream.ofSource source).items) :
    ∃ before lexeme rest : String, source = before ++ lexeme ++ rest ∧
      found.span.Covers source before.utf8ByteSize (before ++ lexeme).utf8ByteSize ∧
      LexesAs lexeme found.token ∧
      ((∃ more beyond token, more ≠ "" ∧ rest = more ++ beyond ∧
        LexesAs (lexeme ++ more) token) ↔ IsCutArrayField lexeme rest) := by
  obtain ⟨before, lexeme, rest, whole, reads, place⟩ := exists_reading yielded
  refine ⟨String.ofList before, String.ofList lexeme, String.ofList rest, ?_, ?_, ?_, ?_, ?_⟩
  · rw [← String.ofList_append, ← String.ofList_append, List.append_assoc, ← whole,
      String.ofList_toList]
  · have nonempty := byteLength_pos (splits_of_read reads).1
    have covers := covers_span source (Nat.lt_add_of_pos_right (n := byteLength before) nonempty)
    rw [← String.ofList_append, utf8ByteSize_eq, utf8ByteSize_eq, String.toList_ofList,
      String.toList_ofList, byteLength_append, place]
    exact covers
  · apply lexesAs_of_read
    rw [String.toList_ofList]
    have cut : Token.read (lexeme ++ ([] ++ [])) = .token found.token lexeme ([] ++ []) :=
      Token.read_cut reads (by simp [BreaksOff]) (Or.inl rfl)
    simpa using cut
  · rintro ⟨more, beyond, token, nonempty, split, lexes⟩
    exact isCutArrayField_of_lexesAs (by simpa using reads) nonempty split lexes
  · exact lexesAs_of_isCutArrayField

/-- An integer with an exponent begun behind it, and an array primitive's lexeme in a longer
word. -/
def munchedSource : String := "1e+Array.maker"

theorem array_of_munchedSource_is_maximal :
    let found : LocatedToken := ⟨.ident "Array", ⟨⟨1, 4⟩, ⟨1, 9⟩⟩⟩
    Item.token found ∈ (TokenStream.ofSource munchedSource).items ∧
      ∃ before lexeme rest : String, munchedSource = before ++ lexeme ++ rest ∧
        found.span.Covers munchedSource before.utf8ByteSize (before ++ lexeme).utf8ByteSize ∧
        LexesAs lexeme (.ident "Array") ∧
        ((∃ more beyond token, more ≠ "" ∧ rest = more ++ beyond ∧
          LexesAs (lexeme ++ more) token) ↔ IsCutArrayField lexeme rest) := by
  intro found
  have yielded : Item.token found ∈ (TokenStream.ofSource munchedSource).items := by
    decide +kernel
  exact ⟨yielded, tokens_are_maximal munchedSource found yielded⟩

end SmallMl
