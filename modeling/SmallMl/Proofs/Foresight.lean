import SmallMl.Proofs.Lines
import SmallMl.Proofs.Lookahead
import SmallMl.Proofs.Pieces

/-!
# Eight bytes decide a token

To find a token, its reader looks past the lexeme, but never far: past digits at the shortest
exponent, and past a word at the field of a module and one character more. Main statement: a source
can change eight bytes behind a token, and the token is still yielded, at its place among the items.
-/

namespace SmallMl

open Piece (spelled)

/-! ## Texts with the same front -/

/-- The sources have the same bytes before the offset. If one of them ends before it, so does the
other. -/
def AgreeUpTo (count : Nat) (first second : String) : Prop :=
  ∀ offset < count, byteAt? first offset = byteAt? second offset

/-- The texts have the same fronts, as far as these take no more bytes than given. -/
def SameFronts (count : Nat) (text other : List Char) : Prop :=
  ∀ front, byteLength front ≤ count → (front <+: text ↔ front <+: other)

/-- The bytes of a text tell its first character. -/
theorem eq_of_bytes_cons {c d : Char} {text other : List Char} {more : List UInt8}
    (same : bytes (c :: text) ++ more = bytes (d :: other)) : c = d := by
  have split : bytes (c :: text) ++ more = String.utf8EncodeChar c ++ (bytes text ++ more) := by
    rw [bytes, List.flatMap_cons, List.append_assoc]
    rfl
  have first : (bytes (c :: text) ++ more).toByteArray.utf8DecodeChar? 0 = some c := by
    rw [split, List.toByteArray_append]
    exact ByteArray.utf8DecodeChar?_utf8EncodeChar_append
  have second : (bytes (d :: other)).toByteArray.utf8DecodeChar? 0 = some d :=
    List.utf8DecodeChar?_utf8Encode_cons
  rw [same, second] at first
  exact (Option.some.inj first).symm

theorem prefix_of_bytes {front text : List Char} (inside : bytes front <+: bytes text) :
    front <+: text := by
  induction front generalizing text with
  | nil => exact List.nil_prefix
  | cons c front ih =>
      obtain ⟨more, same⟩ := inside
      cases text with
      | nil =>
          have size := congrArg List.length same
          have positive := Char.utf8Size_pos c
          simp only [List.length_append, length_bytes, byteLength_cons, byteLength_nil] at size
          omega
      | cons d text =>
          obtain rfl := eq_of_bytes_cons same
          simp only [bytes, List.flatMap_cons, List.append_assoc] at same
          have later := List.append_cancel_left same
          exact List.cons_prefix_cons.mpr ⟨rfl, ih ⟨more, later⟩⟩

theorem prefix_bytes {front text : List Char} (inside : front <+: text) :
    bytes front <+: bytes text := by
  obtain ⟨rest, rfl⟩ := inside
  rw [bytes_append]
  exact List.prefix_append _ _

namespace SameFronts

variable {count : Nat} {text other : List Char}

theorem mono {fewer : Nat} (same : SameFronts count text other) (less : fewer ≤ count) :
    SameFronts fewer text other :=
  fun front short => same front (Nat.le_trans short less)

theorem symm (same : SameFronts count text other) : SameFronts count other text :=
  fun front short => (same front short).symm

/-- Behind a front of the one text, which is a front of the other too, fewer bytes are the same. -/
theorem behind {front : List Char} (same : SameFronts count (front ++ text) other)
    (inside : byteLength front ≤ count) :
    ∃ more, other = front ++ more ∧ SameFronts (count - byteLength front) text more := by
  obtain ⟨more, rfl⟩ := (same front inside).mp (List.prefix_append _ _)
  refine ⟨more, rfl, ?_⟩
  intro next short
  have longer := same (front ++ next) (by rw [byteLength_append]; omega)
  rwa [List.prefix_append_right_inj, List.prefix_append_right_inj] at longer

/-- Texts with the same fronts have the same first character, if it takes one byte. -/
theorem head? {c : Char} (same : SameFronts count text other) (short : c.utf8Size ≤ count) :
    text.head? = some c ↔ other.head? = some c := by
  have single : ∀ letters : List Char, [c] <+: letters ↔ letters.head? = some c := by
    intro letters
    cases letters <;> simp [List.cons_prefix_cons, eq_comm]
  rw [← single, ← single]
  exact same [c] (by simpa using short)

end SameFronts

theorem AgreeUpTo.sameFronts {count : Nat} {first second : String}
    (agree : AgreeUpTo count first second) : SameFronts count first.toList second.toList := by
  have taken : (bytes first.toList).take count = (bytes second.toList).take count := by
    apply List.ext_getElem?
    intro offset
    rw [List.getElem?_take, List.getElem?_take]
    split
    · next early => rw [← byteAt?_eq, ← byteAt?_eq, agree offset early]
    · rfl
  have kept : ∀ text front : List Char, byteLength front ≤ count →
      (bytes front <+: (bytes text).take count ↔ front <+: text) := by
    intro text front short
    refine ⟨fun inside => prefix_of_bytes (inside.trans (List.take_prefix _ _)), ?_⟩
    intro inside
    rw [List.prefix_take_iff, length_bytes]
    exact ⟨prefix_bytes inside, short⟩
  intro front short
  rw [← kept first.toList front short, ← kept second.toList front short, taken]

/-! ## Kinds of lexemes that grow by a few bytes -/

/-- Every text of the kind is a shorter one, or the empty text, with a few bytes more behind it. -/
def GrowsBy (count : Nat) (kind : List Char → Prop) : Prop :=
  ∀ text, kind text → ∃ front more, text = front ++ more ∧ more ≠ [] ∧ byteLength more ≤ count ∧
    (front = [] ∨ kind front)

/-- If a text of a kind goes on as a longer one, one that is longer by a few bytes only stands
between the two. -/
theorem GrowsBy.exists_next {count : Nat} {kind : List Char → Prop} (grows : GrowsBy count kind)
    {lexeme text : List Char} (member : kind text) (inside : lexeme <+: text)
    (longer : lexeme.length < text.length) :
    ∃ more, more ≠ [] ∧ byteLength more ≤ count ∧ lexeme ++ more <+: text ∧
      kind (lexeme ++ more) := by
  -- shorter and shorter texts of the kind, down to the last one that is longer than the lexeme
  generalize size : text.length = n at longer
  induction n using Nat.strongRecOn generalizing text with
  | ind n ih =>
      obtain ⟨front, more, rfl, nonempty, short, shorter⟩ := grows text member
      have positive := List.length_pos_iff.mpr nonempty
      rw [List.length_append] at size
      by_cases reached : lexeme.length < front.length
      · have some_front : front ≠ [] := by
          rintro rfl
          exact absurd reached (Nat.not_lt_zero _)
        have before : lexeme <+: front :=
          List.prefix_of_prefix_length_le inside (List.prefix_append _ _) (Nat.le_of_lt reached)
        obtain ⟨next, found, few, within, also⟩ :=
          ih front.length (by omega) (shorter.resolve_left some_front) before rfl reached
        exact ⟨next, found, few, within.trans (List.prefix_append _ _), also⟩
      · have behind : front <+: lexeme :=
          List.prefix_of_prefix_length_le (List.prefix_append _ _) inside (Nat.le_of_not_lt reached)
        obtain ⟨part, rfl⟩ := behind
        obtain ⟨rest, whole⟩ := inside
        rw [List.append_assoc, List.append_cancel_left_eq] at whole
        have split := congrArg byteLength whole
        rw [byteLength_append] at split
        rw [List.length_append] at longer
        have same : front ++ part ++ rest = front ++ more := by rw [List.append_assoc, whole]
        refine ⟨rest, ?_, by omega, ?_, ?_⟩
        · rintro rfl
          rw [List.append_nil] at whole
          rw [whole] at longer
          omega
        · exact same ▸ List.prefix_rfl
        · rw [same]
          exact member

/-- A longest lexeme stays the longest when the text behind it changes further on. -/
theorem Longest.foreseen {count : Nat} {kind : List Char → Prop} {lexeme rest other : List Char}
    (longest : Longest kind lexeme (lexeme ++ rest)) (grows : GrowsBy count kind)
    (same : SameFronts count rest other) : Longest kind lexeme (lexeme ++ other) := by
  refine ⟨longest.member, List.prefix_append _ _, ?_⟩
  intro candidate member inside
  refine Nat.le_of_not_lt fun longer => ?_
  have before : lexeme <+: candidate :=
    List.prefix_of_prefix_length_le (List.prefix_append _ _) inside (by omega)
  obtain ⟨more, nonempty, short, within, also⟩ := grows.exists_next member before (by omega)
  have here := (List.prefix_append_right_inj _).mp (within.trans inside)
  have there := (List.prefix_append_right_inj lexeme).mpr ((same more short).mpr here)
  have bound := longest.longest _ also there
  have positive := List.length_pos_iff.mpr nonempty
  rw [List.length_append] at bound
  omega

theorem TakesLongest.foreseen {count : Nat} {reader : List Char → Reading}
    {kind : List Char → Prop} {means : List Char → Token → Prop}
    (takes : TakesLongest reader kind means) (grows : GrowsBy count kind) {token : Token}
    {lexeme rest other : List Char} (reads : reader (lexeme ++ rest) = .token token lexeme rest)
    (same : SameFronts count rest other) :
    reader (lexeme ++ other) = .token token lexeme other := by
  obtain ⟨longest, _, meaning⟩ := (takes _ _ _ _).mp reads
  exact (takes _ _ _ _).mpr ⟨longest.foreseen grows same, rfl, meaning⟩

theorem isWordChar_of_isWordStart {c : Char} (start : isWordStart c = true) :
    isWordChar c = true := by
  simp only [isWordStart, Bool.or_eq_true] at start
  simp only [isWordChar, Char.isAlphanum, Bool.or_eq_true]
  rcases start with letter | underscore
  · exact Or.inl (Or.inl (Or.inl letter))
  · exact Or.inl (Or.inr underscore)

theorem utf8Size_of_isWordChar {c : Char} (inWord : isWordChar c = true) : c.utf8Size = 1 := by
  have bound : (127 : UInt32).toNat = 127 := rfl
  rw [Char.utf8Size_eq_one_iff, UInt32.le_iff_toNat_le, bound]
  simp only [isWordChar, Char.isAlphanum, Bool.or_eq_true, beq_iff_eq, Token.isAlpha_iff,
    Token.isDigit_iff] at inWord
  rcases inWord with ((letter | digit) | rfl) | rfl
  · omega
  · omega
  · decide
  · decide

theorem byteLength_singleton {c : Char} (size : c.utf8Size = 1) : byteLength [c] = 1 := by
  rw [byteLength_cons, size, byteLength_nil]

theorem growsBy_isWord : GrowsBy 1 IsWord := by
  intro text word
  cases text with
  | nil => exact word.elim
  | cons c rest =>
      obtain ⟨start, inWord⟩ := word
      rcases List.eq_nil_or_concat rest with rfl | ⟨front, d, rfl⟩
      · have size := byteLength_singleton (utf8Size_of_isWordChar (isWordChar_of_isWordStart start))
        exact ⟨[], [c], rfl, List.cons_ne_nil _ _, Nat.le_of_eq size, Or.inl rfl⟩
      · have last : isWordChar d = true := inWord d (by simp)
        have size := byteLength_singleton (utf8Size_of_isWordChar last)
        refine ⟨c :: front, [d], by simp, List.cons_ne_nil _ _, Nat.le_of_eq size, Or.inr ?_⟩
        exact ⟨start, fun e inside => inWord e (by simp [inside])⟩

theorem growsBy_isSymbol : GrowsBy 2 IsSymbol := by
  rintro _ ⟨symbol, rfl⟩
  refine ⟨[], symbol.spelling, rfl, symbol.spelling_ne_nil, ?_, Or.inl rfl⟩
  cases symbol <;> decide

/-- The last of some digits. -/
theorem AllDigits.exists_last {digits : List Char} (all : AllDigits digits)
    (nonempty : digits ≠ []) :
    ∃ front d, digits = front ++ [d] ∧ AllDigits front ∧ byteLength [d] = 1 := by
  rcases List.eq_nil_or_concat digits with none | ⟨front, d, rfl⟩
  · exact absurd none nonempty
  · have digit : d.isDigit = true := all d (by simp)
    refine ⟨front, d, by simp, fun c inside => all c (by simp [inside]), ?_⟩
    exact byteLength_singleton (utf8Size_of_isWordChar (isWordChar_of_isDigit digit))

/-- The bytes of an exponent with one digit. -/
theorem Exponent.byteLength_lexeme_le {e : Exponent} (formed : e.WellFormed) {d : Char}
    (single : e.digits = [d]) (size : byteLength [d] = 1) : byteLength e.lexeme ≤ 3 := by
  have mark : byteLength [e.mark] = 1 := by
    rcases formed.mark with mark | mark <;> rw [mark] <;> rfl
  have sign : byteLength e.sign.toList ≤ 1 := by
    cases signed : e.sign with
    | none => exact Nat.zero_le 1
    | some c => rcases formed.sign c signed with rfl | rfl <;> decide
  have split : e.lexeme = [e.mark] ++ (e.sign.toList ++ [d]) := by rw [lexeme, single]; rfl
  rw [split, byteLength_append, byteLength_append, mark, size]
  omega

/-- Without its last digit, an exponent is another one, or one digit was all it had. -/
theorem Exponent.WellFormed.shorter {e : Exponent} (formed : e.WellFormed) :
    byteLength e.lexeme ≤ 3 ∨
      ∃ (front : Exponent) (d : Char), front.WellFormed ∧ e.lexeme = front.lexeme ++ [d] ∧
        byteLength [d] = 1 := by
  obtain ⟨front, d, split, all, size⟩ := formed.digits.exists_last formed.nonempty
  by_cases single : front = []
  · rw [single, List.nil_append] at split
    exact Or.inl (byteLength_lexeme_le formed split size)
  · refine Or.inr ⟨⟨e.mark, e.sign, front⟩, d, ⟨formed.mark, formed.sign, single, all⟩, ?_, size⟩
    simp [lexeme, split]

theorem growsBy_isNumeral : GrowsBy 3 IsNumeral := by
  rintro _ ⟨⟨whole, fraction, exponent⟩, ⟨nonempty, all, part, scale⟩, rfl⟩
  simp only at nonempty all part scale
  have one_le : ∀ {d : Char}, byteLength [d] = 1 → byteLength [d] ≤ 3 := fun size => by omega
  cases exponent with
  | some e =>
      have formed := scale e rfl
      rcases formed.shorter with short | ⟨before, d, also, split, size⟩
      · have without : Numeral.WellFormed ⟨whole, fraction, none⟩ :=
          ⟨nonempty, all, part, by simp⟩
        refine ⟨_, e.lexeme, ?_, List.cons_ne_nil _ _, short, Or.inr ⟨_, without, rfl⟩⟩
        simp [Numeral.lexeme]
      · have within : Numeral.WellFormed ⟨whole, fraction, some before⟩ :=
          ⟨nonempty, all, part, by simpa using also⟩
        refine ⟨_, [d], ?_, List.cons_ne_nil _ _, one_le size, Or.inr ⟨_, within, rfl⟩⟩
        simp [Numeral.lexeme, split]
  | none =>
      cases fraction with
      | some digits =>
          have digit := part digits rfl
          by_cases bare : digits = []
          · have without : Numeral.WellFormed ⟨whole, none, none⟩ :=
              ⟨nonempty, all, by simp, by simp⟩
            refine ⟨_, ['.'], ?_, List.cons_ne_nil _ _, by decide, Or.inr ⟨_, without, rfl⟩⟩
            simp [Numeral.lexeme, bare]
          · obtain ⟨front, d, rfl, before, size⟩ := digit.exists_last bare
            have within : Numeral.WellFormed ⟨whole, some front, none⟩ :=
              ⟨nonempty, all, by simpa using before, by simp⟩
            refine ⟨_, [d], ?_, List.cons_ne_nil _ _, one_le size, Or.inr ⟨_, within, rfl⟩⟩
            simp [Numeral.lexeme]
      | none =>
          obtain ⟨front, d, rfl, before, size⟩ := all.exists_last nonempty
          refine ⟨front, [d], by simp [Numeral.lexeme], List.cons_ne_nil _ _, one_le size, ?_⟩
          by_cases single : front = []
          · exact Or.inl single
          · exact Or.inr ⟨⟨front, none, none⟩, ⟨single, before, by simp, by simp⟩,
              by simp [Numeral.lexeme]⟩

/-! ## Readings -/

namespace Token

variable {token : Token} {lexeme rest other : List Char}

theorem not_any_isWordChar_foreseen {count : Nat} (same : SameFronts count rest other)
    (enough : 1 ≤ count) (stops : rest.head?.any isWordChar = false) :
    other.head?.any isWordChar = false := by
  cases first : other.head? with
  | none => rfl
  | some c =>
      rw [Option.any_some, ← Bool.not_eq_true]
      intro inWord
      have size := utf8Size_of_isWordChar inWord
      rw [(same.head? (by omega)).mpr first, Option.any_some, inWord] at stops
      exact absurd stops (by decide)

theorem readArrayPrimitive_foreseen
    (reads : readArrayPrimitive (lexeme ++ rest) = .token token lexeme rest)
    (same : SameFronts 8 rest other) :
    readArrayPrimitive (lexeme ++ other) = .token token lexeme other := by
  obtain ⟨member, _, stops⟩ := readArrayPrimitive_eq_token_iff.mp reads
  exact readArrayPrimitive_eq_token_iff.mpr
    ⟨member, rfl, not_any_isWordChar_foreseen same (by decide) stops⟩

/-- What an array primitive has behind the word that it starts with leaves one byte of eight. -/
theorem byteLength_field {more : List Char}
    (member : (token, "Array".toList ++ more) ∈ arrayPrimitives) : byteLength more ≤ 7 := by
  rcases mem_arrayPrimitives.mp member with ⟨_, whole⟩ | ⟨_, whole⟩
  · have split : "Array".toList ++ more = "Array".toList ++ ".make".toList := whole
    rw [List.append_cancel_left split]
    decide
  · have split : "Array".toList ++ more = "Array".toList ++ ".length".toList := whole
    rw [List.append_cancel_left split]
    decide

/-- Eight bytes behind a word tell whether it is the start of an array primitive. -/
theorem readArrayPrimitive_absent_foreseen
    (reads : readWord (lexeme ++ other) = .token token lexeme other)
    (absent : readArrayPrimitive (lexeme ++ rest) = .absent) (same : SameFronts 8 rest other) :
    readArrayPrimitive (lexeme ++ other) = .absent := by
  rcases readArrayPrimitive_cases (lexeme ++ other) with
    none | ⟨found, primitive, behind, member, whole, stops, _⟩
  · exact none
  · -- the word is the module's, and what is behind it the field; both stand in the other text too
    rw [← whole] at reads
    obtain rfl := word_of_arrayPrimitive member reads
    have front : "Array".toList <+: primitive := by
      rcases mem_arrayPrimitives.mp member with ⟨_, rfl⟩ | ⟨_, rfl⟩ <;> decide
    obtain ⟨more, rfl⟩ := front
    rw [List.append_assoc] at whole
    obtain rfl := List.append_cancel_left whole
    have short := byteLength_field member
    obtain ⟨after, rfl, alike⟩ := same.symm.behind (by omega)
    have goesOn := not_any_isWordChar_foreseen alike (by omega) stops
    rw [readArrayPrimitive_eq_token_iff.mpr ⟨member, List.append_assoc .., goesOn⟩] at absent
    exact absurd absent (by simp)

/-- A token is read in the same way when the text behind its lexeme changes eight bytes further
on. -/
theorem read_foreseen (reads : read (lexeme ++ rest) = .token token lexeme rest)
    (same : SameFronts 8 rest other) : read (lexeme ++ other) = .token token lexeme other := by
  have splits := read_splits (lexeme ++ rest)
  rw [reads] at splits
  rcases read_dispatch splits.1 with string | ⟨first, parenthesis⟩ | numeral | word | symbol
  · rw [string] at reads ⊢
    exact readString_rest reads other
  · rw [parenthesis, Reading.first_pair_eq_token_iff] at reads ⊢
    rcases reads with comment | ⟨absent, symbol⟩
    · exact Or.inl (readComment_rest comment other)
    · have member := ((readSymbol_takesLongest _ _ _ _).mp symbol).1.member
      obtain rfl := eq_parenthesis_of_isSymbol member first
      rw [List.singleton_append, readComment_eq_absent_iff] at absent ⊢
      exact Or.inr ⟨mt (same.head? (by decide)).mpr absent,
        readSymbol_takesLongest.foreseen growsBy_isSymbol symbol (same.mono (by decide))⟩
  · rw [numeral] at reads ⊢
    exact readNumeral_takesLongest.foreseen growsBy_isNumeral reads (same.mono (by decide))
  · rw [word, Reading.first_pair_eq_token_iff] at reads ⊢
    rcases reads with array | ⟨absent, reads⟩
    · exact Or.inl (readArrayPrimitive_foreseen array same)
    · have again := readWord_takesLongest.foreseen growsBy_isWord reads (same.mono (by decide))
      exact Or.inr ⟨readArrayPrimitive_absent_foreseen again absent same, again⟩
  · rw [symbol] at reads ⊢
    exact readSymbol_takesLongest.foreseen growsBy_isSymbol reads (same.mono (by decide))

end Token

/-! ## Sources -/

/-- What changes eight bytes behind some of the pieces does not change them. -/
theorem Cut.foreseen {count : Nat} {text rest other : List Char} {before pieces : List Piece}
    (cut : Cut text (before ++ pieces) rest) (same : SameFronts count text other)
    (early : byteLength (spelled before) + 8 ≤ count) :
    ∃ more last, Cut other (before ++ more) last := by
  induction before generalizing text other count with
  | nil => exact exists_cut other
  | cons piece before ih =>
      rw [Piece.spelled_cons, byteLength_append] at early
      have inside : byteLength piece.text ≤ count := by omega
      cases cut with
      | @blank c behind _ _ blank later =>
          have single : SameFronts count ([c] ++ behind) other := same
          obtain ⟨after, rfl, alike⟩ := single.behind inside
          obtain ⟨more, last, goesOn⟩ := ih later alike (by simp only [Piece.text] at early; omega)
          exact ⟨more, last, .blank blank goesOn⟩
      | @token _ behind lexeme _ token _ reads later =>
          obtain ⟨-, rfl⟩ := splits_of_read reads
          simp only [Piece.text] at early inside
          obtain ⟨after, rfl, alike⟩ := same.behind inside
          obtain ⟨more, last, goesOn⟩ := ih later alike (by omega)
          exact ⟨more, last, .token (Token.read_foreseen reads (alike.mono (by omega))) goesOn⟩

/-- Tokens are at the same places in two texts that begin with them. -/
theorem located_foreseen (front : List Piece) (rest other : List Char) :
    located (.ofText (spelled front ++ rest)) 0 front =
      located (.ofText (spelled front ++ other)) 0 front := by
  have same : ∀ place ≤ byteLength (spelled front),
      (LineTable.ofText (spelled front ++ rest)).position place =
        (LineTable.ofText (spelled front ++ other)).position place := by
    intro place inside
    rw [LineTable.position_append rest inside, LineTable.position_append other inside]
  exact located_congr same (Nat.le_of_eq (Nat.zero_add _))

/-- Two sources that agree up to an offset have in common the tokens that end eight bytes before it
or earlier: such a token has the same place among the items of both, with the same payload and the
same span, whatever the sources are from there on. -/
theorem tokens_foreseen {first second : String} {count place beyond : Nat} {found : LocatedToken}
    (agree : AgreeUpTo count first second)
    (yielded : (TokenStream.ofSource first).items[place]? = some (.token found))
    (ends : found.span.stop.offsetIn? first.toList = some beyond) (early : beyond + 8 ≤ count) :
    (TokenStream.ofSource second).items[place]? = some (.token found) := by
  obtain ⟨pieces, rest, cut⟩ := exists_cut first.toList
  rw [TokenStream.items_ofSource cut] at yielded
  have here : (located (.ofText first.toList) 0 pieces)[place]? = some (.token found) := by
    rw [List.getElem?_append] at yielded
    split at yielded
    · exact yielded
    · exact absurd (List.mem_of_getElem? yielded) token_not_mem_ending
  obtain ⟨before, token, lexeme, after, rfl, same, length⟩ := exists_piece_of_getElem?_located here
  cases same
  simp only [LineTable.span, LineTable.offsetIn?_position, Option.some.injEq] at ends
  let front : List Piece := before ++ [.token token lexeme]
  have size : byteLength (spelled front) = beyond := by
    simp [front, Piece.text, ← ends]
  rw [List.append_cons] at cut
  obtain ⟨more, last, goesOn⟩ := cut.foreseen agree.sameFronts (by rw [size]; exact early)
  obtain ⟨behind, whole, _⟩ := cut.behind
  obtain ⟨further, also, _⟩ := goesOn.behind
  -- up to the token, the tokens of the two sources are the same list
  have shared : located (.ofText second.toList) 0 front = located (.ofText first.toList) 0 front := by
    rw [whole, also]
    exact located_foreseen front further behind
  rw [TokenStream.items_ofSource goesOn, located_append, List.append_assoc, shared, located_append,
    List.append_assoc, List.getElem?_append_right (Nat.le_of_eq length), length, Nat.sub_self]
  rfl

/-- Seven bytes would not be enough: "Array" ends at the fifth of the twelve bytes that these sources
have in common, and only the second source starts with it. -/
example : (TokenStream.ofSource "Array.length").items.head? ≠
    (TokenStream.ofSource "Array.lengths").items.head? := by
  decide +kernel

/-- A number and a word that goes on like an array primitive with one letter more; behind that, a
comment opens. -/
def commentedFork : String := "1 Array.lengths (*"

/-- The same up to the letter; behind that, a string literal opens. -/
def quotedFork : String := "1 Array.lengths\""

theorem array_of_commentedFork_foreseen :
    let found : LocatedToken := ⟨.ident "Array", ⟨⟨1, 3⟩, ⟨1, 8⟩⟩⟩
    (AgreeUpTo 15 commentedFork quotedFork ∧
        (TokenStream.ofSource commentedFork).items[1]? = some (.token found) ∧
        found.span.stop.offsetIn? commentedFork.toList = some 7) ∧
      (TokenStream.ofSource quotedFork).items[1]? = some (.token found) := by
  intro found
  have agree : AgreeUpTo 15 commentedFork quotedFork := by
    unfold AgreeUpTo
    decide +kernel
  have yielded : (TokenStream.ofSource commentedFork).items[1]? = some (.token found) := by
    decide +kernel
  have ends : found.span.stop.offsetIn? commentedFork.toList = some 7 := by decide +kernel
  exact ⟨⟨agree, yielded, ends⟩, tokens_foreseen agree yielded ends (by decide)⟩

end SmallMl
