import SmallMl.Proofs.Dispatch
import SmallMl.Proofs.Numerals

/-!
# How far a reading looks ahead

What a reader finds depends on the text behind the lexeme, but only on the part of it that a longer
lexeme could reach into. Blanks and opening parentheses stand in no lexeme but comments and string
literals, except in front. Main statements: a token is still read when the text behind it is cut
short at such a character, and a lexeme starts no shorter one before another text, save an array
primitive that goes on as a longer word.
-/

namespace SmallMl

/-- Whether no lexeme goes on with the character, comments and string literals apart. -/
def isBreak (c : Char) : Bool :=
  isBlank c || c == '('

/-- The text is empty or starts with a break. -/
def BreaksOff (text : List Char) : Prop :=
  ∀ c ∈ text.head?, isBreak c = true

/-- The texts of the kind are not empty, and no break stands in them behind the first character. -/
def Unbroken (kind : List Char → Prop) : Prop :=
  ∀ text, kind text → text ≠ [] ∧ ∀ c ∈ text.tail, isBreak c = false

theorem prefix_of_unbroken {front text other : List Char} (inside : front <+: text ++ other)
    (unbroken : ∀ c ∈ front, isBreak c = false) (breaks : BreaksOff other) : front <+: text := by
  obtain ⟨behind, whole⟩ := inside
  rcases List.append_eq_append_iff.mp whole with ⟨more, same, _⟩ | ⟨more, same, rest⟩
  · exact ⟨more, same.symm⟩
  · cases more with
    | nil => exact ⟨[], by simpa using same⟩
    | cons c more =>
        have stops := breaks c (by rw [rest]; rfl)
        have goesOn := unbroken c (by rw [same]; simp)
        rw [goesOn] at stops
        exact absurd stops Bool.false_ne_true

/-- A longest lexeme stays the longest when the text is cut off behind it at a break. -/
theorem Longest.cut {kind : List Char → Prop} {lexeme more rest other : List Char}
    (longest : Longest kind lexeme (lexeme ++ (more ++ rest))) (unbroken : Unbroken kind)
    (breaks : BreaksOff other) : Longest kind lexeme (lexeme ++ (more ++ other)) := by
  refine ⟨longest.member, List.prefix_append _ _, ?_⟩
  intro candidate member inside
  apply longest.longest candidate member
  obtain ⟨nonempty, clean⟩ := unbroken candidate member
  obtain ⟨c, tail, rfl⟩ := List.exists_cons_of_ne_nil nonempty
  obtain ⟨d, behind, rfl⟩ := List.exists_cons_of_ne_nil (unbroken lexeme longest.member).1
  rw [List.cons_append, List.cons_prefix_cons, ← List.append_assoc] at inside
  have kept := prefix_of_unbroken inside.2 clean breaks
  rw [List.cons_append, List.cons_prefix_cons, ← List.append_assoc]
  exact ⟨inside.1, kept.trans (List.prefix_append _ _)⟩

theorem TakesLongest.cut {reader : List Char → Reading} {kind : List Char → Prop}
    {means : List Char → Token → Prop} (takes : TakesLongest reader kind means)
    (unbroken : Unbroken kind) {token : Token} {lexeme more rest other : List Char}
    (reads : reader (lexeme ++ (more ++ rest)) = .token token lexeme (more ++ rest))
    (breaks : BreaksOff other) :
    reader (lexeme ++ (more ++ other)) = .token token lexeme (more ++ other) := by
  obtain ⟨longest, _, meaning⟩ := (takes _ _ _ _).mp reads
  exact (takes _ _ _ _).mpr ⟨longest.cut unbroken breaks, rfl, meaning⟩

theorem TakesLongest.length_le {reader : List Char → Reading} {kind : List Char → Prop}
    {means : List Char → Token → Prop} (takes : TakesLongest reader kind means)
    {token first : Token} {text behind more lexeme rest : List Char}
    (before : reader (text ++ behind) = .token first text behind)
    (reads : reader (text ++ more) = .token token lexeme rest) : text.length ≤ lexeme.length := by
  have member := ((takes _ _ _ _).mp before).1.member
  exact ((takes _ _ _ _).mp reads).1.longest text member (List.prefix_append _ _)

/-! ## The three kinds of lexemes have no break inside -/

theorem isBreak_of_isWordChar {c : Char} (inWord : isWordChar c = true) : isBreak c = false := by
  cases breaks : isBreak c with
  | false => rfl
  | true =>
      simp only [isBreak, isBlank, Bool.or_eq_true, beq_iff_eq] at breaks
      rcases breaks with (((rfl | rfl) | rfl) | rfl) | rfl <;> exact absurd inWord (by decide)

theorem isWordChar_of_isDigit {c : Char} (digit : c.isDigit = true) : isWordChar c = true := by
  simp [isWordChar, Char.isAlphanum, digit]

theorem unbroken_isWord : Unbroken IsWord := by
  intro text word
  cases text with
  | nil => exact word.elim
  | cons c rest =>
      exact ⟨List.cons_ne_nil _ _, fun d inside => isBreak_of_isWordChar (word.2 d inside)⟩

theorem isBreak_of_any {text : List Char} (clean : text.any isBreak = false) :
    ∀ c ∈ text, isBreak c = false :=
  fun c inside => Bool.eq_false_iff.mpr (List.any_eq_false.mp clean c inside)

theorem unbroken_isSymbol : Unbroken IsSymbol := by
  rintro _ ⟨symbol, rfl⟩
  exact ⟨symbol.spelling_ne_nil, isBreak_of_any (by cases symbol <;> decide)⟩

theorem AllDigits.unbroken {text : List Char} (digits : AllDigits text) :
    ∀ c ∈ text, isBreak c = false :=
  fun c inside => isBreak_of_isWordChar (isWordChar_of_isDigit (digits c inside))

theorem Exponent.WellFormed.unbroken {e : Exponent} (formed : e.WellFormed) :
    ∀ c ∈ e.lexeme, isBreak c = false := by
  intro c inside
  simp only [Exponent.lexeme, List.mem_cons, List.mem_append, Option.mem_toList] at inside
  rcases inside with rfl | signed | digit
  · rcases formed.mark with mark | mark <;> rw [mark] <;> decide
  · rcases formed.sign c signed with rfl | rfl <;> decide
  · exact formed.digits.unbroken c digit

theorem unbroken_isNumeral : Unbroken IsNumeral := by
  rintro _ ⟨n, formed, rfl⟩
  have clean : ∀ c ∈ n.lexeme, isBreak c = false := by
    intro c inside
    simp only [Numeral.lexeme, List.mem_append] at inside
    rcases inside with (whole | fraction) | exponent
    · exact formed.whole.unbroken c whole
    · split at fraction
      · next digits some =>
          rcases List.mem_cons.mp fraction with rfl | digit
          · decide
          · exact (formed.fraction digits some).unbroken c digit
      · exact absurd fraction List.not_mem_nil
    · split at exponent
      · next e some => exact (formed.exponent e some).unbroken c exponent
      · exact absurd exponent List.not_mem_nil
  refine ⟨by simp [Numeral.lexeme, formed.nonempty], ?_⟩
  intro c inside
  exact clean c (List.mem_of_mem_tail inside)

/-! ## Comments and string literals end by themselves -/

theorem Comment.scan_front {depth : Nat} {seen text body rest : List Char}
    (closed : scan depth seen text = some (body, rest)) :
    ∃ front, front ≠ [] ∧ text = front ++ rest ∧
      ∀ other, scan depth seen (front ++ other) = some (body, other) := by
  fun_induction scan depth seen text with
  | case1 => exact absurd closed (by simp)
  | case2 seen behind =>
      cases closed
      exact ⟨['*', ')'], List.cons_ne_nil _ _, rfl, fun other => rfl⟩
  | case3 seen behind depth ih =>
      obtain ⟨front, _, rfl, same⟩ := ih closed
      exact ⟨'*' :: ')' :: front, List.cons_ne_nil _ _, rfl, same⟩
  | case4 depth seen behind ih =>
      obtain ⟨front, _, rfl, same⟩ := ih closed
      exact ⟨'(' :: '*' :: front, List.cons_ne_nil _ _, rfl, same⟩
  | case5 depth seen c behind closes opens ih =>
      obtain ⟨front, nonempty, rfl, same⟩ := ih closed
      obtain ⟨d, front, rfl⟩ := List.exists_cons_of_ne_nil nonempty
      refine ⟨c :: d :: front, List.cons_ne_nil _ _, rfl, ?_⟩
      intro other
      rw [← same other, List.cons_append, List.cons_append, scan]
      · rintro _ rfl same
        cases same
        exact closes _ rfl rfl
      · rintro _ rfl same
        cases same
        exact opens _ rfl rfl

theorem StringLiteral.body?_written {text : List Char} {part : Part}
    (closed : body? text = some part) (other : List Char) :
    body? (part.written ++ other) = some ⟨part.value, part.written, other⟩ := by
  fun_induction body? text generalizing part with
  | case1 => exact absurd closed (by simp)
  | case2 => cases closed; rfl
  | case3 c rest value meaning ih =>
      obtain ⟨inner, read, rfl⟩ := Option.map_eq_some_iff.mp closed
      simp [Part.cons, body?, meaning, ih read]
  | case4 => exact absurd closed (by simp)
  | case5 => exact absurd closed (by simp)
  | case6 c rest quote escape feed ih =>
      obtain ⟨inner, read, rfl⟩ := Option.map_eq_some_iff.mp closed
      have noEscape : ∀ d rest, c = '\\' → inner.written ++ other = d :: rest → False := by
        rintro d behind rfl _
        cases rest with
        | nil => exact absurd read (by simp [body?])
        | cons d rest => exact escape d rest rfl rfl
      simp only [Part.cons, List.cons_append, List.nil_append]
      rw [body?, ih read]
      · rfl
      · exact quote
      · exact noEscape
      · exact feed

namespace Token

theorem readComment_rest {token : Token} {lexeme rest : List Char}
    (reads : readComment (lexeme ++ rest) = .token token lexeme rest) (other : List Char) :
    readComment (lexeme ++ other) = .token token lexeme other := by
  generalize whole : lexeme ++ rest = text at reads
  unfold readComment at reads
  split at reads
  · next inner =>
      split at reads
      · next body behind closed =>
          cases reads
          simp only [Comment.body?, Option.map_eq_some_iff, Prod.exists, Prod.mk.injEq] at closed
          obtain ⟨seen, _, scanned, rfl, rfl⟩ := closed
          obtain ⟨front, _, rfl, same⟩ := Comment.scan_front scanned
          have marks : seen.reverse ++ ['*', ')'] = front := by
            have spelled := Comment.scan_eq_some scanned
            exact List.append_cancel_right (by simpa using spelled)
          have again : Comment.body? (seen.reverse ++ ['*', ')'] ++ other) =
              some (seen.reverse, other) := by
            rw [marks, Comment.body?, same other]
            rfl
          simp only [List.cons_append, readComment, again]
      · exact absurd reads (by simp)
  · exact absurd reads (by simp)

theorem readString_rest {token : Token} {lexeme rest : List Char}
    (reads : readString (lexeme ++ rest) = .token token lexeme rest) (other : List Char) :
    readString (lexeme ++ other) = .token token lexeme other := by
  generalize whole : lexeme ++ rest = text at reads
  unfold readString at reads
  split at reads
  · split at reads
    · next part closed =>
        cases reads
        simp only [List.cons_append, readString, StringLiteral.body?_written closed other]
    · exact absurd reads (by simp)
  · exact absurd reads (by simp)

/-! ## Array primitives -/

theorem mem_arrayPrimitives {token : Token} {lexeme : List Char} :
    (token, lexeme) ∈ arrayPrimitives ↔
      (token = arrayMake ∧ lexeme = "Array.make".toList) ∨
        (token = arrayLength ∧ lexeme = "Array.length".toList) := by
  simp [arrayPrimitives]

/-- The reading of an array primitive in the list of them, where there is one. -/
theorem readArrayPrimitive_cases (text : List Char) :
    readArrayPrimitive text = .absent ∨
      ∃ token lexeme rest, (token, lexeme) ∈ arrayPrimitives ∧ lexeme ++ rest = text ∧
        rest.head?.any isWordChar = false ∧
        readArrayPrimitive text = .token token lexeme rest := by
  simp only [readArrayPrimitive]
  cases found : arrayPrimitives.findSome? _ with
  | none => exact Or.inl rfl
  | some reading =>
      right
      obtain ⟨⟨token, lexeme⟩, member, here⟩ := List.exists_of_findSome?_eq_some found
      simp only at here
      split at here
      · next rest matched =>
          split at here
          · exact absurd here (by simp)
          · next stops =>
              cases here
              exact ⟨token, lexeme, rest, member, behind?_eq_some matched,
                Bool.eq_false_iff.mpr stops, rfl⟩
      · exact absurd here (by simp)

theorem readArrayPrimitive_eq_token_iff {text lexeme rest : List Char} {token : Token} :
    readArrayPrimitive text = .token token lexeme rest ↔
      (token, lexeme) ∈ arrayPrimitives ∧ lexeme ++ rest = text ∧
        rest.head?.any isWordChar = false := by
  constructor
  · intro reads
    rcases readArrayPrimitive_cases text with absent | ⟨_, _, _, member, whole, stops, found⟩
    · rw [absent] at reads
      exact absurd reads (by simp)
    · rw [found] at reads
      cases reads
      exact ⟨member, whole, stops⟩
  · rintro ⟨member, rfl, stops⟩
    rcases mem_arrayPrimitives.mp member with ⟨rfl, rfl⟩ | ⟨rfl, rfl⟩
    · rw [readArrayPrimitive, arrayPrimitives]
      generalize "Array.make".toList = make
      simp [behind?_append, stops]
    · have other : behind? "Array.make".toList ("Array.length".toList ++ rest) = none :=
        behind?_eq_none (by simp)
      rw [readArrayPrimitive, arrayPrimitives]
      generalize "Array.make".toList = make at other
      generalize "Array.length".toList = length at other
      simp [other, behind?_append, stops]

/-- A point stands in each array primitive, and in no word. -/
theorem not_isWord_of_arrayPrimitive {token : Token} {lexeme text : List Char}
    (member : (token, lexeme) ∈ arrayPrimitives) (front : lexeme <+: text) : ¬ IsWord text := by
  intro word
  have point : '.' ∈ lexeme.tail := by
    rcases mem_arrayPrimitives.mp member with ⟨_, rfl⟩ | ⟨_, rfl⟩ <;> decide
  obtain ⟨rest, rfl⟩ := front
  cases lexeme with
  | nil => exact absurd point List.not_mem_nil
  | cons c lexeme =>
      have inWord := word.2 '.' (List.mem_append_left _ point)
      exact absurd inWord (by decide)

theorem unbroken_arrayPrimitive {token : Token} {lexeme : List Char}
    (member : (token, lexeme) ∈ arrayPrimitives) : ∀ c ∈ lexeme, isBreak c = false := by
  apply isBreak_of_any
  rcases mem_arrayPrimitives.mp member with ⟨_, rfl⟩ | ⟨_, rfl⟩ <;> decide

theorem not_any_isWordChar_of_breaksOff {text : List Char} (breaks : BreaksOff text) :
    text.head?.any isWordChar = false := by
  cases text with
  | nil => rfl
  | cons c rest =>
      rw [List.head?_cons, Option.any_some]
      cases inWord : isWordChar c with
      | false => rfl
      | true =>
          have stops := breaks c rfl
          rw [isBreak_of_isWordChar inWord] at stops
          exact absurd stops Bool.false_ne_true

/-- What follows a lexeme goes on as a word only if it did so before it was cut off. -/
theorem any_isWordChar_cut {more other : List Char} (rest : List Char) (breaks : BreaksOff other)
    (goesOn : (more ++ other).head?.any isWordChar = true) :
    (more ++ rest).head?.any isWordChar = true := by
  cases more with
  | nil =>
      rw [List.nil_append, not_any_isWordChar_of_breaksOff breaks] at goesOn
      exact absurd goesOn Bool.false_ne_true
  | cons c more => exact goesOn

theorem readArrayPrimitive_cut {token : Token} {lexeme more rest other : List Char}
    (reads : readArrayPrimitive (lexeme ++ (more ++ rest)) = .token token lexeme (more ++ rest))
    (breaks : BreaksOff other) :
    readArrayPrimitive (lexeme ++ (more ++ other)) = .token token lexeme (more ++ other) := by
  obtain ⟨member, _, stops⟩ := readArrayPrimitive_eq_token_iff.mp reads
  refine readArrayPrimitive_eq_token_iff.mpr ⟨member, rfl, ?_⟩
  rw [← Bool.not_eq_true] at stops ⊢
  exact mt (any_isWordChar_cut rest breaks) stops

/-- A word that is not read as an array primitive is not read as one when the text behind it is cut
off at a break, provided that a break stood there before or nothing is left of the text. -/
theorem readArrayPrimitive_absent_cut {word more rest other : List Char} (isWord : IsWord word)
    (absent : readArrayPrimitive (word ++ (more ++ rest)) = .absent) (breaks : BreaksOff other)
    (free : more = [] ∨ BreaksOff rest) :
    readArrayPrimitive (word ++ (more ++ other)) = .absent := by
  rcases readArrayPrimitive_cases (word ++ (more ++ other)) with
    none | ⟨token, lexeme, behind, member, whole, stops, _⟩
  · exact none
  · rw [← List.append_assoc] at whole
    have inside : lexeme <+: word ++ more :=
      prefix_of_unbroken ⟨behind, whole⟩ (unbroken_arrayPrimitive member) breaks
    obtain ⟨kept, split⟩ := inside
    have before : behind = kept ++ other := by
      rw [← split, List.append_assoc] at whole
      exact List.append_cancel_left whole
    have reads : readArrayPrimitive (word ++ (more ++ rest)) =
        .token token lexeme (kept ++ rest) := by
      refine readArrayPrimitive_eq_token_iff.mpr ⟨member, ?_, ?_⟩
      · rw [← List.append_assoc, split, List.append_assoc]
      · rcases free with rfl | breaksThere
        · rw [List.append_nil] at split
          exact absurd isWord (not_isWord_of_arrayPrimitive member ⟨kept, split⟩)
        · rw [before] at stops
          rw [← Bool.not_eq_true] at stops ⊢
          exact mt (any_isWordChar_cut other breaksThere) stops
    rw [reads] at absent
    exact absurd absent (by simp)

/-! ## Tokens -/

theorem readComment_eq_absent_iff {text : List Char} :
    readComment ('(' :: text) = .absent ↔ text.head? ≠ some '*' := by
  cases text with
  | nil => simp [readComment]
  | cons c text =>
      by_cases star : c = '*'
      · subst star
        simp only [readComment, List.head?_cons, ne_eq, not_true_eq_false, iff_false]
        split <;> simp
      · simp [readComment, star]

/-- The parenthesis is the only symbol that starts with one. -/
theorem eq_parenthesis_of_isSymbol {lexeme : List Char} (isSymbol : IsSymbol lexeme)
    (first : lexeme.head? = some '(') : lexeme = ['('] := by
  obtain ⟨symbol, rfl⟩ := isSymbol
  have only : ∀ one ∈ Symbol.all, one.spelling.head? = some '(' → one.spelling = ['('] := by
    decide
  exact only symbol (Symbol.mem_all symbol) first

/-- A parenthesis that opens no comment opens none when the text behind it is cut off at a break. -/
theorem readComment_absent_cut {more rest other : List Char}
    (absent : readComment (['('] ++ (more ++ rest)) = .absent) (breaks : BreaksOff other) :
    readComment (['('] ++ (more ++ other)) = .absent := by
  rw [List.singleton_append, readComment_eq_absent_iff] at absent ⊢
  cases more with
  | nil =>
      intro star
      exact absurd (breaks '*' star) (by decide)
  | cons c more => exact absent

/-- A token is read in the same way when the text behind its lexeme is cut off at a break, provided
that a break stood there before or nothing is left of the text. -/
theorem read_cut {token : Token} {lexeme more rest other : List Char}
    (reads : read (lexeme ++ (more ++ rest)) = .token token lexeme (more ++ rest))
    (breaks : BreaksOff other) (free : more = [] ∨ BreaksOff rest) :
    read (lexeme ++ (more ++ other)) = .token token lexeme (more ++ other) := by
  have splits := read_splits (lexeme ++ (more ++ rest))
  rw [reads] at splits
  rcases read_dispatch splits.1 with string | ⟨first, parenthesis⟩ | numeral | word | symbol
  · rw [string] at reads ⊢
    exact readString_rest reads (more ++ other)
  · rw [parenthesis, Reading.first_pair_eq_token_iff] at reads ⊢
    rcases reads with comment | ⟨absent, symbol⟩
    · exact Or.inl (readComment_rest comment (more ++ other))
    · have member := ((readSymbol_takesLongest _ _ _ _).mp symbol).1.member
      obtain rfl := eq_parenthesis_of_isSymbol member first
      exact Or.inr ⟨readComment_absent_cut absent breaks,
        readSymbol_takesLongest.cut unbroken_isSymbol symbol breaks⟩
  · rw [numeral] at reads ⊢
    exact readNumeral_takesLongest.cut unbroken_isNumeral reads breaks
  · rw [word, Reading.first_pair_eq_token_iff] at reads ⊢
    rcases reads with array | ⟨absent, reads⟩
    · exact Or.inl (readArrayPrimitive_cut array breaks)
    · have isWord := ((readWord_takesLongest _ _ _ _).mp reads).1.member
      exact Or.inr ⟨readArrayPrimitive_absent_cut isWord absent breaks free,
        readWord_takesLongest.cut unbroken_isWord reads breaks⟩
  · rw [symbol] at reads ⊢
    exact readSymbol_takesLongest.cut unbroken_isSymbol reads breaks

/-- The part of an array primitive's lexeme that is a word. -/
theorem word_of_arrayPrimitive {token found : Token} {primitive more lexeme rest : List Char}
    (member : (token, primitive) ∈ arrayPrimitives)
    (reads : readWord (primitive ++ more) = .token found lexeme rest) :
    lexeme = "Array".toList := by
  rcases mem_arrayPrimitives.mp member with ⟨_, rfl⟩ | ⟨_, rfl⟩ <;>
  · cases reads
    rfl

theorem arrayPrimitive_unique {first second : Token} {one other text : List Char}
    (here : (first, one) ∈ arrayPrimitives) (there : (second, other) ∈ arrayPrimitives)
    (front : one <+: text) (alsoFront : other <+: text) : one = other := by
  have same := List.prefix_or_prefix_of_prefix front alsoFront
  rcases mem_arrayPrimitives.mp here with ⟨_, rfl⟩ | ⟨_, rfl⟩ <;>
    rcases mem_arrayPrimitives.mp there with ⟨_, rfl⟩ | ⟨_, rfl⟩
  · rfl
  · exact absurd same (by decide)
  · exact absurd same (by decide)
  · rfl

/-- A lexeme that is read before one text starts no shorter one before another, save an array
primitive that goes on as a longer word. -/
theorem length_le_of_read {first token : Token} {text behind more lexeme rest : List Char}
    (before : read (text ++ behind) = .token first text behind)
    (reads : read (text ++ more) = .token token lexeme rest) :
    text.length ≤ lexeme.length ∨
      ((first, text) ∈ arrayPrimitives ∧ lexeme = "Array".toList ∧
        more.head?.any isWordChar = true) := by
  have own := read_splits (text ++ behind)
  have splits := read_splits (text ++ more)
  rw [before] at own
  rw [reads] at splits
  rcases read_dispatch own.1 with string | ⟨front, parenthesis⟩ | numeral | word | symbol
  · left
    rw [string] at before reads
    rw [readString_rest before more] at reads
    cases reads
    exact Nat.le_refl _
  · left
    rw [parenthesis, Reading.first_pair_eq_token_iff] at before reads
    rcases before with comment | ⟨_, symbol⟩
    · rw [readComment_rest comment more] at reads
      rcases reads with same | ⟨absent, _⟩
      · cases same
        exact Nat.le_refl _
      · exact absurd absent (by simp)
    · have member := ((readSymbol_takesLongest _ _ _ _).mp symbol).1.member
      rw [eq_parenthesis_of_isSymbol member front]
      exact List.length_pos_iff.mpr splits.1
  · left
    rw [numeral] at before reads
    exact readNumeral_takesLongest.length_le before reads
  · rw [word, Reading.first_pair_eq_token_iff] at before reads
    rcases before with array | ⟨_, before⟩
    · have member := (readArrayPrimitive_eq_token_iff.mp array).1
      rcases reads with other | ⟨absent, reads⟩
      · left
        obtain ⟨also, whole, _⟩ := readArrayPrimitive_eq_token_iff.mp other
        have same := arrayPrimitive_unique member also (List.prefix_append _ _) ⟨rest, whole⟩
        exact Nat.le_of_eq (congrArg List.length same)
      · right
        refine ⟨member, word_of_arrayPrimitive member reads, ?_⟩
        cases goesOn : more.head?.any isWordChar with
        | true => rfl
        | false =>
            rw [readArrayPrimitive_eq_token_iff.mpr ⟨member, rfl, goesOn⟩] at absent
            exact absurd absent (by simp)
    · left
      rcases reads with array | ⟨_, reads⟩
      · obtain ⟨member, whole, _⟩ := readArrayPrimitive_eq_token_iff.mp array
        have isWord := ((readWord_takesLongest _ _ _ _).mp before).1.member
        rcases Nat.le_total text.length lexeme.length with shorter | longer
        · exact shorter
        · have inside : lexeme <+: text :=
            List.prefix_of_prefix_length_le ⟨rest, whole⟩ (List.prefix_append _ _) longer
          exact absurd isWord (not_isWord_of_arrayPrimitive member inside)
      · exact readWord_takesLongest.length_le before reads
  · left
    rw [symbol] at before reads
    exact readSymbol_takesLongest.length_le before reads

end Token

end SmallMl
