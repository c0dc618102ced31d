import SmallMl.Token.Reader
import SmallMl.Stream.Basic

/-!
# The first character chooses the reader

Readers are tried in order, but for most first characters only one of them can find anything. Main
statements: a quotation mark leaves string literals, a digit numerals, a letter or an underscore
array primitives and words, a parenthesis comments and symbols, and everything else symbols.
-/

namespace SmallMl

namespace Reading

theorem first_of_absent {text : List Char} {reader : List Char → Reading}
    {others : List (List Char → Reading)} (absent : reader text = .absent) :
    first text (reader :: others) = first text others := by
  rw [first, absent]

theorem first_eq_absent {text : List Char} {readers : List (List Char → Reading)}
    (each : ∀ reader ∈ readers, reader text = .absent) : first text readers = .absent := by
  induction readers with
  | nil => rfl
  | cons reader others ih =>
      rw [first_of_absent (each reader (List.mem_cons_self ..))]
      exact ih fun other member => each other (List.mem_cons_of_mem _ member)

theorem first_of_others_absent {text : List Char} {reader : List Char → Reading}
    {others : List (List Char → Reading)} (each : ∀ other ∈ others, other text = .absent) :
    first text (reader :: others) = reader text := by
  rw [first, first_eq_absent each]
  cases reader text <;> rfl

theorem first_congr {text : List Char} {reader : List Char → Reading}
    {others more : List (List Char → Reading)} (same : first text others = first text more) :
    first text (reader :: others) = first text (reader :: more) := by
  rw [first, first, same]

/-- Of two readers, the second reads what the first leaves to it. -/
theorem first_pair_eq_token_iff {text lexeme rest : List Char} {token : Token}
    {one other : List Char → Reading} :
    first text [one, other] = .token token lexeme rest ↔
      one text = .token token lexeme rest ∨
        (one text = .absent ∧ other text = .token token lexeme rest) := by
  cases here : one text <;> cases there : other text <;> simp [first, here, there]

end Reading

namespace Token

variable {c : Char} (rest : List Char)

theorem readComment_absent (other : c ≠ '(') : readComment (c :: rest) = .absent := by
  unfold readComment
  split
  · next same =>
      cases same
      exact absurd rfl other
  · rfl

theorem readString_absent (other : c ≠ '"') : readString (c :: rest) = .absent := by
  unfold readString
  split
  · next same =>
      cases same
      exact absurd rfl other
  · rfl

theorem readNumeral_absent (other : c.isDigit = false) : readNumeral (c :: rest) = .absent := by
  have none : Numeral.split? (c :: rest) = none := by
    simp [Numeral.split?, digitRun, other]
  rw [readNumeral, none]

theorem readWord_absent (other : isWordStart c = false) : readWord (c :: rest) = .absent := by
  rw [readWord, if_neg (by rw [other]; exact Bool.false_ne_true)]

theorem behind?_eq_none_of_head {first : Char} {lexeme : List Char} (other : first ≠ c) :
    behind? (first :: lexeme) (c :: rest) = none := by
  simp [behind?, List.isPrefixOf, other]

theorem readArrayPrimitive_absent (other : c ≠ 'A') :
    readArrayPrimitive (c :: rest) = .absent := by
  have make : behind? "Array.make".toList (c :: rest) = none :=
    behind?_eq_none_of_head rest other.symm
  have length : behind? "Array.length".toList (c :: rest) = none :=
    behind?_eq_none_of_head rest other.symm
  simp only [readArrayPrimitive, arrayPrimitives, List.findSome?_cons, List.findSome?_nil, make,
    length]
  rfl

theorem readSymbol_absent (other : ∀ symbol : Symbol, c ∉ symbol.spelling.head?) :
    readSymbol (c :: rest) = .absent := by
  have none : Symbol.split? (c :: rest) = none := by
    rw [Symbol.split?, List.findSome?_eq_none_iff]
    intro symbol _
    have differs := other symbol
    cases spelled : symbol.spelling with
    | nil => exact absurd spelled symbol.spelling_ne_nil
    | cons d lexeme =>
        rw [spelled] at differs
        rw [behind?_eq_none_of_head rest (fun same => differs (by rw [same]; rfl))]
        rfl
  rw [readSymbol, none]

theorem isDigit_iff : c.isDigit = true ↔ 48 ≤ c.val.toNat ∧ c.val.toNat ≤ 57 := by
  simp [Char.isDigit, UInt32.le_iff_toNat_le]

theorem isAlpha_iff : c.isAlpha = true ↔
    (65 ≤ c.val.toNat ∧ c.val.toNat ≤ 90) ∨ (97 ≤ c.val.toNat ∧ c.val.toNat ≤ 122) := by
  change (decide (c.val ≥ 'A'.val ∧ c.val ≤ 'Z'.val) ||
    (decide (c.val ≥ 'a'.val) && decide (c.val ≤ 'z'.val))) = true ↔ _
  simp [UInt32.le_iff_toNat_le]

theorem not_isWordStart_of_isDigit (digit : c.isDigit = true) : isWordStart c = false := by
  have range := isDigit_iff.mp digit
  rw [isWordStart, Bool.or_eq_false_iff, ← Bool.not_eq_true, isAlpha_iff, beq_eq_false_iff_ne]
  refine ⟨by omega, ?_⟩
  rintro rfl
  exact absurd digit (by decide)

theorem not_isDigit_of_isWordStart (start : isWordStart c = true) : c.isDigit = false := by
  cases digit : c.isDigit with
  | false => rfl
  | true =>
      rw [not_isWordStart_of_isDigit digit] at start
      exact absurd start Bool.false_ne_true

/-- No symbol starts as a word, a numeral or a string literal does. -/
theorem not_mem_spelling_head
    (other : c = '"' ∨ c.isDigit = true ∨ isWordStart c = true ∨ isBlank c = true)
    (symbol : Symbol) : c ∉ symbol.spelling.head? := by
  intro first
  have none : symbol.spelling.head?.any (fun d => d == '"' || (d.isDigit || (isWordStart d ||
      isBlank d))) = false := by
    cases symbol <;> decide
  rw [Option.mem_def.mp first, Option.any_some, Bool.eq_false_iff] at none
  exact none (by simpa using other)

theorem ne_of_isWordStart {d : Char} (start : isWordStart c = true)
    (other : isWordStart d = false) : c ≠ d := by
  rintro rfl
  rw [other] at start
  exact absurd start Bool.false_ne_true

theorem read_of_quote : read ('"' :: rest) = readString ('"' :: rest) := by
  have symbol : readSymbol ('"' :: rest) = .absent :=
    readSymbol_absent rest (not_mem_spelling_head (Or.inl rfl))
  rw [read, readers, Reading.first_of_absent (readComment_absent rest (by decide))]
  apply Reading.first_of_others_absent
  simp only [List.forall_mem_cons, List.not_mem_nil, false_imp_iff, implies_true, and_true]
  exact ⟨readArrayPrimitive_absent rest (by decide), readNumeral_absent rest (by decide),
    readWord_absent rest (by decide), symbol⟩

theorem read_of_isDigit (digit : c.isDigit = true) :
    read (c :: rest) = readNumeral (c :: rest) := by
  have differs : ∀ d : Char, d.isDigit = false → c ≠ d := by
    rintro d other rfl
    rw [other] at digit
    exact absurd digit Bool.false_ne_true
  have symbol : readSymbol (c :: rest) = .absent :=
    readSymbol_absent rest (not_mem_spelling_head (Or.inr (Or.inl digit)))
  rw [read, readers, Reading.first_of_absent (readComment_absent rest (differs _ (by decide))),
    Reading.first_of_absent (readString_absent rest (differs _ (by decide))),
    Reading.first_of_absent (readArrayPrimitive_absent rest (differs _ (by decide)))]
  apply Reading.first_of_others_absent
  simp only [List.forall_mem_cons, List.not_mem_nil, false_imp_iff, implies_true, and_true]
  exact ⟨readWord_absent rest (not_isWordStart_of_isDigit digit), symbol⟩

theorem read_of_isWordStart (start : isWordStart c = true) :
    read (c :: rest) = Reading.first (c :: rest) [readArrayPrimitive, readWord] := by
  have symbol : readSymbol (c :: rest) = .absent :=
    readSymbol_absent rest (not_mem_spelling_head (Or.inr (Or.inr (Or.inl start))))
  have numeral := readNumeral_absent rest (not_isDigit_of_isWordStart start)
  rw [read, readers,
    Reading.first_of_absent (readComment_absent rest (ne_of_isWordStart start (by decide))),
    Reading.first_of_absent (readString_absent rest (ne_of_isWordStart start (by decide)))]
  apply Reading.first_congr
  rw [Reading.first_of_absent numeral]
  exact Reading.first_congr (Reading.first_of_absent symbol)

theorem read_of_parenthesis :
    read ('(' :: rest) = Reading.first ('(' :: rest) [readComment, readSymbol] := by
  apply Reading.first_congr
  rw [Reading.first_of_absent (readString_absent rest (by decide)),
    Reading.first_of_absent (readArrayPrimitive_absent rest (by decide)),
    Reading.first_of_absent (readNumeral_absent rest (by decide)),
    Reading.first_of_absent (readWord_absent rest (by decide))]

theorem read_of_other (parenthesis : c ≠ '(') (quote : c ≠ '"') (digit : c.isDigit = false)
    (start : isWordStart c = false) : read (c :: rest) = readSymbol (c :: rest) := by
  have array : c ≠ 'A' := by
    rintro rfl
    exact absurd start (by decide)
  rw [read, readers, Reading.first_of_absent (readComment_absent rest parenthesis),
    Reading.first_of_absent (readString_absent rest quote),
    Reading.first_of_absent (readArrayPrimitive_absent rest array),
    Reading.first_of_absent (readNumeral_absent rest digit),
    Reading.first_of_absent (readWord_absent rest start)]
  exact Reading.first_of_others_absent (by simp)

/-- Which readers decide about a text is told from the front of a lexeme, whatever follows it. -/
theorem read_dispatch {lexeme : List Char} (nonempty : lexeme ≠ []) :
    (∀ rest, read (lexeme ++ rest) = readString (lexeme ++ rest)) ∨
      (lexeme.head? = some '(' ∧ ∀ rest, read (lexeme ++ rest) =
        Reading.first (lexeme ++ rest) [readComment, readSymbol]) ∨
      (∀ rest, read (lexeme ++ rest) = readNumeral (lexeme ++ rest)) ∨
      (∀ rest, read (lexeme ++ rest) =
        Reading.first (lexeme ++ rest) [readArrayPrimitive, readWord]) ∨
      ∀ rest, read (lexeme ++ rest) = readSymbol (lexeme ++ rest) := by
  obtain ⟨c, tail, rfl⟩ := List.exists_cons_of_ne_nil nonempty
  by_cases quote : c = '"'
  · subst quote
    exact Or.inl fun rest => read_of_quote _
  · by_cases parenthesis : c = '('
    · subst parenthesis
      exact Or.inr (Or.inl ⟨rfl, fun rest => read_of_parenthesis _⟩)
    · cases digit : c.isDigit with
      | true => exact Or.inr (Or.inr (Or.inl fun rest => read_of_isDigit _ digit))
      | false =>
          cases start : isWordStart c with
          | true =>
              exact Or.inr (Or.inr (Or.inr (Or.inl fun rest => read_of_isWordStart _ start)))
          | false =>
              exact Or.inr (Or.inr (Or.inr (Or.inr
                fun rest => read_of_other _ parenthesis quote digit start)))

/-- No token starts with a blank. -/
theorem read_of_isBlank (blank : isBlank c = true) : read (c :: rest) = .absent := by
  have symbol : readSymbol (c :: rest) = .absent :=
    readSymbol_absent rest (not_mem_spelling_head (Or.inr (Or.inr (Or.inr blank))))
  have other : c ≠ '(' ∧ c ≠ '"' ∧ c.isDigit = false ∧ isWordStart c = false := by
    simp only [isBlank, Bool.or_eq_true, beq_iff_eq] at blank
    rcases blank with ((rfl | rfl) | rfl) | rfl <;> decide
  rw [read_of_other rest other.1 other.2.1 other.2.2.1 other.2.2.2, symbol]

end Token

end SmallMl
