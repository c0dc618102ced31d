import SmallMl.Proofs.Lookahead
import SmallMl.Proofs.NestedComments
import SmallMl.Proofs.Positions
import SmallMl.Proofs.StringWritings
import SmallMl.Proofs.Tiling

/-!
# Where no token starts

A text that is not empty starts with a token, or it starts with a comment or a string literal that is
never closed, or with a character that starts no token at all. Main statement: which of these it is
decides what a token stream yields, wherever the stream stands in its source.
-/

namespace SmallMl

/-- The text opens a comment, and no front of it is a comment. -/
def UnclosedComment (text : List Char) : Prop :=
  ['(', '*'] <+: text ∧ ∀ front, front <+: text → ¬ IsComment front

/-- The text opens a string literal, and no front of it is a string literal. -/
def UnclosedString (text : List Char) : Prop :=
  ['"'] <+: text ∧ ∀ front, front <+: text → ¬ IsStringLiteral front

/-- The characters with which operators and delimiters start. -/
def symbolStarts : List Char :=
  ['+', '-', '*', '/', '%', '=', '<', '>', ';', ',', '.', '|', ':', '(', ')', '[', ']', '&']

/-- The text starts with digits that stand for a number beyond the largest integer, and with no
float. -/
def LargeInteger (text : List Char) : Prop :=
  ∃ digits behind, text = digits ++ behind ∧ digits ≠ [] ∧ AllDigits digits ∧
    NoDigitFirst behind ∧ Numeral.maxInteger < digitValue digits ∧ behind.head? ≠ some '.' ∧
    ∀ e : Exponent, e.WellFormed → ¬ e.lexeme <+: behind

/-- The first character of the text starts no token. -/
inductive StartsNoToken : List Char → Prop where
  /-- No token starts with such a character. -/
  | foreign {c : Char} {behind : List Char} (quote : c ≠ '"') (letter : c.isAlphanum = false)
      (underscore : c ≠ '_') (symbol : c ∉ symbolStarts) : StartsNoToken (c :: behind)
  /-- An ampersand is half of an operator. -/
  | ampersand {behind : List Char} (lone : behind.head? ≠ some '&') :
      StartsNoToken ('&' :: behind)
  | integer {text : List Char} (large : LargeInteger text) : StartsNoToken text

/-- Every symbol starts with one of these characters, and an ampersand only where two of them are the
symbol. -/
theorem Symbol.spelling_starts (symbol : Symbol) : ∃ first second,
    symbol.spelling = first :: second ∧ first ∈ symbolStarts ∧ (first = '&' → second = ['&']) := by
  cases symbol <;> exact ⟨_, _, rfl, by decide, by decide⟩

namespace Token

/-- Some token is read from the text. -/
def ReadsBy (reader : List Char → Reading) (text : List Char) : Prop :=
  ∃ token lexeme rest, reader text = .token token lexeme rest

/-! ## Symbols -/

theorem reads_symbol_iff_front {text : List Char} :
    ReadsBy readSymbol text ↔ ∃ symbol : Symbol, symbol.spelling <+: text := by
  constructor
  · rintro ⟨token, lexeme, rest, reads⟩
    obtain ⟨longest, _, symbol, rfl, _⟩ := (readSymbol_takesLongest _ _ _ _).mp reads
    exact ⟨symbol, longest.front⟩
  · rintro ⟨symbol, rest, rfl⟩
    cases found : Symbol.split? (symbol.spelling ++ rest) with
    | none =>
        have absent := List.findSome?_eq_none_iff.mp found symbol (Symbol.mem_all symbol)
        rw [behind?_append] at absent
        exact absurd absent (by simp)
    | some front =>
        refine ⟨.symbol front.1, front.1.spelling, front.2, ?_⟩
        rw [readSymbol, found]

/-- A symbol is read where one may start, but an ampersand needs another one behind it. -/
theorem reads_symbol_iff {c : Char} {behind : List Char} :
    ReadsBy readSymbol (c :: behind) ↔
      c ∈ symbolStarts ∧ (c = '&' → behind.head? = some '&') := by
  rw [reads_symbol_iff_front]
  constructor
  · rintro ⟨symbol, front⟩
    obtain ⟨first, second, spelled, member, double⟩ := symbol.spelling_starts
    rw [spelled, List.cons_prefix_cons] at front
    obtain ⟨rfl, more⟩ := front
    refine ⟨member, ?_⟩
    intro ampersand
    rw [double ampersand] at more
    obtain ⟨rest, rfl⟩ := more
    rfl
  · rintro ⟨member, double⟩
    by_cases ampersand : c = '&'
    · subst ampersand
      obtain ⟨rest, rfl⟩ := List.head?_eq_some_iff.mp (double rfl)
      exact ⟨.andAnd, rest, rfl⟩
    · have single : symbolStarts.all (fun first =>
          first == '&' || Symbol.all.any fun one => one.spelling == [first]) = true := by
        decide
      have spelled := List.all_eq_true.mp single c member
      simp only [Bool.or_eq_true, beq_iff_eq, List.any_eq_true, ampersand, false_or] at spelled
      obtain ⟨symbol, _, spelled⟩ := spelled
      exact ⟨symbol, behind, by rw [spelled]; rfl⟩

/-! ## Numerals -/

theorem reads_numeral_of_split {text rest : List Char} {n : Numeral}
    (found : Numeral.split? text = some (n, rest)) :
    ReadsBy readNumeral text ↔
      n.isFloat = true ∨ digitValue n.whole ≤ Numeral.maxInteger := by
  constructor
  · rintro ⟨token, lexeme, behind, reads⟩
    simp only [readNumeral, found, Numeral.token?] at reads
    by_cases float : n.isFloat = true
    · exact Or.inl float
    · by_cases small : digitValue n.whole ≤ Numeral.maxInteger
      · exact Or.inr small
      · rw [if_neg float, if_neg small] at reads
        exact absurd reads (by simp)
  · intro fits
    have meaning : ∃ token, n.token? = some token := by
      unfold Numeral.token?
      split
      · exact ⟨_, rfl⟩
      · next whole => exact ⟨_, if_pos (fits.resolve_left whole)⟩
    obtain ⟨token, meaning⟩ := meaning
    refine ⟨token, n.lexeme, rest, ?_⟩
    simp only [readNumeral, found, meaning]

/-- Digits are read as a numeral if they are the front of a float, or else if they stand for an
integer that is not too large. -/
theorem reads_numeral_append_iff {digits behind : List Char} (nonempty : digits ≠ [])
    (all : AllDigits digits) (stop : NoDigitFirst behind) :
    ReadsBy readNumeral (digits ++ behind) ↔
      behind.head? = some '.' ∨ (∃ e : Exponent, e.WellFormed ∧ e.lexeme <+: behind) ∨
        digitValue digits ≤ Numeral.maxInteger := by
  by_cases point : behind.head? = some '.'
  · obtain ⟨more, rfl⟩ := List.head?_eq_some_iff.mp point
    rw [reads_numeral_of_split (Numeral.split?_point nonempty all more)]
    exact iff_of_true (Or.inl rfl) (Or.inl rfl)
  · have read := Numeral.split?_digits nonempty all stop point
    rw [reads_numeral_of_split read, ← Exponent.isSome_split_iff]
    simp only [Numeral.isFloat, Option.isSome_none, Bool.false_or, point, false_or]

end Token

theorem LargeInteger.isDigit {c : Char} {behind : List Char}
    (large : LargeInteger (c :: behind)) : c.isDigit = true := by
  obtain ⟨digits, rest, whole, nonempty, all, -⟩ := large
  obtain ⟨d, more, rfl⟩ := List.exists_cons_of_ne_nil nonempty
  cases whole
  exact all c (List.mem_cons_self ..)

namespace Token

/-- Digits are read as a numeral unless they stand for too large an integer. -/
theorem reads_numeral_iff {c : Char} {text : List Char} (digit : c.isDigit = true) :
    ReadsBy readNumeral (c :: text) ↔ ¬ LargeInteger (c :: text) := by
  have nonempty : digitRun (c :: text) ≠ [] := by
    rw [digitRun, List.takeWhile_cons_of_pos digit]
    exact List.cons_ne_nil _ _
  have reads := reads_numeral_append_iff nonempty (allDigits_digitRun (c :: text))
    (noDigitFirst_afterDigits (c :: text))
  rw [digitRun_append_afterDigits] at reads
  rw [reads]
  constructor
  · rintro front ⟨digits, behind, whole, _, all, stop, large, noPoint, noExponent⟩
    rw [whole, digitRun_eq all stop, afterDigits_eq all stop] at front
    rcases front with point | ⟨e, formed, inside⟩ | small
    · exact noPoint point
    · exact noExponent e formed inside
    · exact absurd large (Nat.not_lt.mpr small)
  · intro fits
    by_contra others
    simp only [not_or, not_exists, not_and, Nat.not_le] at others
    obtain ⟨noPoint, noExponent, large⟩ := others
    exact fits ⟨digitRun (c :: text), afterDigits (c :: text),
      (digitRun_append_afterDigits _).symm, nonempty, allDigits_digitRun _,
      noDigitFirst_afterDigits _, large, noPoint, noExponent⟩

/-! ## Words -/

theorem reads_word {c : Char} {behind : List Char} (start : isWordStart c = true) :
    ReadsBy read (c :: behind) := by
  rw [ReadsBy, read_of_isWordStart behind start]
  rcases readArrayPrimitive_cases (c :: behind) with absent | ⟨token, lexeme, rest, _, _, _, reads⟩
  · refine ⟨ofWord (String.ofList (c :: behind.takeWhile isWordChar)),
      c :: behind.takeWhile isWordChar, behind.dropWhile isWordChar, ?_⟩
    rw [Reading.first_of_absent absent, Reading.first, readWord, if_pos start]
  · refine ⟨token, lexeme, rest, ?_⟩
    rw [Reading.first, reads]

end Token

/-! ## The three ways in which a text starts with no token -/

theorem startsNoToken_cons_iff {c : Char} {behind : List Char} :
    StartsNoToken (c :: behind) ↔
      (c ≠ '"' ∧ c.isAlphanum = false ∧ c ≠ '_' ∧ c ∉ symbolStarts) ∨
        (c = '&' ∧ behind.head? ≠ some '&') ∨ LargeInteger (c :: behind) := by
  constructor
  · intro starts
    cases starts with
    | foreign quote letter underscore symbol => exact Or.inl ⟨quote, letter, underscore, symbol⟩
    | ampersand lone => exact Or.inr (Or.inl ⟨rfl, lone⟩)
    | integer large => exact Or.inr (Or.inr large)
  · rintro (⟨quote, letter, underscore, symbol⟩ | ⟨rfl, lone⟩ | large)
    · exact .foreign quote letter underscore symbol
    · exact .ampersand lone
    · exact .integer large

theorem StartsNoToken.first_ne {c : Char} {behind : List Char}
    (starts : StartsNoToken (c :: behind)) : c ≠ '"' ∧ c ≠ '(' := by
  rcases startsNoToken_cons_iff.mp starts with ⟨quote, -, -, symbol⟩ | ⟨rfl, -⟩ | large
  · refine ⟨quote, ?_⟩
    rintro rfl
    exact symbol (by decide)
  · decide
  · have digit := large.isDigit
    constructor <;> rintro rfl <;> exact absurd digit (by decide)

/-- Where the first character is no digit, no integer is too large. -/
theorem startsNoToken_iff_of_not_isDigit {c : Char} {behind : List Char}
    (digit : c.isDigit = false) :
    StartsNoToken (c :: behind) ↔
      (c ≠ '"' ∧ c.isAlphanum = false ∧ c ≠ '_' ∧ c ∉ symbolStarts) ∨
        (c = '&' ∧ behind.head? ≠ some '&') := by
  have small : ¬ LargeInteger (c :: behind) := by
    intro large
    rw [large.isDigit] at digit
    exact absurd digit (by simp)
  rw [startsNoToken_cons_iff, or_iff_left small]

theorem not_unclosedComment {c : Char} {behind : List Char} (other : c ≠ '(') :
    ¬ UnclosedComment (c :: behind) :=
  fun unclosed => other (List.cons_prefix_cons.mp unclosed.1).1.symm

theorem not_unclosedString {c : Char} {behind : List Char} (other : c ≠ '"') :
    ¬ UnclosedString (c :: behind) :=
  fun unclosed => other (List.cons_prefix_cons.mp unclosed.1).1.symm

theorem not_startsNoToken_of_symbolStart {c : Char} {behind : List Char} (symbol : c ∈ symbolStarts)
    (digit : c.isDigit = false) (double : c = '&' → behind.head? = some '&') :
    ¬ StartsNoToken (c :: behind) := by
  rw [startsNoToken_iff_of_not_isDigit digit]
  rintro (⟨-, -, -, foreign⟩ | ⟨ampersand, lone⟩)
  · exact foreign symbol
  · exact lone (double ampersand)

theorem not_startsNoToken_of_isWordStart {c : Char} {behind : List Char}
    (start : isWordStart c = true) : ¬ StartsNoToken (c :: behind) := by
  have inWord : c.isAlpha = true ∨ c = '_' := by simpa [isWordStart] using start
  rw [startsNoToken_iff_of_not_isDigit (Token.not_isDigit_of_isWordStart start)]
  rintro (⟨-, letter, underscore, -⟩ | ⟨rfl, -⟩)
  · rcases inWord with alpha | same
    · simp [Char.isAlphanum, alpha] at letter
    · exact underscore same
  · exact absurd start (by decide)

namespace Token

theorem reads_quote_iff {behind : List Char} :
    ReadsBy read ('"' :: behind) ↔ ¬ UnclosedString ('"' :: behind) := by
  rw [ReadsBy, read_of_quote, exists_readString_iff, UnclosedString]
  simp

theorem reads_comment_iff {behind : List Char} :
    ReadsBy read ('(' :: '*' :: behind) ↔ ¬ UnclosedComment ('(' :: '*' :: behind) := by
  have present : readComment ('(' :: '*' :: behind) ≠ .absent :=
    fun absent => readComment_eq_absent_iff.mp absent rfl
  have same : ReadsBy read ('(' :: '*' :: behind) ↔
      ∃ token lexeme rest, readComment ('(' :: '*' :: behind) = .token token lexeme rest := by
    simp only [ReadsBy, read_of_parenthesis, Reading.first_pair_eq_token_iff, present, false_and,
      or_false]
  rw [same, exists_readComment_iff, UnclosedComment]
  simp

theorem reads_parenthesis {behind : List Char} (noComment : behind.head? ≠ some '*') :
    ReadsBy read ('(' :: behind) := by
  have symbol : ReadsBy readSymbol ('(' :: behind) :=
    reads_symbol_iff.mpr ⟨by decide, by simp⟩
  obtain ⟨token, lexeme, rest, reads⟩ := symbol
  refine ⟨token, lexeme, rest, ?_⟩
  rw [read_of_parenthesis, Reading.first_pair_eq_token_iff]
  exact Or.inr ⟨readComment_eq_absent_iff.mpr noComment, reads⟩

theorem reads_digit_iff {c : Char} {behind : List Char} (digit : c.isDigit = true) :
    ReadsBy read (c :: behind) ↔ ¬ StartsNoToken (c :: behind) := by
  have alphanum : c.isAlphanum = true := by simp [Char.isAlphanum, digit]
  have ampersand : c ≠ '&' := by
    rintro rfl
    exact absurd digit (by decide)
  have large : StartsNoToken (c :: behind) ↔ LargeInteger (c :: behind) := by
    simp [startsNoToken_cons_iff, alphanum, ampersand]
  rw [ReadsBy, read_of_isDigit behind digit, large]
  exact reads_numeral_iff digit

theorem reads_other_iff {c : Char} {behind : List Char} (parenthesis : c ≠ '(') (quote : c ≠ '"')
    (digit : c.isDigit = false) (start : isWordStart c = false) :
    ReadsBy read (c :: behind) ↔ ¬ StartsNoToken (c :: behind) := by
  obtain ⟨letter, underscore⟩ : c.isAlpha = false ∧ c ≠ '_' := by
    simpa [isWordStart] using start
  have alphanum : c.isAlphanum = false := by simp [Char.isAlphanum, letter, digit]
  have foreign : (c ≠ '"' ∧ c.isAlphanum = false ∧ c ≠ '_' ∧ c ∉ symbolStarts) ↔
      c ∉ symbolStarts := by
    simp [quote, alphanum, underscore]
  rw [ReadsBy, read_of_other behind parenthesis quote digit start,
    startsNoToken_iff_of_not_isDigit digit, foreign]
  refine reads_symbol_iff.trans ?_
  simp only [not_or, not_and, not_not]

/-- A token is read from a text unless it starts in one of the three ways. -/
theorem reads_iff (c : Char) (behind : List Char) :
    ReadsBy read (c :: behind) ↔ ¬ UnclosedComment (c :: behind) ∧
      ¬ UnclosedString (c :: behind) ∧ ¬ StartsNoToken (c :: behind) := by
  -- the first character leaves at most one of the three open, and one reader or two to decide it
  by_cases quote : c = '"'
  · subst quote
    have starts : ¬ StartsNoToken ('"' :: behind) := by
      rw [startsNoToken_iff_of_not_isDigit (by decide)]
      simp
    have comment : ¬ UnclosedComment ('"' :: behind) := not_unclosedComment (by decide)
    simp only [reads_quote_iff, comment, starts, not_false_eq_true, true_and, and_true]
  · have string : ¬ UnclosedString (c :: behind) := not_unclosedString quote
    by_cases parenthesis : c = '('
    · subst parenthesis
      have starts : ¬ StartsNoToken ('(' :: behind) :=
        not_startsNoToken_of_symbolStart (by decide) (by decide) (by simp)
      by_cases star : behind.head? = some '*'
      · obtain ⟨behind, rfl⟩ := List.head?_eq_some_iff.mp star
        simp only [reads_comment_iff, string, starts, not_false_eq_true, and_true]
      · have comment : ¬ UnclosedComment ('(' :: behind) := by
          rintro ⟨⟨rest, whole⟩, -⟩
          cases whole
          exact star rfl
        exact iff_of_true (reads_parenthesis star) ⟨comment, string, starts⟩
    · have comment : ¬ UnclosedComment (c :: behind) := not_unclosedComment parenthesis
      simp only [comment, string, not_false_eq_true, true_and]
      cases digit : c.isDigit with
      | true => exact reads_digit_iff digit
      | false =>
          cases start : isWordStart c with
          | true => exact iff_of_true (reads_word start) (not_startsNoToken_of_isWordStart start)
          | false => exact reads_other_iff parenthesis quote digit start

end Token

namespace TokenStream

/-- The stream comes from the front of the source by calls for the next item. -/
inductive Reached (source : String) : TokenStream → Prop where
  | start : Reached source (ofSource source)
  | next {stream : TokenStream} (before : Reached source stream) : Reached source stream.next.2

theorem Reads.next {stream : TokenStream} {source : String} {passed : List Char}
    (reads : stream.Reads source passed) : ∃ further, stream.next.2.Reads source further := by
  cases failed : stream.failed with
  | true =>
      refine ⟨passed, ?_⟩
      rw [next_of_failed failed]
      exact reads
  | false =>
      have here := reads.skipBlanks
      rcases next_cases reads failed with
        ⟨yields, -⟩ | ⟨located, after, further, yields, -, later, -⟩ | ⟨e, beyond, byte, yields, -⟩
      · rw [yields]
        exact ⟨_, here⟩
      · rw [yields]
        exact ⟨further, later⟩
      · rw [yields]
        exact ⟨_, here.lines, here.whole, here.offset⟩

theorem Reached.reads {source : String} {stream : TokenStream} (reached : Reached source stream) :
    ∃ passed, stream.Reads source passed := by
  induction reached with
  | start => exact ⟨[], reads_ofSource source⟩
  | next _ ih =>
      obtain ⟨passed, reads⟩ := ih
      exact reads.next

/-- The span of what stands at the front of a stream is told from the text before it. -/
theorem Reads.spanOf {stream : TokenStream} {source : String} {passed lexeme : List Char}
    (reads : stream.Reads source passed) (front : lexeme <+: stream.rest) :
    stream.spanOf lexeme = .behind passed lexeme := by
  obtain ⟨rest, split⟩ := front
  have whole : source.toList = passed ++ (lexeme ++ rest) := by rw [split, reads.whole]
  have start := LineTable.position_ofText passed (lexeme ++ rest)
  have stop := LineTable.position_ofText (passed ++ lexeme) rest
  rw [List.append_assoc, byteLength_append] at stop
  rw [TokenStream.spanOf, LineTable.span, reads.lines, reads.offset, whole, start, stop,
    Span.behind]

/-! ## What the error says about the text -/

variable {stream : TokenStream} {c : Char} {behind : List Char}

theorem refusal_of_unclosedComment (unclosed : UnclosedComment (c :: behind)) :
    stream.refusal c behind = .unterminatedComment (stream.spanOf ['(', '*']) := by
  obtain ⟨⟨rest, whole⟩, -⟩ := unclosed
  cases whole
  rfl

theorem refusal_of_unclosedString (unclosed : UnclosedString (c :: behind)) :
    stream.refusal c behind = .unterminatedString (stream.spanOf ['"']) := by
  obtain ⟨⟨rest, whole⟩, -⟩ := unclosed
  cases whole
  rfl

theorem refusal_of_startsNoToken (starts : StartsNoToken (c :: behind)) :
    stream.refusal c behind = .invalidToken c (stream.spanOf [c]) := by
  obtain ⟨quote, parenthesis⟩ := starts.first_ne
  rw [refusal, if_neg quote, if_neg fun comment => parenthesis comment.1]

/-- The next item is a token where one is read, and the error for the text otherwise. -/
theorem next_of_text (running : stream.failed = false) (text : stream.skipBlanks.rest = c :: behind) :
    (Token.ReadsBy Token.read (c :: behind) ∧ ∃ located, stream.next.1 = some (.token located)) ∨
      (¬ Token.ReadsBy Token.read (c :: behind) ∧
        stream.next.1 = some (.error (stream.skipBlanks.refusal c behind))) := by
  rw [next_of_running running, nextHere, text]
  cases read : Token.read (c :: behind) with
  | token token lexeme rest =>
      refine Or.inl ⟨⟨token, lexeme, rest, read⟩, ⟨token, stream.skipBlanks.spanOf lexeme⟩, ?_⟩
      simp only [read]
  | absent => exact Or.inr ⟨by simp [Token.ReadsBy, read], by simp only [read]⟩
  | broken => exact Or.inr ⟨by simp [Token.ReadsBy, read], by simp only [read]⟩

/-- Wherever a stream stands that has not failed, the text behind the blanks decides about the next
item. It is an error at the front of this text exactly if the text starts in one of three ways, of
which each has its own error, and a token otherwise. -/
theorem next_told_from_text {source : String} {stream : TokenStream}
    (reached : Reached source stream) (running : stream.failed = false)
    (more : stream.rest.dropWhile isBlank ≠ []) :
    let text := stream.rest.dropWhile isBlank
    let found := stream.next.1
    ∃ passed, source.toList = passed ++ text ∧
      (found = some (.error (.unterminatedComment (.behind passed ['(', '*']))) ↔
        UnclosedComment text) ∧
      (found = some (.error (.unterminatedString (.behind passed ['"']))) ↔
        UnclosedString text) ∧
      (∀ c, found = some (.error (.invalidToken c (.behind passed [c]))) ↔
        text.head? = some c ∧ StartsNoToken text) ∧
      ((∃ located, found = some (.token located)) ↔
        ¬ UnclosedComment text ∧ ¬ UnclosedString text ∧ ¬ StartsNoToken text) := by
  intro text found
  obtain ⟨before, reads⟩ := reached.reads
  have here := reads.skipBlanks
  obtain ⟨c, behind, front⟩ := List.exists_cons_of_ne_nil more
  have same : text = c :: behind := front
  have ahead : stream.skipBlanks.rest = c :: behind := front
  refine ⟨_, here.whole, ?_⟩
  rcases next_of_text running ahead with ⟨read, located, token⟩ | ⟨unread, error⟩
  · have yields : found = some (.token located) := token
    obtain ⟨comment, string, starts⟩ := (Token.reads_iff c behind).mp read
    simp [yields, same, comment, string, starts]
  · have yields : found = some (.error (stream.skipBlanks.refusal c behind)) := error
    have some_way := mt (Token.reads_iff c behind).mpr unread
    -- the first characters of the three ways differ, so that each excludes the others
    by_cases comment : UnclosedComment (c :: behind)
    · have parenthesis : c = '(' := (List.cons_prefix_cons.mp comment.1).1.symm
      have string : ¬ UnclosedString (c :: behind) :=
        not_unclosedString (by rw [parenthesis]; decide)
      have starts : ¬ StartsNoToken (c :: behind) := fun starts => starts.first_ne.2 parenthesis
      rw [refusal_of_unclosedComment comment, here.spanOf (ahead ▸ comment.1)] at yields
      simp [yields, same, comment, string, starts]
    · by_cases string : UnclosedString (c :: behind)
      · have quote : c = '"' := (List.cons_prefix_cons.mp string.1).1.symm
        have starts : ¬ StartsNoToken (c :: behind) := fun starts => starts.first_ne.1 quote
        rw [refusal_of_unclosedString string, here.spanOf (ahead ▸ string.1)] at yields
        simp [yields, same, comment, string, starts]
      · have starts : StartsNoToken (c :: behind) := by
          by_contra other
          exact some_way ⟨comment, string, other⟩
        rw [refusal_of_startsNoToken starts, here.spanOf ⟨behind, ahead.symm⟩] at yields
        have first : ∀ d, c = d ∧ Span.behind (before ++ stream.rest.takeWhile isBlank) [c] =
            .behind (before ++ stream.rest.takeWhile isBlank) [d] ↔ c = d :=
          fun d => ⟨And.left, fun equal => ⟨equal, by rw [equal]⟩⟩
        simp [yields, same, comment, string, starts, first]

/-- A name, and behind it digits that stand for too large an integer, with half an exponent; behind
that, a comment opens. -/
def overlongSource : String := "f \t 9223372036854775808e+ (*"

theorem next_in_overlongSource_told_from_text :
    let stream := (ofSource overlongSource).next.2
    let text := stream.rest.dropWhile isBlank
    (Reached overlongSource stream ∧ stream.failed = false ∧ text ≠ []) ∧
      StartsNoToken text ∧
      ∃ passed, stream.next.1 = some (.error (.invalidToken '9' (.behind passed ['9']))) := by
  intro stream text
  have reached : Reached overlongSource stream := .next .start
  have running : stream.failed = false := by decide +kernel
  have more : text ≠ [] := by decide +kernel
  have starts : StartsNoToken text := by
    have digits : text = "9223372036854775808".toList ++ "e+ (*".toList := by decide +kernel
    have noExponent : (Exponent.split "e+ (*".toList).1.isSome = false := by decide +kernel
    refine .integer ⟨_, _, digits, by decide, ?_, ?_, by decide +kernel, by decide, ?_⟩
    · exact List.all_eq_true.mp (by decide)
    · intro c first
      cases first
      decide
    · intro e formed inside
      rw [Exponent.isSome_split_iff.mpr ⟨e, formed, inside⟩] at noExponent
      exact absurd noExponent (by decide)
  obtain ⟨passed, -, -, -, invalid, -⟩ := next_told_from_text reached running more
  have first : text.head? = some '9' := by decide +kernel
  exact ⟨⟨reached, running, more⟩, starts, passed, (invalid '9').mpr ⟨first, starts⟩⟩

end TokenStream

end SmallMl
