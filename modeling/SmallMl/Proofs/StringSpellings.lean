import SmallMl.Proofs.Pieces
import SmallMl.Proofs.StringWritings

/-!
# Strings are read as they are spelled

Between the quotes of a literal, each character of a string is spelled in one of at most two ways.
Main statement: the spelling of a string between two quotes is read as that string, whatever text
follows it, and no other text is read as a string literal.
-/

namespace SmallMl

namespace StringLiteral

/-- The ways in which a character is spelled between the quotes of a literal. -/
def spellings (c : Char) : List (List Char) :=
  if c = '"' ∨ c = '\\' then [['\\', c]]
  else if c = '\n' then [['\\', 'n']]
  else if c = '\t' then [['\t'], ['\\', 't']]
  else if c = '\r' then [['\r'], ['\\', 'r']]
  else [[c]]

/-- The value is spelled so, each of its characters in one of its ways. -/
inductive Spells : List Char → List Char → Prop where
  | none : Spells [] []
  | char {c : Char} {spelling value spelled : List Char} (way : spelling ∈ spellings c)
      (later : Spells value spelled) : Spells (c :: value) (spelling ++ spelled)

/-- The literal with the given characters between its quotes. -/
def literal (spelled : List Char) : List Char :=
  '"' :: (spelled ++ ['"'])

/-- Neither a spelling nor the closing quote stands at the front of the text: it is at its end, or a
line feed is next, or a backslash that makes no escape with what is behind it. -/
inductive BreaksLiteral : List Char → Prop where
  | nothing : BreaksLiteral []
  | lineFeed {rest : List Char} : BreaksLiteral ('\n' :: rest)
  | backslash : BreaksLiteral ['\\']
  | escape {letter : Char} {rest : List Char} (unknown : ∀ c, (letter, c) ∉ escapes) :
      BreaksLiteral ('\\' :: letter :: rest)

/-- A spelling is the character itself, where it may stand in a literal, or an escape for it. -/
theorem mem_spellings_iff {c : Char} {spelling : List Char} :
    spelling ∈ spellings c ↔
      (spelling = [c] ∧ c ∉ ['"', '\\', '\n']) ∨
        ∃ letter, spelling = ['\\', letter] ∧ (letter, c) ∈ escapes := by
  by_cases quote : c = '"'
  · subst quote
    simp [spellings, escapes]
  by_cases backslash : c = '\\'
  · subst backslash
    simp [spellings, escapes]
  by_cases lineFeed : c = '\n'
  · subst lineFeed
    simp [spellings, escapes]
  by_cases tab : c = '\t'
  · subst tab
    simp [spellings, escapes]
  by_cases carriageReturn : c = '\r'
  · subst carriageReturn
    simp [spellings, escapes]
  · simp [spellings, escapes, quote, backslash, lineFeed, tab, carriageReturn]

/-- What is written behind an opening quote is a spelling and the quote that closes the literal. -/
theorem writes_iff {value written : List Char} :
    Writes value written ↔ ∃ spelled, Spells value spelled ∧ written = spelled ++ ['"'] := by
  constructor
  · intro writes
    induction writes with
    | closed => exact ⟨[], .none, rfl⟩
    | @plain c _ _ usual _ ih =>
        obtain ⟨spelled, spells, rfl⟩ := ih
        exact ⟨[c] ++ spelled, .char (mem_spellings_iff.mpr (.inl ⟨rfl, usual⟩)) spells, rfl⟩
    | @escaped letter _ _ _ means _ ih =>
        obtain ⟨spelled, spells, rfl⟩ := ih
        exact ⟨['\\', letter] ++ spelled,
          .char (mem_spellings_iff.mpr (.inr ⟨letter, rfl, means⟩)) spells, rfl⟩
  · rintro ⟨spelled, spells, rfl⟩
    induction spells with
    | none => exact .closed
    | char way _ ih =>
        rcases mem_spellings_iff.mp way with ⟨rfl, usual⟩ | ⟨letter, rfl, means⟩
        · exact .plain usual ih
        · exact .escaped means ih

/-- The reader of a body passes a spelling as the character that it spells. -/
theorem body?_spelling {c : Char} {spelling : List Char} (way : spelling ∈ spellings c)
    (rest : List Char) : body? (spelling ++ rest) = (body? rest).map (Part.cons c spelling) := by
  rcases mem_spellings_iff.mp way with ⟨rfl, usual⟩ | ⟨letter, rfl, means⟩
  · simp only [List.mem_cons, List.not_mem_nil, or_false, not_or] at usual
    obtain ⟨quote, backslash, feed⟩ := usual
    rw [List.singleton_append, body?]
    · exact quote
    · rintro _ _ rfl
      exact absurd rfl backslash
    · exact feed
  · simp only [List.cons_append, List.nil_append, body?, escapeValue?_eq_some_iff.mpr means]

/-- Behind a spelled value, the reader closes the literal exactly where it closes one there. -/
theorem isSome_body?_spelled {value spelled : List Char} (spells : Spells value spelled)
    (rest : List Char) : (body? (spelled ++ rest)).isSome = (body? rest).isSome := by
  induction spells with
  | none => rfl
  | char way _ ih => rw [List.append_assoc, body?_spelling way, Option.isSome_map, ih]

theorem body?_of_breaksLiteral {text : List Char} (breaks : BreaksLiteral text) :
    body? text = none := by
  cases breaks with
  | nothing => rfl
  | lineFeed => rfl
  | backslash => rfl
  | @escape letter rest unknown =>
      rw [body?]
      cases means : escapeValue? letter with
      | none => rfl
      | some c => exact absurd (escapeValue?_eq_some_iff.mp means) (unknown c)

/-- No literal is closed exactly where a spelling is followed by something that breaks one. -/
theorem body?_eq_none_iff {text : List Char} :
    body? text = none ↔
      ∃ value spelled stop, Spells value spelled ∧ BreaksLiteral stop ∧ text = spelled ++ stop := by
  constructor
  · intro open_
    fun_induction body? text with
    | case1 => exact ⟨[], [], [], .none, .nothing, rfl⟩
    | case2 => exact absurd open_ (by simp)
    | case3 letter rest c means ih =>
        obtain ⟨value, spelled, stop, spells, breaks, rfl⟩ := ih (Option.map_eq_none_iff.mp open_)
        have way : ['\\', letter] ∈ spellings c :=
          mem_spellings_iff.mpr (.inr ⟨letter, rfl, escapeValue?_eq_some_iff.mp means⟩)
        exact ⟨c :: value, _, stop, .char way spells, breaks, rfl⟩
    | case4 letter rest means =>
        refine ⟨[], [], _, .none, .escape fun c known => ?_, rfl⟩
        rw [escapeValue?_eq_some_iff.mpr known] at means
        exact absurd means (by simp)
    | case5 => exact ⟨[], [], _, .none, .lineFeed, rfl⟩
    | case6 c rest quote escape feed ih =>
        by_cases backslash : c = '\\'
        · subst backslash
          -- a letter behind the backslash would have made it the front of an escape
          cases rest with
          | nil => exact ⟨[], [], _, .none, .backslash, rfl⟩
          | cons letter rest => exact absurd rfl (escape letter rest rfl)
        · obtain ⟨value, spelled, stop, spells, breaks, rfl⟩ :=
            ih (Option.map_eq_none_iff.mp open_)
          have usual : c ∉ ['"', '\\', '\n'] := by
            simp only [List.mem_cons, List.not_mem_nil, or_false, not_or]
            exact ⟨quote, backslash, feed⟩
          have way : [c] ∈ spellings c := mem_spellings_iff.mpr (.inl ⟨rfl, usual⟩)
          exact ⟨c :: value, _, stop, .char way spells, breaks, rfl⟩
  · rintro ⟨value, spelled, stop, spells, breaks, rfl⟩
    have open_ := isSome_body?_spelled spells stop
    rw [body?_of_breaksLiteral breaks] at open_
    exact Option.not_isSome_iff_eq_none.mp (by rw [open_]; exact Bool.false_ne_true)

end StringLiteral

open StringLiteral (Spells BreaksLiteral literal)

namespace Token

theorem readString_eq_token_iff {text lexeme rest : List Char} {token : Token} :
    readString text = .token token lexeme rest ↔
      ∃ (value : String) (spelled : List Char), Spells value.toList spelled ∧
        lexeme = literal spelled ∧ text = lexeme ++ rest ∧ token = .string value := by
  constructor
  · intro reads
    unfold readString at reads
    split at reads
    · split at reads
      · next part closed =>
          cases reads
          obtain ⟨writes, rfl⟩ := StringLiteral.body?_eq_some_iff.mp closed
          obtain ⟨spelled, spells, written⟩ := StringLiteral.writes_iff.mp writes
          refine ⟨String.ofList part.value, spelled, ?_, ?_, rfl, rfl⟩
          · rwa [String.toList_ofList]
          · rw [written, literal]
      · exact absurd reads (by simp)
    · exact absurd reads (by simp)
  · rintro ⟨value, spelled, spells, rfl, rfl, rfl⟩
    have writes := StringLiteral.writes_iff.mpr ⟨spelled, spells, rfl⟩
    have closed := StringLiteral.body?_of_writes writes rest
    simp only [literal, List.cons_append, readString, closed, String.ofList_toList]

theorem readString_eq_absent_iff {behind : List Char} :
    readString ('"' :: behind) = .absent ↔
      ∃ value spelled stop, Spells value spelled ∧ BreaksLiteral stop ∧
        behind = spelled ++ stop := by
  rw [← StringLiteral.body?_eq_none_iff, readString]
  cases StringLiteral.body? behind <;> simp

theorem read_literal {value : String} {spelled : List Char} (spells : Spells value.toList spelled)
    (rest : List Char) :
    read (literal spelled ++ rest) = .token (.string value) (literal spelled) rest := by
  rw [literal, List.cons_append, read_of_quote]
  exact readString_eq_token_iff.mpr ⟨value, spelled, spells, rfl, rfl, rfl⟩

end Token

/-- A string literal is read exactly from the texts that start with a spelled string between two
quotes; its lexeme is the two quotes with what is between them, and its value the string. Wherever a
stream stands, it yields this token and goes on behind the literal. A quote opens no literal where
the spelling breaks off before another quote. -/
theorem strings_read_as_spelled (text : List Char) :
    (∀ token lexeme rest, Token.readString text = .token token lexeme rest ↔
        ∃ (value : String) (spelled : List Char), Spells value.toList spelled ∧
          lexeme = literal spelled ∧ text = lexeme ++ rest ∧ token = .string value) ∧
      (∀ (value : String) (spelled rest : List Char), Spells value.toList spelled →
        text = literal spelled ++ rest →
        ∀ stream : TokenStream, stream.failed = false → stream.rest = text →
          stream.next = (some (.token ⟨.string value, stream.spanOf (literal spelled)⟩),
            stream.advance (literal spelled) rest)) ∧
      ∀ behind, text = '"' :: behind →
        (Token.readString text = .absent ↔
          ∃ value spelled stop, Spells value spelled ∧ BreaksLiteral stop ∧
            behind = spelled ++ stop) := by
  refine ⟨fun _ _ _ => Token.readString_eq_token_iff, ?_, ?_⟩
  · intro value spelled rest spells whole stream running front
    apply TokenStream.next_of_read running
    rw [front, whole]
    exact Token.read_literal spells rest
  · rintro behind rfl
    exact Token.readString_eq_absent_iff

/-- A literal with a raw tab, an escaped one, and a quote and a backslash that close nothing; and a
literal behind it that is never closed. -/
def mixedSource : String := "\"\t\\t\\\"\\\\\"\"x"

theorem literal_of_mixedSource_is_read :
    let stream := TokenStream.ofSource mixedSource
    let spelled := "\t\\t\\\"\\\\".toList
    (Spells "\t\t\"\\".toList spelled ∧
        mixedSource.toList = literal spelled ++ "\"x".toList ∧ stream.failed = false) ∧
      stream.next = (some (.token ⟨.string "\t\t\"\\", stream.spanOf (literal spelled)⟩),
        stream.advance (literal spelled) "\"x".toList) := by
  intro stream spelled
  have spells : Spells ['\t', '\t', '"', '\\']
      (['\t'] ++ (['\\', 't'] ++ (['\\', '"'] ++ (['\\', '\\'] ++ [])))) :=
    .char (by decide) (.char (by decide) (.char (by decide) (.char (by decide) .none)))
  have front : mixedSource.toList = literal spelled ++ "\"x".toList := by decide
  have reads := (strings_read_as_spelled mixedSource.toList).2.1 "\t\t\"\\" spelled
  exact ⟨⟨spells, front, rfl⟩, reads _ spells front stream rfl rfl⟩

end SmallMl
