import SmallMl.Proofs.CommentGrammar
import SmallMl.Proofs.DecimalText
import SmallMl.Proofs.MaximalMunch
import SmallMl.Proofs.Phrases
import SmallMl.Proofs.QuotedText
import SmallMl.Proofs.StringSpellings

/-!
# The text of a token tells the token

The text of a token is a name in capitals, with a payload in parentheses where the token has one.
The first parenthesis ends the name, the last one the payload, and the last space the text of the
token before that of its span. Main statements: two tokens that may be read and their spans are the
same if their texts are, and such a text is one line.
-/

namespace SmallMl

/-! ## Tokens that may be read -/

theorem Reading.exists_of_first {text lexeme rest : List Char} {token : Token}
    {readers : List (List Char → Reading)} (reads : first text readers = .token token lexeme rest) :
    ∃ reader ∈ readers, reader text = .token token lexeme rest := by
  induction readers with
  | nil => exact absurd reads (by simp [first])
  | cons reader others ih =>
      cases here : reader text with
      | absent =>
          rw [first_of_absent here] at reads
          obtain ⟨other, member, found⟩ := ih reads
          exact ⟨other, List.mem_cons_of_mem _ member, found⟩
      | token t front behind =>
          rw [first, here] at reads
          exact ⟨reader, List.mem_cons_self .., here.trans reads⟩
      | broken =>
          rw [first, here] at reads
          exact absurd reads (by simp)

/-- A word holds no character of another kind. -/
theorem IsWord.not_mem {text : List Char} (word : IsWord text) {c : Char}
    (start : isWordStart c = false) (other : isWordChar c = false) : c ∉ text := by
  intro inside
  cases text with
  | nil => exact absurd inside List.not_mem_nil
  | cons d rest =>
      rcases List.mem_cons.mp inside with rfl | later
      · rw [word.1] at start
        exact absurd start (by decide)
      · rw [word.2 c later] at other
        exact absurd other (by decide)

namespace Token

/-- What is known of the payload of a token that has been read: an identifier is a word, and a float
is a number. -/
def Readable : Token → Prop
  | ident name => IsWord name.toList
  | float value => value.isNaN = false
  | _ => True

/-- What more is known of it: the word is no other token, an integer or a float carries no sign, and
the text of a comment is what stands between its marks, trimmed. -/
def Legible : Token → Prop
  | ident name => IsWord name.toList ∧ ofWord name = ident name
  | int value => value ≤ Numeral.maxInteger
  | float value => value.isNaN = false ∧ value.isNegative = false
  | comment text => ∃ body, Comment.Items body ∧ IsTrimmed body text.toList
  | _ => True

theorem Legible.readable {token : Token} (legible : token.Legible) : token.Readable := by
  cases token with
  | ident name => exact legible.1
  | float value => exact legible.1
  | _ => trivial

theorem legible_ofWord {word : String} (isWord : IsWord word.toList) : (ofWord word).Legible := by
  generalize means : ofWord word = token
  have unfolded := means
  unfold ofWord at unfolded
  split at unfolded
  · subst unfolded
    trivial
  split at unfolded
  · subst unfolded
    trivial
  split at unfolded
  · subst unfolded
    trivial
  split at unfolded
  · subst unfolded
    trivial
  · subst unfolded
    exact ⟨isWord, means⟩

theorem legible_of_read {text lexeme rest : List Char} {token : Token}
    (reads : read text = .token token lexeme rest) : token.Legible := by
  obtain ⟨reader, member, reads⟩ := Reading.exists_of_first reads
  simp only [readers, List.mem_cons, List.not_mem_nil, or_false] at member
  rcases member with rfl | rfl | rfl | rfl | rfl | rfl
  · obtain ⟨body, items, -, -, rfl⟩ := readComment_eq_token_iff.mp reads
    refine ⟨body, items, ?_⟩
    rw [String.toList_ofList]
    exact isTrimmed_trimmed body
  · obtain ⟨value, -, -, -, -, rfl⟩ := readString_eq_token_iff.mp reads
    trivial
  · have member := (readArrayPrimitive_eq_token_iff.mp reads).1
    rcases mem_arrayPrimitives.mp member with ⟨rfl, -⟩ | ⟨rfl, -⟩ <;> trivial
  · obtain ⟨-, -, n, -, -, meaning⟩ := (readNumeral_takesLongest _ _ _ _).mp reads
    unfold Numeral.token? at meaning
    split at meaning
    · cases meaning
      exact ⟨n.decimal.isNaN_toBinary64, n.decimal.isNegative_toBinary64⟩
    · split at meaning
      · next small =>
          cases meaning
          exact small
      · exact absurd meaning (by simp)
  · obtain ⟨longest, -, rfl⟩ := (readWord_takesLongest _ _ _ _).mp reads
    exact legible_ofWord (by simpa using longest.member)
  · obtain ⟨-, -, symbol, -, rfl⟩ := (readSymbol_takesLongest _ _ _ _).mp reads
    trivial

theorem legible_of_mem_items {source : String} {located : LocatedToken}
    (yielded : Item.token located ∈ (TokenStream.ofSource source).items) :
    located.token.Legible := by
  obtain ⟨before, lexeme, rest, -, reads, -⟩ := exists_reading yielded
  exact legible_of_read reads

theorem readable_of_mem_items {source : String} {located : LocatedToken}
    (yielded : Item.token located ∈ (TokenStream.ofSource source).items) :
    located.token.Readable :=
  (legible_of_mem_items yielded).readable

/-! ## Names and payloads -/

/-- The kinds of tokens that have a payload. -/
inductive Tag where
  | ident | bool | int | float | string | comment
  deriving DecidableEq

/-- The name before the payload. -/
def Tag.name : Tag → String
  | ident => "IDENT"
  | bool => "BOOL"
  | int => "INT"
  | float => "FLOAT"
  | string => "STRING"
  | comment => "COMMENT"

/-- The token has a payload with the given text. -/
inductive Carries : Token → Tag → String → Prop where
  | ident (name : String) : Carries (.ident name) .ident name
  | bool (value : Bool) : Carries (.bool value) .bool (toString value)
  | int (value : Nat) : Carries (.int value) .int (toString value)
  | float (value : Binary64) : Carries (.float value) .float (floatStyle.text value)
  | string (value : String) : Carries (.string value) .string (quotedString value)
  | comment (body : String) : Carries (.comment body) .comment (quotedString body)

/-- The tokens without a payload. -/
def plain : List Token :=
  Keyword.all.map keyword ++ Symbol.all.map symbol ++ [underscore, arrayMake, arrayLength]

theorem mem_plain_or_carries (token : Token) :
    token ∈ plain ∨ ∃ tag payload, Carries token tag payload := by
  cases token with
  | keyword k =>
      left
      have member : k ∈ Keyword.all := by cases k <;> decide
      exact List.mem_append_left _ (List.mem_append_left _ (List.mem_map_of_mem member))
  | symbol s =>
      left
      have member := List.mem_map_of_mem (f := symbol) (Symbol.mem_all s)
      exact List.mem_append_left _ (List.mem_append_right _ member)
  | underscore => exact Or.inl (by decide)
  | arrayMake => exact Or.inl (by decide)
  | arrayLength => exact Or.inl (by decide)
  | ident name => exact Or.inr ⟨_, _, .ident name⟩
  | bool value => exact Or.inr ⟨_, _, .bool value⟩
  | int value => exact Or.inr ⟨_, _, .int value⟩
  | float value => exact Or.inr ⟨_, _, .float value⟩
  | string value => exact Or.inr ⟨_, _, .string value⟩
  | comment body => exact Or.inr ⟨_, _, .comment body⟩

/-- Whether a name may hold the character. -/
def isCapital (c : Char) : Bool :=
  c.isUpper || c == '_'

theorem capitals_of_plain {token : Token} (member : token ∈ plain) :
    token.text.toList.all isCapital = true :=
  (by decide +kernel : ∀ one ∈ plain, one.text.toList.all isCapital = true) token member

theorem Tag.capitals (tag : Tag) : tag.name.toList.all isCapital = true := by
  cases tag <;> decide

theorem Tag.name_injective {first second : Tag} (same : first.name = second.name) :
    first = second := by
  cases first <;> cases second <;> first | rfl | exact absurd same (by decide)

theorem not_mem_of_capitals {text : List Char} {c : Char} (capitals : text.all isCapital = true)
    (other : isCapital c = false) : c ∉ text := by
  intro inside
  rw [List.all_eq_true.mp capitals c inside] at other
  exact absurd other (by decide)

theorem Carries.toList_text {token : Token} {tag : Tag} {payload : String}
    (carries : Carries token tag payload) :
    token.text.toList = tag.name.toList ++ '(' :: (payload.toList ++ [')']) := by
  cases carries <;> simp [Token.text, tagged, Tag.name]

/-- The text of a payload tells the payload. -/
theorem Carries.unique {first second : Token} {tag : Tag} {payload other : String}
    (one : Carries first tag payload) (two : Carries second tag other) (readable : first.Readable)
    (alsoReadable : second.Readable) (same : payload = other) : first = second := by
  cases one with
  | ident name =>
      cases two
      rw [same]
  | bool value =>
      cases two with
      | bool value' => cases value <;> cases value' <;> first | rfl | exact absurd same (by decide)
  | int value =>
      cases two
      rw [toString_nat_injective same]
  | float value =>
      cases two with
      | float value' =>
          have canonical := (floatStyle.text_eq_iff).mp same
          rw [Binary64.canonical_of_number readable,
            Binary64.canonical_of_number alsoReadable] at canonical
          rw [canonical]
  | string value =>
      cases two
      rw [quotedString_inj.mp same]
  | comment body =>
      cases two
      rw [quotedString_inj.mp same]

theorem eq_of_plain {first second : Token} (one : first ∈ plain) (two : second ∈ plain)
    (same : first.text = second.text) : first = second :=
  (by decide +kernel : ∀ token ∈ plain, ∀ other ∈ plain, token.text = other.text → token = other)
    first one second two same

theorem text_ne_of_plain {first second : Token} {tag : Tag} {payload : String}
    (one : first ∈ plain) (two : Carries second tag payload) : first.text ≠ second.text := by
  intro same
  have free : '(' ∉ first.text.toList := not_mem_of_capitals (capitals_of_plain one) (by decide)
  rw [same, two.toList_text] at free
  exact free (List.mem_append_right _ (List.mem_cons_self ..))

/-- Tokens that may be read have different texts. -/
theorem text_injective {first second : Token} (readable : first.Readable)
    (alsoReadable : second.Readable) (same : first.text = second.text) : first = second := by
  rcases mem_plain_or_carries first with one | ⟨tag, payload, one⟩
  · rcases mem_plain_or_carries second with two | ⟨tag, payload, two⟩
    · exact eq_of_plain one two same
    · exact absurd same (text_ne_of_plain one two)
  · rcases mem_plain_or_carries second with two | ⟨other, more, two⟩
    · exact absurd same.symm (text_ne_of_plain two one)
    · have texts := congrArg String.toList same
      rw [one.toList_text, two.toList_text] at texts
      obtain ⟨names, behind⟩ := append_cons_inj
        (not_mem_of_capitals tag.capitals (by decide))
        (not_mem_of_capitals other.capitals (by decide)) texts
      obtain rfl := Tag.name_injective (String.toList_inj.mp names)
      have payloads := String.toList_inj.mp (List.append_cancel_right behind)
      exact one.unique two readable alsoReadable payloads

theorem Carries.lineFeed_not_mem {token : Token} {tag : Tag} {payload : String}
    (carries : Carries token tag payload) (readable : token.Readable) : '\n' ∉ payload.toList := by
  cases carries with
  | ident name => exact readable.not_mem (by decide) (by decide)
  | bool value => cases value <;> decide
  | int value => exact not_mem_toString_nat (by decide) value
  | float value => exact floatStyle.not_mem_text (by decide) (by decide) value
  | string value => exact lineFeed_not_mem_quotedString value
  | comment body => exact lineFeed_not_mem_quotedString body

theorem lineFeed_not_mem_text {token : Token} (readable : token.Readable) :
    '\n' ∉ token.text.toList := by
  rcases mem_plain_or_carries token with member | ⟨tag, payload, carries⟩
  · exact not_mem_of_capitals (capitals_of_plain member) (by decide)
  · have name : '\n' ∉ tag.name.toList := not_mem_of_capitals tag.capitals (by decide)
    have inside := carries.lineFeed_not_mem readable
    rw [carries.toList_text]
    simp [name, inside]

/-- What the texts of comments start with, and no others. -/
def commentMark : String := "COMMENT("

theorem takeWhile_isCapital {name rest : List Char} {c : Char}
    (capitals : name.all isCapital = true) (other : isCapital c = false) :
    (name ++ c :: rest).takeWhile isCapital = name := by
  rw [List.takeWhile_append_of_pos (List.all_eq_true.mp capitals),
    List.takeWhile_cons_of_neg (by rw [other]; exact Bool.false_ne_true), List.append_nil]

/-- Only the text of a comment starts with the mark, also where a space follows it. -/
theorem commentMark_prefix_iff (token : Token) (more : List Char) :
    commentMark.toList <+: token.text.toList ++ ' ' :: more ↔ token.isComment = true := by
  have front : commentMark.toList = Tag.comment.name.toList ++ ['('] := by decide
  constructor
  · rintro ⟨rest, whole⟩
    rw [front, List.append_assoc, List.singleton_append] at whole
    have name : (Tag.comment.name.toList ++ '(' :: rest).takeWhile isCapital =
        Tag.comment.name.toList := takeWhile_isCapital Tag.comment.capitals (by decide)
    rw [whole] at name
    rcases mem_plain_or_carries token with member | ⟨tag, payload, carries⟩
    · rw [takeWhile_isCapital (capitals_of_plain member) (by decide)] at name
      rw [name] at whole
      exact absurd (List.append_cancel_left whole) (by simp)
    · rw [carries.toList_text, List.append_assoc, List.cons_append,
        takeWhile_isCapital tag.capitals (by decide)] at name
      obtain rfl := Tag.name_injective (String.toList_inj.mp name)
      cases carries
      rfl
  · intro comment
    cases token with
    | comment body =>
        refine ⟨(quotedString body).toList ++ ([')'] ++ ' ' :: more), ?_⟩
        rw [(Carries.comment body).toList_text, front]
        simp
    | _ => exact absurd comment Bool.false_ne_true

end Token

/-! ## Spans -/

namespace Position

theorem toList_text (position : Position) :
    position.text.toList =
      (toString position.line).toList ++ ':' :: (toString position.column).toList := by
  simp [text]

theorem not_mem_text {c : Char} (digitless : c.isDigit = false) (colon : c ≠ ':')
    (position : Position) : c ∉ position.text.toList := by
  rw [toList_text, List.mem_append, List.mem_cons]
  rintro (line | same | column)
  · exact not_mem_toString_nat digitless _ line
  · exact colon same
  · exact not_mem_toString_nat digitless _ column

theorem text_injective {first second : Position} (same : first.text = second.text) :
    first = second := by
  have texts := congrArg String.toList same
  rw [toList_text, toList_text] at texts
  obtain ⟨lines, columns⟩ := append_cons_inj (not_mem_toString_nat (by decide) _)
    (not_mem_toString_nat (by decide) _) texts
  obtain ⟨line, column⟩ := first
  obtain ⟨line', column'⟩ := second
  rw [mk.injEq]
  exact ⟨toString_nat_injective (String.toList_inj.mp lines),
    toString_nat_injective (String.toList_inj.mp columns)⟩

end Position

namespace Span

theorem toList_text (span : Span) :
    span.text.toList = span.start.text.toList ++ '-' :: span.stop.text.toList := by
  simp [text]

theorem not_mem_text {c : Char} (digitless : c.isDigit = false) (other : c ∉ [':', '-'])
    (span : Span) : c ∉ span.text.toList := by
  simp only [List.mem_cons, List.not_mem_nil, or_false, not_or] at other
  rw [toList_text, List.mem_append, List.mem_cons]
  rintro (start | same | stop)
  · exact Position.not_mem_text digitless other.1 _ start
  · exact other.2 same
  · exact Position.not_mem_text digitless other.1 _ stop

theorem text_injective {first second : Span} (same : first.text = second.text) :
    first = second := by
  have texts := congrArg String.toList same
  rw [toList_text, toList_text] at texts
  obtain ⟨starts, stops⟩ := append_cons_inj (Position.not_mem_text (by decide) (by decide) _)
    (Position.not_mem_text (by decide) (by decide) _) texts
  obtain ⟨start, stop⟩ := first
  obtain ⟨start', stop'⟩ := second
  rw [mk.injEq]
  exact ⟨Position.text_injective (String.toList_inj.mp starts),
    Position.text_injective (String.toList_inj.mp stops)⟩

end Span

/-! ## Tokens with their spans -/

/-- A character that neither of two texts holds starts both at the same place. -/
theorem append_cons_inj_last {c : Char} {first second rest other : List Char} (one : c ∉ rest)
    (two : c ∉ other) (same : first ++ c :: rest = second ++ c :: other) :
    first = second ∧ rest = other := by
  have mirrored := congrArg List.reverse same
  rw [List.reverse_append, List.reverse_append, List.reverse_cons, List.reverse_cons,
    List.append_assoc, List.append_assoc, List.singleton_append, List.singleton_append] at mirrored
  obtain ⟨behind, before⟩ := append_cons_inj (mt List.mem_reverse.mp one)
    (mt List.mem_reverse.mp two) mirrored
  exact ⟨List.reverse_injective before, List.reverse_injective behind⟩

namespace LocatedToken

theorem toList_text (located : LocatedToken) :
    located.text.toList = located.token.text.toList ++ ' ' :: located.span.text.toList := by
  simp [text]

/-- The text of a token with its span tells both. -/
theorem text_injective {first second : LocatedToken} (readable : first.token.Readable)
    (alsoReadable : second.token.Readable) (same : first.text = second.text) : first = second := by
  have texts := congrArg String.toList same
  rw [toList_text, toList_text] at texts
  obtain ⟨tokens, spans⟩ := append_cons_inj_last (Span.not_mem_text (by decide) (by decide) _)
    (Span.not_mem_text (by decide) (by decide) _) texts
  obtain ⟨token, span⟩ := first
  obtain ⟨token', span'⟩ := second
  rw [mk.injEq]
  exact ⟨Token.text_injective readable alsoReadable (String.toList_inj.mp tokens),
    Span.text_injective (String.toList_inj.mp spans)⟩

/-- The text of a token with its span is one line. -/
theorem lineFeed_not_mem_text {located : LocatedToken} (readable : located.token.Readable) :
    '\n' ∉ located.text.toList := by
  have token := Token.lineFeed_not_mem_text readable
  have span : '\n' ∉ located.span.text.toList := Span.not_mem_text (by decide) (by decide) _
  rw [toList_text]
  simp [token, span]

end LocatedToken

end SmallMl
