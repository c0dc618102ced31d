import SmallMl.Proofs.NumeralShapes
import SmallMl.Proofs.TokenText

/-!
# Printed payloads are read back

The payload in a token's text is itself a text of the language. Main statement: the printed payload
of a token that has been read is read as that token and nothing else, as long as a float is finite
and no character of a string is printed by its number; and so is the text of a comment between two
marks.
-/

namespace SmallMl

/-! ## Words -/

theorem longest_self {kind : List Char → Prop} {text : List Char} (member : kind text) :
    Longest kind text text :=
  ⟨member, List.prefix_refl _, fun _ _ front => front.length_le⟩

namespace Token

/-- A word by itself is read as the token that it stands for. -/
theorem read_word {word : String} (isWord : IsWord word.toList) :
    read word.toList = .token (ofWord word) word.toList [] := by
  have absent : readArrayPrimitive word.toList = .absent := by
    rcases readArrayPrimitive_cases word.toList with
      absent | ⟨token, lexeme, rest, member, whole, -, -⟩
    · exact absent
    · exact absurd isWord (not_isWord_of_arrayPrimitive member ⟨rest, whole⟩)
  have reads : readWord word.toList = .token (ofWord word) word.toList [] := by
    refine (readWord_takesLongest _ _ _ _).mpr ⟨longest_self isWord, List.append_nil _, ?_⟩
    exact congrArg ofWord String.ofList_toList.symm
  cases letters : word.toList with
  | nil =>
      rw [letters] at isWord
      exact isWord.elim
  | cons c rest =>
      rw [letters] at isWord absent reads
      rw [read_of_isWordStart rest isWord.1, Reading.first_pair_eq_token_iff]
      exact .inr ⟨absent, reads⟩

/-! ## Numerals -/

/-- A numeral by itself is read as the token that it stands for. -/
theorem read_numeral {n : Numeral} (formed : n.WellFormed) {token : Token}
    (means : n.token? = some token) : read n.lexeme = .token token n.lexeme [] := by
  obtain ⟨c, rest, front, digit⟩ := Numeral.exists_digit_of_lexeme formed
  have reads : readNumeral n.lexeme = .token token n.lexeme [] := by
    rw [readNumeral, Numeral.split?_lexeme formed]
    simp only [means]
  rw [front] at reads ⊢
  rw [read_of_isDigit rest digit, reads]

theorem read_toString_nat {value : Nat} (small : value ≤ Numeral.maxInteger) :
    read (toString value).toList = .token (int value) (toString value).toList [] := by
  have formed : Numeral.WellFormed ⟨Nat.toDigits 10 value, none, none⟩ :=
    ⟨Nat.toDigits_ne_nil, allDigits_toDigits value, by simp, by simp⟩
  have means : Numeral.token? ⟨Nat.toDigits 10 value, none, none⟩ = some (int value) := by
    simp [Numeral.token?, Numeral.isFloat, small]
  have reads := read_numeral formed means
  rw [Nat.toString_eq_ofList_toDigits, String.toList_ofList]
  simpa [Numeral.lexeme] using reads

/-- The text of a float holds a point or the mark of an exponent. -/
theorem exists_mark_of_decimalText (d : Decimal) :
    ∃ c ∈ floatStyle.decimalText d, c.isDigit = false := by
  have keeps : floatStyle.keepsFraction = true := rfl
  simp only [DecimalStyle.decimalText]
  split
  · exact ⟨'e', by simp [DecimalStyle.scientificText], by decide⟩
  · refine ⟨'.', ?_, by decide⟩
    unfold DecimalStyle.positionalText
    split
    · simp
    · dsimp only
      split <;> simp

theorem read_text_float {value : Binary64} (number : value.isNaN = false)
    (sign : value.isNegative = false) (finite : value.isFinite = true) :
    read (floatStyle.text value).toList =
      .token (float value) (floatStyle.text value).toList [] := by
  obtain ⟨n, formed, lexeme, reads⟩ :=
    floatStyle.exists_numeral_of_finite (of_decide_eq_true finite)
  have text : (floatStyle.text value).toList = n.lexeme := by
    simp [floatStyle.toList_text number, sign, DecimalStyle.magnitudeText, finite, lexeme]
  have isFloat : n.isFloat = true := by
    rw [Numeral.isFloat_iff formed, lexeme]
    exact exists_mark_of_decimalText _
  have same : Binary64.ofMagnitude value.magnitude = value := by
    apply Binary64.eq_of_sign_of_magnitude
    · rw [Binary64.isNegative_ofMagnitude, sign]
    · rw [Binary64.magnitude_ofMagnitude]
      exact Nat.min_eq_left (of_decide_eq_true finite : _ < _).le
  have means : n.token? = some (float value) := by
    rw [Numeral.token?, if_pos isFloat, reads, same]
  rw [text]
  exact read_numeral formed means

end Token

/-! ## Strings -/

/-- The character is printed by its name or as itself, and not by its number. -/
def IsPrintedByName (c : Char) : Prop :=
  ¬ ['\\', '0'] <+: escaped '"' c ∧ ¬ ['\\', 'u'] <+: escaped '"' c

theorem codePointEscape_starts (c : Char) : ['\\', 'u'] <+: codePointEscape c := by
  rw [codePointEscape, List.append_assoc]
  exact ⟨_, rfl⟩

theorem escaped_mem_spellings {c : Char} (named : IsPrintedByName c) :
    escaped '"' c ∈ StringLiteral.spellings c := by
  obtain ⟨notNull, notCode⟩ := named
  revert notNull notCode
  unfold escaped
  split
  · exact fun notNull => absurd (List.prefix_refl _) notNull
  split
  · next tab => rw [tab]; exact fun _ _ => by decide
  split
  · next carriageReturn => rw [carriageReturn]; exact fun _ _ => by decide
  split
  · next lineFeed => rw [lineFeed]; exact fun _ _ => by decide
  split
  · next backslash => rw [backslash]; exact fun _ _ => by decide
  split
  · next quote => rw [quote]; exact fun _ _ => by decide
  split
  · exact fun _ notCode => absurd (codePointEscape_starts c) notCode
  · next lineFeed backslash quote _ =>
      intro _ _
      exact StringLiteral.mem_spellings_iff.mpr (.inl ⟨rfl, by simp [lineFeed, backslash, quote]⟩)

theorem spells_escaped {value : List Char} (named : ∀ c ∈ value, IsPrintedByName c) :
    StringLiteral.Spells value (value.flatMap (escaped '"')) := by
  induction value with
  | nil => exact .none
  | cons c value ih =>
      rw [List.forall_mem_cons] at named
      exact .char (escaped_mem_spellings named.1) (ih named.2)

theorem Token.read_quotedString {value : String} (named : ∀ c ∈ value.toList, IsPrintedByName c) :
    read (quotedString value).toList = .token (string value) (quotedString value).toList [] := by
  have reads := read_literal (spells_escaped named) []
  rw [List.append_nil] at reads
  rw [quotedString, String.toList_ofList]
  exact reads

/-! ## Comments -/

namespace Comment

theorem ne_mark_of_isWhiteSpace {c : Char} (space : isWhiteSpace c = true) :
    c ≠ '(' ∧ c ≠ '*' ∧ c ≠ ')' := by
  refine ⟨?_, ?_, ?_⟩ <;> rintro rfl <;> exact absurd space (by decide)

theorem Items.space {rest : List Char} (later : Items rest) : Items (' ' :: rest) :=
  .plain (fun same => absurd same (by decide)) (fun same => absurd same (by decide)) later

/-- White space in front of the items may be left out. -/
theorem Items.behind_space {before rest : List Char} (space : ∀ c ∈ before, isWhiteSpace c = true)
    (items : Items (before ++ rest)) : Items rest := by
  induction before with
  | nil => exact items
  | cons c before ih =>
      rw [List.forall_mem_cons] at space
      have other := ne_mark_of_isWhiteSpace space.1
      generalize whole : c :: before ++ rest = text at items
      rw [List.cons_append] at whole
      cases items with
      | none => exact absurd whole (by simp)
      | comment => exact absurd (List.cons.inj whole).1 other.1
      | plain _ _ later =>
          obtain ⟨-, rfl⟩ := List.cons.inj whole
          exact ih space.2 later

theorem enclosed_ends {inner kept more : List Char} (split : enclosed inner = kept ++ more) :
    more = [] ∨ ')' ∈ more := by
  rcases List.eq_nil_or_concat' more with none | ⟨front, last, rfl⟩
  · exact .inl none
  · have ends : '(' :: '*' :: (inner ++ ['*']) ++ [')'] = kept ++ front ++ [last] := by
      rw [List.append_assoc, ← split, enclosed]
      simp
    obtain ⟨-, same⟩ := List.append_inj' ends rfl
    exact .inr (List.mem_append_right front (by rw [← same]; exact List.mem_singleton_self _))

/-- White space behind the items may be replaced by a space. -/
theorem Items.respaced {text : List Char} (items : Items text) {kept behind : List Char}
    (split : text = kept ++ behind) (space : ∀ c ∈ behind, isWhiteSpace c = true) :
    Items (kept ++ [' ']) := by
  have only : Items [' '] := .space .none
  induction items generalizing kept with
  | none =>
      obtain ⟨rfl, rfl⟩ := List.append_eq_nil_iff.mp split.symm
      exact only
  | @comment inner rest inside later _ ihLater =>
      rw [← enclosed_append] at split
      rcases List.append_eq_append_iff.mp split with ⟨more, rfl, rfl⟩ | ⟨more, whole, rfl⟩
      · rw [List.append_assoc, enclosed_append]
        exact .comment inside (ihLater rfl)
      · -- no white space reaches into the comment, which a parenthesis closes
        rcases enclosed_ends whole with rfl | closes
        · rw [List.append_nil] at whole
          rw [← whole, enclosed_append]
          exact .comment inside only
        · have parenthesis := space ')' (List.mem_append_left _ closes)
          exact absurd rfl (ne_mark_of_isWhiteSpace parenthesis).2.2
  | @plain c rest opensNone closesNone later ih =>
      cases kept with
      | nil => exact only
      | cons d kept =>
          rw [List.cons_append, List.cons.injEq] at split
          obtain ⟨rfl, rfl⟩ := split
          have later := ih rfl
          -- what follows the character is what did, or the space
          cases kept with
          | nil => exact .plain (by simp) (by simp) later
          | cons e kept => exact .plain opensNone closesNone later

/-- Trimmed items are items again between two spaces. -/
theorem Items.of_isTrimmed {outer inner : List Char} (items : Items outer)
    (isTrimmed : IsTrimmed outer inner) : Items (' ' :: (inner ++ [' '])) := by
  obtain ⟨⟨before, behind, rfl, space, alsoSpace⟩, -, -⟩ := isTrimmed
  exact .space ((items.behind_space space).respaced rfl alsoSpace)

end Comment

theorem IsTrimmed.spaced {outer inner : List Char} (isTrimmed : IsTrimmed outer inner) :
    IsTrimmed (' ' :: (inner ++ [' '])) inner :=
  have space : ∀ c ∈ [' '], isWhiteSpace c = true := List.forall_mem_singleton.mpr (by decide)
  ⟨⟨[' '], [' '], rfl, space, space⟩, isTrimmed.first, isTrimmed.last⟩

/-- Trimmed items between two marks and two spaces are read as the comment of this text. -/
theorem Token.read_spaced {body : List Char} {text : String} (items : Comment.Items body)
    (isTrimmed : IsTrimmed body text.toList) :
    read ("(* " ++ text ++ " *)").toList =
      .token (comment text) ("(* " ++ text ++ " *)").toList [] := by
  have whole : ("(* " ++ text ++ " *)").toList =
      Comment.enclosed (' ' :: (text.toList ++ [' '])) := by
    simp [Comment.enclosed]
  have payload : comment text =
      comment (String.ofList (trimmed (' ' :: (text.toList ++ [' '])))) := by
    rw [← isTrimmed.spaced.eq_trimmed, String.ofList_toList]
  rw [whole, Comment.enclosed, read, readers, first_readComment_of_opened]
  exact readComment_eq_token_iff.mpr
    ⟨_, items.of_isTrimmed isTrimmed, rfl, (List.append_nil _).symm, payload⟩

/-! ## Tokens -/

/-- The printed payload of the token is a text of the language: a float has no word in its place,
and no character of a string is printed by its number. -/
def Token.PrintsAsText : Token → Prop
  | float value => value.isFinite = true
  | string value => ∀ c ∈ value.toList, IsPrintedByName c
  | _ => True

/-- The payload that is printed for a token of a source, comments apart, is by itself read as this
token and nothing else, as long as a float is finite and no character of a string is printed by its
number. So is the text of a comment between two marks. -/
theorem printed_payloads_lex_back {source : String} {found : LocatedToken}
    (yielded : Item.token found ∈ (TokenStream.ofSource source).items) :
    (∀ tag payload, Token.Carries found.token tag payload →
        found.token.text = Token.tagged tag.name payload ∧
          (tag ≠ .comment → found.token.PrintsAsText → LexesAs payload found.token)) ∧
      ∀ text, found.token = .comment text → LexesAs ("(* " ++ text ++ " *)") found.token := by
  have legible := Token.legible_of_mem_items yielded
  generalize found.token = token at legible ⊢
  constructor
  · intro tag payload carries
    cases carries with
    | ident name =>
        refine ⟨rfl, fun _ _ => lexesAs_of_read ?_⟩
        rw [Token.read_word legible.1, legible.2]
    | bool value =>
        refine ⟨rfl, fun _ _ => lexesAs_of_read ?_⟩
        cases value <;> decide +kernel
    | int value => exact ⟨rfl, fun _ _ => lexesAs_of_read (Token.read_toString_nat legible)⟩
    | float value =>
        refine ⟨rfl, fun _ finite => lexesAs_of_read ?_⟩
        exact Token.read_text_float legible.1 legible.2 finite
    | string value =>
        exact ⟨rfl, fun _ named => lexesAs_of_read (Token.read_quotedString named)⟩
    | comment body => exact ⟨rfl, fun other => absurd rfl other⟩
  · rintro text rfl
    obtain ⟨body, items, isTrimmed⟩ := legible
    exact lexesAs_of_read (Token.read_spaced items isTrimmed)

/-- A float that is printed with an exponent, and a comment that ends in a comment and a star. -/
def reprintedSource : String := "0.00000015(*\t(**)**)"

theorem payloads_of_reprintedSource_lex_back :
    let float : LocatedToken := ⟨.float ⟨0x3e8421f5f40d8376⟩, ⟨⟨1, 1⟩, ⟨1, 11⟩⟩⟩
    let comment : LocatedToken := ⟨.comment "(**)*", ⟨⟨1, 11⟩, ⟨1, 21⟩⟩⟩
    (TokenStream.ofSource reprintedSource).items = [.token float, .token comment] ∧
      LexesAs "1.5e-7" float.token ∧ LexesAs "(* (**)* *)" comment.token := by
  intro float comment
  have items : (TokenStream.ofSource reprintedSource).items = [.token float, .token comment] := by
    decide +kernel
  have first : Item.token float ∈ (TokenStream.ofSource reprintedSource).items := by
    rw [items]
    exact List.mem_cons_self ..
  have second : Item.token comment ∈ (TokenStream.ofSource reprintedSource).items := by
    rw [items]
    exact List.mem_cons_of_mem _ (List.mem_singleton_self _)
  have printed : Token.floatStyle.text ⟨0x3e8421f5f40d8376⟩ = "1.5e-7" := by decide +kernel
  have carries : Token.Carries float.token .float "1.5e-7" := printed ▸ .float _
  have finite : float.token.PrintsAsText :=
    (by decide : Binary64.isFinite ⟨0x3e8421f5f40d8376⟩ = true)
  refine ⟨items, ?_, (printed_payloads_lex_back second).2 "(**)*" rfl⟩
  exact ((printed_payloads_lex_back first).1 _ _ carries).2 (by decide) finite

end SmallMl
