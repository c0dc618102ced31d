import SmallMl.Proofs.Lookahead
import SmallMl.Proofs.NestedComments

/-!
# The grammar of comments

A comment is two marks with items between them, and an item is a comment or a character. Main
statement: from a text that opens a comment, the reader takes the one front of it that the grammar
derives, with the text between its outermost marks as payload; where there is no such front, no
other reader gets to the text.
-/

namespace SmallMl

/-! ## White space at the two ends -/

/-- The inner text is the outer one without the white space at its two ends. -/
structure IsTrimmed (outer inner : List Char) : Prop where
  around : ∃ before behind, outer = before ++ (inner ++ behind) ∧
    (∀ c ∈ before, isWhiteSpace c = true) ∧ ∀ c ∈ behind, isWhiteSpace c = true
  first : ∀ c ∈ inner.head?, isWhiteSpace c = false
  last : ∀ c ∈ inner.getLast?, isWhiteSpace c = false

theorem head?_dropWhile_false {p : Char → Bool} (text : List Char) :
    ∀ c ∈ (text.dropWhile p).head?, p c = false := by
  intro c first
  have stops := List.head?_dropWhile_not p text
  rw [Option.mem_def.mp first] at stops
  exact stops

theorem dropWhile_append_of_head {p : Char → Bool} {before text : List Char}
    (dropped : ∀ c ∈ before, p c = true) (stop : ∀ c ∈ text.head?, p c = false) :
    (before ++ text).dropWhile p = text := by
  rw [List.dropWhile_append_of_pos dropped]
  cases text with
  | nil => rfl
  | cons c rest => exact List.dropWhile_cons_of_neg (by rw [stop c rfl]; exact Bool.false_ne_true)

theorem isTrimmed_trimmed (text : List Char) : IsTrimmed text (trimmed text) := by
  have front := List.takeWhile_append_dropWhile (p := isWhiteSpace) (l := text)
  have starts := head?_dropWhile_false (p := isWhiteSpace) text
  rw [trimmed]
  generalize text.dropWhile isWhiteSpace = kept at *
  have back := List.takeWhile_append_dropWhile (p := isWhiteSpace) (l := kept.reverse)
  have ends := head?_dropWhile_false (p := isWhiteSpace) kept.reverse
  have split : (kept.reverse.dropWhile isWhiteSpace).reverse ++
      (kept.reverse.takeWhile isWhiteSpace).reverse = kept := by
    rw [← List.reverse_append, back, List.reverse_reverse]
  refine ⟨⟨text.takeWhile isWhiteSpace, (kept.reverse.takeWhile isWhiteSpace).reverse, ?_,
    List.all_eq_true.mp List.all_takeWhile, ?_⟩, ?_, ?_⟩
  · rw [split, front]
  · intro c inside
    exact List.all_eq_true.mp List.all_takeWhile c (List.mem_reverse.mp inside)
  · intro c first
    apply starts
    rw [← split, List.head?_append, Option.mem_def.mp first]
    rfl
  · rw [List.getLast?_reverse]
    exact ends

/-- A text has one trimmed form. -/
theorem IsTrimmed.eq_trimmed {outer inner : List Char} (isTrimmed : IsTrimmed outer inner) :
    inner = trimmed outer := by
  obtain ⟨⟨before, behind, rfl, dropped, alsoDropped⟩, first, last⟩ := isTrimmed
  cases inner with
  | nil =>
      have all : ∀ c ∈ before ++ behind, isWhiteSpace c = true :=
        fun c inside => (List.mem_append.mp inside).elim (dropped c) (alsoDropped c)
      have none : (before ++ behind ++ []).dropWhile isWhiteSpace = [] :=
        dropWhile_append_of_head all (by simp)
      rw [List.append_nil] at none
      rw [List.nil_append, trimmed, none]
      rfl
  | cons c inner =>
      have front : (before ++ (c :: inner ++ behind)).dropWhile isWhiteSpace =
          c :: inner ++ behind := dropWhile_append_of_head dropped first
      have back : ((c :: inner) ++ behind).reverse.dropWhile isWhiteSpace =
          (c :: inner).reverse := by
        rw [List.reverse_append]
        apply dropWhile_append_of_head
        · exact fun d inside => alsoDropped d (List.mem_reverse.mp inside)
        · rw [List.head?_reverse]
          exact last
      rw [trimmed, front, back, List.reverse_reverse]

theorem isTrimmed_iff {outer inner : List Char} :
    IsTrimmed outer inner ↔ inner = trimmed outer := by
  refine ⟨IsTrimmed.eq_trimmed, ?_⟩
  rintro rfl
  exact isTrimmed_trimmed outer

/-! ## The grammar -/

namespace Comment

/-- What stands between the two marks of a comment: characters and comments, one after the other. A
character is not the first one of a mark, which the character behind it tells; behind the last item
this is the first character of the closing mark. -/
inductive Items : List Char → Prop where
  | none : Items []
  | comment {inner rest : List Char} (inside : Items inner) (later : Items rest) :
      Items ('(' :: '*' :: (inner ++ '*' :: ')' :: rest))
  | plain {c : Char} {rest : List Char}
      (opensNone : c = '(' → (rest ++ ['*', ')']).head? ≠ some '*')
      (closesNone : c = '*' → (rest ++ ['*', ')']).head? ≠ some ')') (later : Items rest) :
      Items (c :: rest)

/-- The text between two outermost marks. -/
def enclosed (body : List Char) : List Char :=
  '(' :: '*' :: (body ++ ['*', ')'])

theorem enclosed_append (body rest : List Char) :
    enclosed body ++ rest = '(' :: '*' :: (body ++ '*' :: ')' :: rest) := by
  simp [enclosed]

/-- The items of a comment and the mark that closes it are what follows the mark that opens it. -/
theorem remainder_iff {text : List Char} :
    Remainder text ↔ ∃ body, Items body ∧ text = body ++ ['*', ')'] := by
  constructor
  · intro remainder
    induction remainder with
    | closed => exact ⟨[], .none, rfl⟩
    | nested _ _ ihInside ihLater =>
        obtain ⟨inner, inside, rfl⟩ := ihInside
        obtain ⟨rest, later, rfl⟩ := ihLater
        exact ⟨_, .comment inside later, by simp⟩
    | @plain c _ opensNone closesNone _ ih =>
        obtain ⟨rest, later, rfl⟩ := ih
        exact ⟨c :: rest, .plain opensNone closesNone later, rfl⟩
  · rintro ⟨body, items, rfl⟩
    induction items with
    | none => exact .closed
    | @comment inner rest _ _ ihInside ihLater =>
        have nested := Remainder.nested ihInside ihLater
        simpa using nested
    | plain opensNone closesNone _ ih => exact .plain opensNone closesNone ih

/-- The grammar derives the text: it is two marks with items between them. -/
def Derived (text : List Char) : Prop :=
  ∃ body, Items body ∧ text = enclosed body

theorem isComment_iff {text : List Char} : IsComment text ↔ Derived text := by
  constructor
  · rintro ⟨_, rfl, remainder⟩
    obtain ⟨body, items, rfl⟩ := remainder_iff.mp remainder
    exact ⟨body, items, rfl⟩
  · rintro ⟨body, items, rfl⟩
    exact ⟨_, rfl, remainder_iff.mpr ⟨body, items, rfl⟩⟩

theorem body?_eq_some_iff_items {text body rest : List Char} :
    body? text = some (body, rest) ↔ Items body ∧ text = body ++ '*' :: ')' :: rest := by
  have marks : body ++ ['*', ')'] ++ rest = body ++ '*' :: ')' :: rest := List.append_assoc ..
  rw [body?_eq_some_iff, remainder_iff, marks]
  refine and_congr_left fun _ => ⟨?_, fun items => ⟨body, items, rfl⟩⟩
  rintro ⟨other, items, same⟩
  rw [List.append_cancel_right same]
  exact items

theorem body?_of_items {body : List Char} (items : Items body) (rest : List Char) :
    body? (body ++ '*' :: ')' :: rest) = some (body, rest) :=
  body?_eq_some_iff_items.mpr ⟨items, rfl⟩

/-- No two fronts of a text are comments. -/
theorem Derived.unique {first second text : List Char} (one : Derived first)
    (other : Derived second) (front : first <+: text) (alsoFront : second <+: text) :
    first = second := by
  obtain ⟨body, items, rfl⟩ := one
  obtain ⟨body', items', rfl⟩ := other
  obtain ⟨rest, rfl⟩ := front
  obtain ⟨rest', same⟩ := alsoFront
  simp only [enclosed_append, List.cons.injEq, true_and] at same
  have reads := body?_of_items items rest
  rw [← same, body?_of_items items' rest'] at reads
  cases reads
  rfl

end Comment

namespace Token

theorem readComment_eq_token_iff {text lexeme rest : List Char} {token : Token} :
    readComment text = .token token lexeme rest ↔
      ∃ body, Comment.Items body ∧ lexeme = Comment.enclosed body ∧ text = lexeme ++ rest ∧
        token = .comment (String.ofList (trimmed body)) := by
  constructor
  · intro reads
    unfold readComment at reads
    split at reads
    · split at reads
      · next body behind closed =>
          cases reads
          obtain ⟨items, rfl⟩ := Comment.body?_eq_some_iff_items.mp closed
          exact ⟨body, items, rfl, (Comment.enclosed_append body rest).symm, rfl⟩
      · exact absurd reads (by simp)
    · exact absurd reads (by simp)
  · rintro ⟨body, items, rfl, rfl, rfl⟩
    rw [Comment.enclosed_append, readComment, Comment.body?_of_items items]
    rfl

/-- A text that opens a comment is not left to other readers. -/
theorem first_readComment_of_opened (text : List Char) (others : List (List Char → Reading)) :
    Reading.first ('(' :: '*' :: text) (readComment :: others) =
      readComment ('(' :: '*' :: text) := by
  rw [Reading.first, readComment]
  cases Comment.body? text <;> rfl

end Token

/-- From a text that opens a comment, a comment is read exactly if the grammar derives some front of
the text. There is one such front at most, and it is the lexeme; what stands between its outermost
marks, without the white space at both ends, is the payload. Where there is none, the reading is
broken off. Whatever other readers there are, none of them gets to the text. -/
theorem comments_follow_grammar (text : List Char) :
    let opened := '(' :: '*' :: text
    ((∃ token lexeme rest, Token.readComment opened = .token token lexeme rest) ↔
        ∃ front, front <+: opened ∧ Comment.Derived front) ∧
      (∀ first second, first <+: opened ∧ Comment.Derived first →
        second <+: opened ∧ Comment.Derived second → first = second) ∧
      (∀ token lexeme rest, Token.readComment opened = .token token lexeme rest ↔
        ∃ body inner, Comment.Items body ∧ lexeme = Comment.enclosed body ∧
          opened = lexeme ++ rest ∧ IsTrimmed body inner ∧
          token = .comment (String.ofList inner)) ∧
      (Token.readComment opened = .broken ↔
        ¬ ∃ front, front <+: opened ∧ Comment.Derived front) ∧
      (∀ others, Reading.first opened (Token.readComment :: others) =
        Token.readComment opened) ∧
      Token.read opened = Token.readComment opened := by
  intro opened
  have reads : (∃ token lexeme rest, Token.readComment opened = .token token lexeme rest) ↔
      ∃ front, front <+: opened ∧ Comment.Derived front := by
    simp only [Token.exists_readComment_iff, Comment.isComment_iff]
  refine ⟨reads, ?_, ?_, ?_, Token.first_readComment_of_opened text,
    Token.first_readComment_of_opened text _⟩
  · rintro first second ⟨front, one⟩ ⟨alsoFront, other⟩
    exact one.unique other front alsoFront
  · intro token lexeme rest
    simp only [Token.readComment_eq_token_iff, isTrimmed_iff]
    constructor
    · rintro ⟨body, items, taken, whole, payload⟩
      exact ⟨body, trimmed body, items, taken, whole, rfl, payload⟩
    · rintro ⟨body, _, items, taken, whole, rfl, payload⟩
      exact ⟨body, items, taken, whole, payload⟩
  · rw [← reads]
    have present : Token.readComment opened ≠ .absent :=
      fun absent => Token.readComment_eq_absent_iff.mp absent rfl
    cases reading : Token.readComment opened with
    | token token lexeme rest => simp
    | absent => exact absurd reading present
    | broken => simp

/-- The second mark opens a comment inside the first, and only that one is closed. -/
example : Token.read "(*(*)*)".toList = .broken := by decide

end SmallMl
