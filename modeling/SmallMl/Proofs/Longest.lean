import SmallMl.Token.Reader

/-!
# Longest lexemes

Words and symbols are kinds of lexemes, each with a reader of its own. Main statements: the reader
takes the longest lexeme of its kind at the front of a text.
-/

namespace SmallMl

/-- A front of the text that is of the kind, where no longer front is. -/
structure Longest (kind : List Char → Prop) (lexeme text : List Char) : Prop where
  member : kind lexeme
  front : lexeme <+: text
  longest : ∀ other, kind other → other <+: text → other.length ≤ lexeme.length

theorem Longest.unique {kind : List Char → Prop} {first second text : List Char}
    (one : Longest kind first text) (other : Longest kind second text) : first = second := by
  have below := other.longest first one.member one.front
  have above := one.longest second other.member other.front
  have inside := List.prefix_of_prefix_length_le one.front other.front below
  exact inside.eq_of_length (Nat.le_antisymm below above)

/-- The reader takes the longest lexeme of a kind, and what it means is told from the lexeme. -/
def TakesLongest (reader : List Char → Reading) (kind : List Char → Prop)
    (means : List Char → Token → Prop) : Prop :=
  ∀ text token lexeme rest, reader text = .token token lexeme rest ↔
    Longest kind lexeme text ∧ lexeme ++ rest = text ∧ means lexeme token

/-- A reader that reads nothing but longest lexemes, and always one where there is one, takes the
longest. -/
theorem takesLongest_of {reader : List Char → Reading} {kind : List Char → Prop}
    {means : List Char → Token → Prop}
    (sound : ∀ text token lexeme rest, reader text = .token token lexeme rest →
      Longest kind lexeme text ∧ lexeme ++ rest = text ∧ means lexeme token)
    (complete : ∀ text lexeme token, Longest kind lexeme text → means lexeme token →
      ∃ found front rest, reader text = .token found front rest)
    (functional : ∀ lexeme first second, means lexeme first → means lexeme second →
      first = second) :
    TakesLongest reader kind means := by
  intro text token lexeme rest
  refine ⟨sound text token lexeme rest, ?_⟩
  rintro ⟨longest, whole, meaning⟩
  obtain ⟨found, front, behind, reads⟩ := complete text lexeme token longest meaning
  obtain ⟨other, split, same⟩ := sound text found front behind reads
  obtain rfl := longest.unique other
  obtain rfl := functional lexeme token found meaning same
  rw [← whole] at split
  rw [reads, List.append_cancel_left split]

theorem length_le_takeWhile {p : Char → Bool} {front text : List Char} (inside : front <+: text)
    (all : ∀ c ∈ front, p c = true) : front.length ≤ (text.takeWhile p).length := by
  obtain ⟨rest, rfl⟩ := inside
  rw [List.takeWhile_append_of_pos all, List.length_append]
  exact Nat.le_add_right _ _

/-! ## Words -/

/-- The text is a word: a letter or an underscore, and then characters that a word may go on
with. -/
def IsWord : List Char → Prop
  | [] => False
  | c :: rest => isWordStart c = true ∧ ∀ d ∈ rest, isWordChar d = true

theorem readWord_takesLongest :
    TakesLongest Token.readWord IsWord fun lexeme token =>
      token = Token.ofWord (String.ofList lexeme) := by
  apply takesLongest_of
  · intro text token lexeme rest reads
    cases text with
    | nil => exact absurd reads (by simp [Token.readWord])
    | cons c text =>
        simp only [Token.readWord] at reads
        split at reads
        · next start =>
            cases reads
            refine ⟨⟨⟨start, List.all_eq_true.mp List.all_takeWhile⟩, ?_, ?_⟩, by simp, rfl⟩
            · exact (List.cons_prefix_cons.mpr ⟨rfl, List.takeWhile_prefix _⟩)
            · intro other word front
              cases other with
              | nil => exact word.elim
              | cons d other =>
                  have behind := (List.cons_prefix_cons.mp front).2
                  exact Nat.succ_le_succ (length_le_takeWhile behind word.2)
        · exact absurd reads (by simp)
  · intro text lexeme token longest _
    obtain ⟨rest, rfl⟩ := longest.front
    cases lexeme with
    | nil => exact longest.member.elim
    | cons c lexeme => exact ⟨_, _, _, if_pos longest.member.1⟩
  · rintro lexeme first second rfl rfl
    rfl

/-! ## Symbols -/

/-- The text is the spelling of a symbol. -/
def IsSymbol (text : List Char) : Prop :=
  ∃ symbol : Symbol, symbol.spelling = text

theorem behind?_append (lexeme rest : List Char) : behind? lexeme (lexeme ++ rest) = some rest := by
  have front : lexeme.isPrefixOf (lexeme ++ rest) = true :=
    List.isPrefixOf_iff_prefix.mpr (List.prefix_append _ _)
  rw [behind?, if_pos front, List.drop_left]

theorem behind?_eq_none {lexeme text : List Char} (other : ¬ lexeme <+: text) :
    behind? lexeme text = none := by
  rw [behind?, if_neg]
  rw [List.isPrefixOf_iff_prefix]
  exact other

namespace Symbol

theorem spelling_injective {first second : Symbol} (same : first.spelling = second.spelling) :
    first = second := by
  have all : ∀ one ∈ all, ∀ other ∈ all, one.spelling = other.spelling → one = other := by
    decide +kernel
  exact all first (mem_all first) second (mem_all second) same

theorem longer_first :
    all.Pairwise fun earlier later => later.spelling.length ≤ earlier.spelling.length := by
  decide

/-- The first symbol in the list that a text starts with is the longest. -/
theorem length_le_of_split? {text rest : List Char} {symbol other : Symbol}
    (found : split? text = some (symbol, rest)) (front : other.spelling <+: text) :
    other.spelling.length ≤ symbol.spelling.length := by
  obtain ⟨earlier, one, later, order, here, none⟩ := List.findSome?_eq_some_iff.mp found
  obtain ⟨_, _, same⟩ := Option.map_eq_some_iff.mp here
  obtain rfl : one = symbol := congrArg Prod.fst same
  obtain ⟨behind, rfl⟩ := front
  have sorted := longer_first
  have member := mem_all other
  rw [order] at sorted member
  rcases List.mem_append.mp member with before | after
  · have absent := none other before
    rw [behind?_append] at absent
    exact absurd absent (by simp)
  · rcases List.mem_cons.mp after with rfl | after
    · exact Nat.le_refl _
    · exact List.rel_of_pairwise_cons (List.pairwise_append.mp sorted).2.1 after

end Symbol

theorem readSymbol_takesLongest :
    TakesLongest Token.readSymbol IsSymbol fun lexeme token =>
      ∃ symbol : Symbol, symbol.spelling = lexeme ∧ token = .symbol symbol := by
  apply takesLongest_of
  · intro text token lexeme rest reads
    have splits := Token.readSymbol_splits text
    rw [reads] at splits
    simp only [Token.readSymbol] at reads
    split at reads
    · next symbol behind found =>
        cases reads
        refine ⟨⟨⟨symbol, rfl⟩, ⟨rest, splits.2⟩, ?_⟩, splits.2, symbol, rfl, rfl⟩
        rintro other ⟨longer, rfl⟩ front
        exact Symbol.length_le_of_split? found front
    · exact absurd reads (by simp)
  · rintro text lexeme token longest ⟨symbol, rfl, rfl⟩
    obtain ⟨rest, rfl⟩ := longest.front
    cases found : Symbol.split? (symbol.spelling ++ rest) with
    | none =>
        have absent := List.findSome?_eq_none_iff.mp found symbol (Symbol.mem_all symbol)
        rw [behind?_append] at absent
        exact absurd absent (by simp)
    | some front =>
        refine ⟨.symbol front.1, front.1.spelling, front.2, ?_⟩
        rw [Token.readSymbol, found]
  · rintro lexeme first second ⟨one, spelled, rfl⟩ ⟨other, rfl, rfl⟩
    rw [Symbol.spelling_injective spelled]

end SmallMl
