import SmallMl.Token.StringLiteral

/-!
# How a string is written

Between the quotes of a literal a character stands for itself, or a backslash and a letter stand for
it. Main statement: the reader of string literals accepts exactly these writings, each with the
string that it writes.
-/

namespace SmallMl

namespace StringLiteral

/-- The letters that may follow a backslash, each with the character that the two stand for. -/
def escapes : List (Char × Char) :=
  [('n', '\n'), ('t', '\t'), ('r', '\r'), ('\\', '\\'), ('"', '"')]

/-- The value is written so behind the opening quote of a literal, up to the closing quote and with
it. -/
inductive Writes : List Char → List Char → Prop where
  | closed : Writes [] ['"']
  | plain {c : Char} {value written : List Char} (usual : c ∉ ['"', '\\', '\n'])
      (later : Writes value written) : Writes (c :: value) (c :: written)
  | escaped {letter c : Char} {value written : List Char} (means : (letter, c) ∈ escapes)
      (later : Writes value written) : Writes (c :: value) ('\\' :: letter :: written)

theorem escapeValue?_eq_some_iff {letter c : Char} :
    escapeValue? letter = some c ↔ (letter, c) ∈ escapes := by
  constructor
  · intro means
    unfold escapeValue? at means
    split at means <;> cases means <;> decide
  · intro member
    simp only [escapes, List.mem_cons, Prod.mk.injEq, List.not_mem_nil, or_false] at member
    rcases member with ⟨rfl, rfl⟩ | ⟨rfl, rfl⟩ | ⟨rfl, rfl⟩ | ⟨rfl, rfl⟩ | ⟨rfl, rfl⟩ <;> rfl

theorem writes_of_body? {text : List Char} {part : Part} (closed : body? text = some part) :
    Writes part.value part.written := by
  fun_induction body? text generalizing part with
  | case1 => exact absurd closed (by simp)
  | case2 rest =>
      cases closed
      exact .closed
  | case3 letter rest c means ih =>
      obtain ⟨inner, read, rfl⟩ := Option.map_eq_some_iff.mp closed
      exact .escaped (escapeValue?_eq_some_iff.mp means) (ih read)
  | case4 => exact absurd closed (by simp)
  | case5 => exact absurd closed (by simp)
  | case6 c rest quote escape feed ih =>
      obtain ⟨inner, read, rfl⟩ := Option.map_eq_some_iff.mp closed
      have usual : c ∉ ['"', '\\', '\n'] := by
        simp only [List.mem_cons, List.not_mem_nil, or_false, not_or]
        refine ⟨quote, ?_, feed⟩
        rintro rfl
        -- a backslash that nothing follows closes no literal
        cases rest with
        | nil => exact absurd read (by simp [body?])
        | cons letter rest => exact escape letter rest rfl rfl
      exact .plain usual (ih read)

theorem body?_of_writes {value written : List Char} (writes : Writes value written)
    (rest : List Char) : body? (written ++ rest) = some ⟨value, written, rest⟩ := by
  induction writes with
  | closed => rfl
  | @plain c value written usual _ ih =>
      simp only [List.mem_cons, List.not_mem_nil, or_false, not_or] at usual
      obtain ⟨quote, backslash, feed⟩ := usual
      rw [List.cons_append, body?, ih]
      · rfl
      · exact quote
      · rintro _ _ rfl
        exact absurd rfl backslash
      · exact feed
  | escaped means _ ih =>
      simp only [List.cons_append, body?, escapeValue?_eq_some_iff.mpr means, ih]
      rfl

/-- What is read behind an opening quote is a writing of the value, and what follows it is the
rest. -/
theorem body?_eq_some_iff {text : List Char} {part : Part} :
    body? text = some part ↔ Writes part.value part.written ∧ text = part.written ++ part.rest := by
  constructor
  · intro closed
    exact ⟨writes_of_body? closed, (body?_eq_some closed).symm⟩
  · rintro ⟨writes, rfl⟩
    exact body?_of_writes writes part.rest

end StringLiteral

/-- The text is a string literal, from the quote that opens it to the one that closes it. -/
def IsStringLiteral (text : List Char) : Prop :=
  ∃ value written, text = '"' :: written ∧ StringLiteral.Writes value written

namespace Token

/-- A string literal is read from a text exactly if some front of the text is one. -/
theorem exists_readString_iff {text : List Char} :
    (∃ token lexeme rest, readString text = .token token lexeme rest) ↔
      ∃ front, front <+: text ∧ IsStringLiteral front := by
  constructor
  · rintro ⟨token, lexeme, rest, reads⟩
    unfold readString at reads
    split at reads
    · next text =>
        split at reads
        · next part closed =>
            obtain ⟨writes, rfl⟩ := StringLiteral.body?_eq_some_iff.mp closed
            exact ⟨'"' :: part.written, ⟨part.rest, rfl⟩, _, _, rfl, writes⟩
        · exact absurd reads (by simp)
    · exact absurd reads (by simp)
  · rintro ⟨_, ⟨rest, rfl⟩, value, written, rfl, writes⟩
    have closed := StringLiteral.body?_of_writes writes rest
    refine ⟨.string (String.ofList value), '"' :: written, rest, ?_⟩
    simp only [List.cons_append, readString, closed]

end Token

end SmallMl
