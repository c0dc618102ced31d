import SmallMl.Token.Comment

/-!
# Comments nest

A comment opens with one mark and closes with another; between them stand comments and characters
that belong to neither mark. Main statement: the scan with a depth finds a comment at the front of a
text exactly where some front of the text is a comment.
-/

namespace SmallMl

namespace Comment

/-- What follows the mark that opens a comment, up to the mark that closes it and with it. A
character between comments is not the first one of a mark. -/
inductive Remainder : List Char → Prop where
  | closed : Remainder ['*', ')']
  | nested {inner rest : List Char} (inside : Remainder inner) (later : Remainder rest) :
      Remainder ('(' :: '*' :: (inner ++ rest))
  | plain {c : Char} {rest : List Char} (opensNone : c = '(' → rest.head? ≠ some '*')
      (closesNone : c = '*' → rest.head? ≠ some ')') (later : Remainder rest) :
      Remainder (c :: rest)

theorem Remainder.ne_nil {text : List Char} (remainder : Remainder text) : text ≠ [] := by
  cases remainder <;> simp

/-- What stands behind a remainder is not seen from inside. -/
theorem Remainder.head?_append {text : List Char} (remainder : Remainder text)
    (rest : List Char) : (text ++ rest).head? = text.head? := by
  obtain ⟨c, tail, rfl⟩ := List.exists_cons_of_ne_nil remainder.ne_nil
  rfl

/-- A scan passes a character that is not the first one of a mark. -/
theorem scan_plain {c : Char} {text : List Char} (opensNone : c = '(' → text.head? ≠ some '*')
    (closesNone : c = '*' → text.head? ≠ some ')') (depth : Nat) (seen : List Char) :
    scan depth seen (c :: text) = scan depth (c :: seen) text := by
  rw [scan]
  · rintro rest rfl rfl
    exact closesNone rfl rfl
  · rintro rest rfl rfl
    exact opensNone rfl rfl

/-- Behind the remainder of an inner comment, a scan goes on in the comment around it. -/
theorem scan_remainder_succ {text : List Char} (remainder : Remainder text) (depth : Nat)
    (seen rest : List Char) :
    scan (depth + 1) seen (text ++ rest) = scan depth (text.reverse ++ seen) rest := by
  induction remainder generalizing depth seen rest with
  | closed => rfl
  | nested _ _ ihInside ihLater =>
      rw [List.cons_append, List.cons_append, List.append_assoc, scan, ihInside, ihLater]
      simp
  | plain opensNone closesNone later ih =>
      rw [← later.head?_append rest] at opensNone closesNone
      rw [List.cons_append, scan_plain opensNone closesNone, ih]
      simp

/-- Behind the remainder of the outermost comment, a scan ends. -/
theorem scan_remainder_zero {text : List Char} (remainder : Remainder text)
    (seen rest : List Char) : ∃ body, scan 0 seen (text ++ rest) = some (body, rest) := by
  induction remainder generalizing seen rest with
  | closed => exact ⟨seen, rfl⟩
  | @nested inner behind inside _ _ ihLater =>
      rw [List.cons_append, List.cons_append, List.append_assoc, scan, scan_remainder_succ inside]
      exact ihLater _ rest
  | plain opensNone closesNone later ih =>
      rw [← later.head?_append rest] at opensNone closesNone
      rw [List.cons_append, scan_plain opensNone closesNone]
      exact ih _ rest

/-- A scan that ends has passed the remainders of all comments that were open. -/
theorem remainders_of_scan {text body rest : List Char} {depth : Nat} {seen : List Char}
    (ends : scan depth seen text = some (body, rest)) :
    ∃ parts : List (List Char), parts.length = depth + 1 ∧ (∀ part ∈ parts, Remainder part) ∧
      text = parts.flatten ++ rest := by
  fun_induction scan depth seen text with
  | case1 => exact absurd ends (by simp)
  | case2 seen behind =>
      cases ends
      exact ⟨[['*', ')']], rfl, by simpa using Remainder.closed, rfl⟩
  | case3 seen behind depth ih =>
      obtain ⟨parts, count, all, rfl⟩ := ih ends
      refine ⟨['*', ')'] :: parts, by rw [List.length_cons, count], ?_, rfl⟩
      exact List.forall_mem_cons.mpr ⟨.closed, all⟩
  | case4 depth seen behind ih =>
      -- the comment that opens here is the first part, and the one around it the second
      obtain ⟨parts, count, all, rfl⟩ := ih ends
      obtain ⟨inner, parts, rfl⟩ := List.exists_cons_of_length_eq_add_one count
      rw [List.length_cons, Nat.add_right_cancel_iff] at count
      obtain ⟨outer, others, rfl⟩ := List.exists_cons_of_length_eq_add_one count
      simp only [List.forall_mem_cons] at all
      refine ⟨('(' :: '*' :: (inner ++ outer)) :: others, ?_, ?_, by simp⟩
      · simpa using count
      · exact List.forall_mem_cons.mpr ⟨.nested all.1 all.2.1, all.2.2⟩
  | case5 depth seen c behind closes opens ih =>
      obtain ⟨parts, count, all, rfl⟩ := ih ends
      obtain ⟨first, others, rfl⟩ := List.exists_cons_of_length_eq_add_one count
      rw [List.forall_mem_cons] at all
      have head : (first ++ (others.flatten ++ rest)).head? = first.head? :=
        all.1.head?_append _
      rw [List.flatten_cons, List.append_assoc] at closes opens
      have opensNone : c = '(' → first.head? ≠ some '*' := by
        rintro rfl star
        rw [← head] at star
        obtain ⟨tail, split⟩ := List.head?_eq_some_iff.mp star
        exact opens tail rfl split
      have closesNone : c = '*' → first.head? ≠ some ')' := by
        rintro rfl parenthesis
        rw [← head] at parenthesis
        obtain ⟨tail, split⟩ := List.head?_eq_some_iff.mp parenthesis
        exact closes tail rfl split
      refine ⟨(c :: first) :: others, count, ?_, rfl⟩
      exact List.forall_mem_cons.mpr ⟨.plain opensNone closesNone all.1, all.2⟩

/-- A text has a body with a rest behind it exactly if it starts with the remainder of a comment. -/
theorem body?_eq_some_iff {text body rest : List Char} :
    body? text = some (body, rest) ↔
      Remainder (body ++ ['*', ')']) ∧ text = body ++ ['*', ')'] ++ rest := by
  constructor
  · intro closed
    have whole : body ++ ['*', ')'] ++ rest = text := by simpa using body?_eq_some closed
    simp only [body?, Option.map_eq_some_iff, Prod.exists, Prod.mk.injEq] at closed
    obtain ⟨seen, _, scanned, rfl, rfl⟩ := closed
    obtain ⟨parts, count, all, split⟩ := remainders_of_scan scanned
    obtain ⟨part, rfl⟩ := List.length_eq_one_iff.mp count
    rw [List.flatten_singleton, ← whole] at split
    rw [List.append_cancel_right split]
    exact ⟨all part (List.mem_singleton_self part), by rw [← whole, List.append_cancel_right split]⟩
  · rintro ⟨remainder, rfl⟩
    obtain ⟨seen, scanned⟩ := scan_remainder_zero remainder [] rest
    have whole : seen.reverse ++ ['*', ')'] ++ rest = body ++ ['*', ')'] ++ rest := by
      simpa using scan_eq_some scanned
    rw [List.append_cancel_right_eq, List.append_cancel_right_eq] at whole
    simp only [body?, scanned, Option.map_some, whole]

end Comment

/-- The text is a comment, from the mark that opens it to the one that closes it. -/
def IsComment (text : List Char) : Prop :=
  ∃ remainder, text = '(' :: '*' :: remainder ∧ Comment.Remainder remainder

namespace Token

/-- A comment is read from a text exactly if some front of the text is one. -/
theorem exists_readComment_iff {text : List Char} :
    (∃ token lexeme rest, readComment text = .token token lexeme rest) ↔
      ∃ front, front <+: text ∧ IsComment front := by
  constructor
  · rintro ⟨token, lexeme, rest, reads⟩
    unfold readComment at reads
    split at reads
    · next text =>
        split at reads
        · next body behind closed =>
            obtain ⟨remainder, split⟩ := Comment.body?_eq_some_iff.mp closed
            refine ⟨'(' :: '*' :: (body ++ ['*', ')']), ?_, _, rfl, remainder⟩
            exact ⟨behind, by rw [split]; rfl⟩
        · exact absurd reads (by simp)
    · exact absurd reads (by simp)
  · rintro ⟨_, ⟨rest, rfl⟩, remainder, rfl, closes⟩
    obtain ⟨seen, scanned⟩ := Comment.scan_remainder_zero closes [] rest
    have closed : Comment.body? (remainder ++ rest) = some (seen.reverse, rest) := by
      rw [Comment.body?, scanned]
      rfl
    refine ⟨.comment (String.ofList (trimmed seen.reverse)),
      '(' :: '*' :: (seen.reverse ++ ['*', ')']), rest, ?_⟩
    simp only [List.cons_append, readComment, closed]

end Token

end SmallMl
