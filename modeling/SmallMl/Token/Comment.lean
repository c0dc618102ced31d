import SmallMl.Text.Blank
import SmallMl.Token.Reading

/-!
# Comments

A comment runs from `(*` to the `*)` that belongs to it; comments inside it open and close in the
same way. Its text is what stands between, without the white space around it. A comment that is
never closed is broken off: the parenthesis it starts with is no token.
-/

namespace SmallMl

namespace Comment

/-- Goes through the body of a comment in which `depth` further comments are open. `seen` holds the
characters already passed, the last one first. Returns all characters of the body in this order,
without the mark that closes it, and the text behind that mark. -/
def scan (depth : Nat) (seen : List Char) : List Char → Option (List Char × List Char)
  | [] => none
  | '*' :: ')' :: rest =>
      match depth with
      | 0 => some (seen, rest)
      | depth + 1 => scan depth (')' :: '*' :: seen) rest
  | '(' :: '*' :: rest => scan (depth + 1) ('*' :: '(' :: seen) rest
  | c :: rest => scan depth (c :: seen) rest

/-- The body of the comment that the characters before `text` have opened, and the text behind its
closing mark. -/
def body? (text : List Char) : Option (List Char × List Char) :=
  (scan 0 [] text).map fun (seen, rest) => (seen.reverse, rest)

theorem scan_eq_some {text : List Char} {depth : Nat} {seen body rest : List Char}
    (closed : scan depth seen text = some (body, rest)) :
    body.reverse ++ '*' :: ')' :: rest = seen.reverse ++ text := by
  fun_induction scan depth seen text with
  | case1 => exact absurd closed (by simp)
  | case2 => simp_all
  | case3 _ _ _ ih => simpa using ih closed
  | case4 _ _ _ ih => simpa using ih closed
  | case5 _ _ _ _ _ _ ih => simpa using ih closed

theorem body?_eq_some {text body rest : List Char} (closed : body? text = some (body, rest)) :
    body ++ '*' :: ')' :: rest = text := by
  simp only [body?, Option.map_eq_some_iff, Prod.exists, Prod.mk.injEq] at closed
  obtain ⟨seen, _, scanned, rfl, rfl⟩ := closed
  simpa using scan_eq_some scanned

end Comment

namespace Token

/-- Reads a comment. -/
def readComment : List Char → Reading
  | '(' :: '*' :: text =>
      match Comment.body? text with
      | some (body, rest) =>
          .token (comment (String.ofList (trimmed body))) ('(' :: '*' :: (body ++ ['*', ')'])) rest
      | none => .broken
  | _ => .absent

theorem readComment_splits (text : List Char) : (readComment text).Splits text := by
  unfold readComment
  split
  · split
    · next closed => simpa [Reading.Splits] using Comment.body?_eq_some closed
    · trivial
  · trivial

end Token

end SmallMl
