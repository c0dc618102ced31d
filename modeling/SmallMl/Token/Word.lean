import SmallMl.Token.Reading

/-!
# Words

A word is a letter or an underscore with the letters, digits, underscores and apostrophes behind it;
letters and digits are those of ASCII. Some words are keywords or truth values, a lone underscore is
a token of its own, and the rest are identifiers. The two array primitives are a module's word, a
point and a function's word, read as one.
-/

namespace SmallMl

/-- Whether a word may start with the character. -/
def isWordStart (c : Char) : Bool :=
  c.isAlpha || c == '_'

/-- Whether a word may go on with the character. -/
def isWordChar (c : Char) : Bool :=
  c.isAlphanum || c == '_' || c == '\''

namespace Token

/-- The token that a word stands for. -/
def ofWord (word : String) : Token :=
  if word = "true" then bool true
  else if word = "false" then bool false
  else if word = "_" then underscore
  else
    match Keyword.ofWord? word with
    | some k => keyword k
    | none => ident word

/-- Reads a word. -/
def readWord : List Char → Reading
  | [] => .absent
  | c :: rest =>
      if isWordStart c then
        let lexeme := c :: rest.takeWhile isWordChar
        .token (ofWord (String.ofList lexeme)) lexeme (rest.dropWhile isWordChar)
      else .absent

theorem readWord_splits (text : List Char) : (readWord text).Splits text := by
  cases text with
  | nil => trivial
  | cons c rest =>
      simp only [readWord]
      split
      · exact ⟨by simp, by simp⟩
      · trivial

/-- The array primitives with their lexemes. -/
def arrayPrimitives : List (Token × List Char) :=
  [(arrayMake, "Array.make".toList), (arrayLength, "Array.length".toList)]

/-- Reads an array primitive, unless its lexeme goes on as a longer word. -/
def readArrayPrimitive (text : List Char) : Reading :=
  let found := arrayPrimitives.findSome? fun (primitive, lexeme) =>
    match behind? lexeme text with
    | some rest =>
        if rest.head?.any isWordChar then none else some (Reading.token primitive lexeme rest)
    | none => none
  found.getD .absent

theorem readArrayPrimitive_splits (text : List Char) :
    (readArrayPrimitive text).Splits text := by
  unfold readArrayPrimitive
  simp only
  cases found : arrayPrimitives.findSome? _ with
  | none => trivial
  | some reading =>
      obtain ⟨⟨primitive, lexeme⟩, member, read⟩ := List.exists_of_findSome?_eq_some found
      simp only at read
      split at read
      · next matched =>
          split at read
          · exact absurd read (by simp)
          · cases read
            refine ⟨?_, behind?_eq_some matched⟩
            simp only [arrayPrimitives, List.mem_cons, Prod.mk.injEq, List.not_mem_nil, or_false]
              at member
            rcases member with ⟨_, rfl⟩ | ⟨_, rfl⟩ <;> decide
      · exact absurd read (by simp)

/-- Reads an operator or a delimiter. -/
def readSymbol (text : List Char) : Reading :=
  match Symbol.split? text with
  | some (s, rest) => .token (symbol s) s.spelling rest
  | none => .absent

theorem readSymbol_splits (text : List Char) : (readSymbol text).Splits text := by
  unfold readSymbol
  split
  · next s rest found =>
      obtain ⟨symbol, _, matched⟩ := List.exists_of_findSome?_eq_some found
      obtain ⟨_, isFront, same⟩ := Option.map_eq_some_iff.mp matched
      cases same
      exact ⟨s.spelling_ne_nil, behind?_eq_some isFront⟩
  · trivial

end Token

end SmallMl
