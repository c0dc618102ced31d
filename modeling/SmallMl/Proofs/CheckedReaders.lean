import Mathlib.Data.List.Forall2
import SmallMl.Proofs.Slices
import SmallMl.Token.Reader

/-!
# Readers with checks

The readers told with every step that may fail: a slice where no character ends, a number taken from
a smaller one. A reader hands on the token and the text behind it, which is a slice of what was read.
Main statement: no step fails at any text, and what is handed on is what the readers without checks
find.
-/

namespace SmallMl

/-- What a reader hands on: a token and the text behind it, or no token. -/
inductive Parse where
  | token (token : Token) (rest : List Char)
  | absent
  | broken
  deriving DecidableEq, Repr

/-- A reading without the lexeme of its token. -/
def Reading.parse : Reading → Parse
  | token t _ rest => .token t rest
  | absent => .absent
  | broken => .broken

/-! ## Comments -/

namespace Comment

/-- The text behind the marks that close `depth` open comments, or no text if one of them is never
closed. -/
def close? : Nat → List Char → Option (Option (List Char))
  | 0, text => some (some text)
  | _ + 1, [] => some none
  | depth + 1, '*' :: ')' :: rest => do close? (← difference? (depth + 1) 1) rest
  | depth + 1, '(' :: '*' :: rest => close? (depth + 2) rest
  | depth + 1, c :: rest =>
      match _cut : behindBytes? c.utf8Size (c :: rest) with
      | none => none
      | some behind => close? (depth + 1) behind
termination_by _ text => text.length
decreasing_by
  · simp only [List.length_cons]
    omega
  · simp only [List.length_cons]
    omega
  · exact length_lt_of_behindBytes? _cut

/-- Where the scan finds the mark that closes a comment, the loop with checks finds it too. -/
theorem close?_eq (depth : Nat) (seen text : List Char) :
    close? (depth + 1) text = some ((scan depth seen text).map Prod.snd) := by
  fun_induction scan depth seen text with
  | case1 => simp [close?]
  | case2 seen rest => simp [close?, difference?]
  | case3 seen rest depth ih => simpa [close?, difference?] using ih
  | case4 depth seen rest ih => rw [close?, ih]
  | case5 depth seen c rest closes opens ih =>
      have passed : behindBytes? c.utf8Size (c :: rest) = some rest :=
        behindBytes?_eq_some_iff.mpr ⟨[c], rfl, rfl⟩
      rw [close?]
      · split
        · next stuck => exact absurd (stuck.symm.trans passed) (by simp)
        · next cut =>
            cases cut.symm.trans passed
            exact ih
      · exact closes
      · exact opens

end Comment

/-! ## String literals -/

namespace StringLiteral

/-- Goes through the body of a literal, of which `index` bytes are passed and `text` is left; `value`
holds the characters of the value, the last one first. The text behind the literal is a slice of the
body. -/
def parse? (body : List Char) (index : Nat) (value : List Char) : List Char → Option Parse
  | [] => some .absent
  | '"' :: _ => do
      return .token (.string (String.ofList value.reverse)) (← behindBytes? (index + 1) body)
  | '\\' :: letter :: text =>
      match escapeValue? letter with
      | some c => parse? body (index + 1 + letter.utf8Size) (c :: value) text
      | none => some .absent
  | '\n' :: _ => some .absent
  | c :: text => parse? body (index + c.utf8Size) (c :: value) text

/-- Behind any characters of the body, the literal goes on as its reader says. -/
theorem parse?_append (passed value text : List Char) :
    parse? (passed ++ text) (byteLength passed) value text =
      some (match body? text with
        | some part => .token (.string (String.ofList (value.reverse ++ part.value))) part.rest
        | none => .absent) := by
  fun_induction body? text generalizing passed value with
  | case1 => rfl
  | case2 rest =>
      have cut : behindBytes? (byteLength passed + 1) (passed ++ '"' :: rest) = some rest :=
        behindBytes?_eq_some_iff.mpr ⟨passed ++ ['"'], by simp, by simp; rfl⟩
      simp [parse?, cut]
  | case3 letter rest c means ih =>
      have backslash : ('\\' : Char).utf8Size = 1 := rfl
      have later := ih (passed ++ ['\\', letter]) (c :: value)
      simp only [List.append_assoc, List.cons_append, List.nil_append, byteLength_append,
        byteLength_cons, byteLength_nil, backslash, Nat.add_zero, ← Nat.add_assoc] at later
      simp only [parse?, means, later]
      cases body? rest <;> simp [Part.cons]
  | case4 letter rest means => simp [parse?, means]
  | case5 => rfl
  | case6 c rest quote escape feed ih =>
      have later := ih (passed ++ [c]) (c :: value)
      simp only [List.append_assoc, List.cons_append, List.nil_append, byteLength_append,
        byteLength_cons, byteLength_nil, Nat.add_zero] at later
      rw [parse?]
      · rw [later]
        cases body? rest <;> simp [Part.cons]
      · exact quote
      · exact escape
      · exact feed

end StringLiteral

/-! ## Tokens -/

namespace Token

/-- Reads a comment. Its text is a slice of what is read: the marks at both ends have two bytes each,
so that the bytes read are four at least. -/
def parseComment? : List Char → Option Parse
  | '(' :: '*' :: text => do
      let input := '(' :: '*' :: text
      match ← Comment.close? 1 text with
      | none => return .broken
      | some rest =>
          let consumed ← difference? (byteLength input) (byteLength rest)
          let body ← slice? 2 (← difference? consumed 2) input
          return .token (comment (String.ofList (trimmed body))) rest
  | _ => some .absent

/-- Reads a string literal. -/
def parseString? : List Char → Option Parse
  | '"' :: text => StringLiteral.parse? text 0 [] text
  | _ => some .absent

/-- All readers in their order. Those for comments and for string literals take slices; the others
only look at one character after the other. -/
def parsers : List (List Char → Option Parse) :=
  [parseComment?, parseString?] ++
    [readArrayPrimitive, readNumeral, readWord, readSymbol].map fun reader text =>
      some (reader text).parse

/-- What the first of the readers hands on that does not leave the text to the others. -/
def firstParse? (text : List Char) : List (List Char → Option Parse) → Option Parse
  | [] => some .absent
  | parser :: others => do
      match ← parser text with
      | .absent => firstParse? text others
      | parse => return parse

/-- Reads the token at the front of a text. -/
def parse? (text : List Char) : Option Parse :=
  firstParse? text parsers

/-- At the mark that opens a comment, no difference fails, and the slice is the comment's body. -/
theorem parseComment?_of_opened (text : List Char) :
    parseComment? ('(' :: '*' :: text) = some (readComment ('(' :: '*' :: text)).parse := by
  have closes := Comment.close?_eq 0 [] text
  rw [parseComment?, readComment, closes, Comment.body?]
  cases closed : Comment.scan 0 [] text with
  | none => rfl
  | some found =>
      obtain ⟨seen, rest⟩ := found
      have whole : seen.reverse ++ '*' :: ')' :: rest = text := by
        simpa using Comment.scan_eq_some closed
      have marks : ('(' : Char).utf8Size = 1 ∧ (')' : Char).utf8Size = 1 ∧
          ('*' : Char).utf8Size = 1 := ⟨rfl, rfl, rfl⟩
      have consumed : difference? (byteLength ('(' :: '*' :: text)) (byteLength rest) =
          some (2 + byteLength seen.reverse + 2) := by
        rw [difference?_eq_some_iff, ← whole]
        simp only [byteLength_append, byteLength_cons, marks]
        omega
      have inside : difference? (2 + byteLength seen.reverse + 2) 2 =
          some (2 + byteLength seen.reverse) :=
        difference?_eq_some_iff.mpr (Nat.add_comm _ _)
      have body : slice? 2 (2 + byteLength seen.reverse) ('(' :: '*' :: text) =
          some seen.reverse :=
        slice?_eq_some_iff.mpr ⟨['(', '*'], '*' :: ')' :: rest, by rw [whole]; rfl, rfl, rfl⟩
      simp only [Option.map_some, Option.bind_eq_bind, Option.bind_some, consumed, inside, body]
      rfl

theorem parseComment?_eq (text : List Char) :
    parseComment? text = some (readComment text).parse := by
  by_cases opened : ∃ behind, text = '(' :: '*' :: behind
  · obtain ⟨behind, rfl⟩ := opened
    exact parseComment?_of_opened behind
  · have other : ∀ behind, text = '(' :: '*' :: behind → False :=
      fun behind front => opened ⟨behind, front⟩
    rw [parseComment?, readComment, Reading.parse]
    · exact other
    · exact other

theorem parseString?_eq (text : List Char) : parseString? text = some (readString text).parse := by
  by_cases opened : ∃ behind, text = '"' :: behind
  · obtain ⟨behind, rfl⟩ := opened
    have parses := StringLiteral.parse?_append [] [] behind
    rw [List.nil_append, byteLength_nil] at parses
    rw [parseString?, readString, parses]
    cases StringLiteral.body? behind <;> rfl
  · have other : ∀ behind, text = '"' :: behind → False :=
      fun behind front => opened ⟨behind, front⟩
    rw [parseString?, readString, Reading.parse]
    · exact other
    · exact other

theorem firstParse?_eq {text : List Char} {parsers : List (List Char → Option Parse)}
    {readers : List (List Char → Reading)}
    (same : List.Forall₂ (fun parser reader => parser text = some (reader text).parse) parsers
      readers) : firstParse? text parsers = some (Reading.first text readers).parse := by
  induction same with
  | nil => rfl
  | @cons parser reader _ _ here _ ih =>
      rw [firstParse?, here, Reading.first]
      cases reader text with
      | token => rfl
      | absent => exact ih
      | broken => rfl

/-- Reading a token fails nowhere, and comes to what the readers without checks come to. -/
theorem parse?_eq (text : List Char) : parse? text = some (read text).parse :=
  firstParse?_eq (.cons (parseComment?_eq text) (.cons (parseString?_eq text)
    (.cons rfl (.cons rfl (.cons rfl (.cons rfl .nil))))))

end Token

end SmallMl
