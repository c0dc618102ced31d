import SmallMl.Proofs.DecimalText
import SmallMl.Proofs.ListingLines
import SmallMl.Proofs.QuotedText

/-!
# Headings say what an instruction is

The first word behind the bound name tells the form of an instruction, and the words behind it its
operands. Main statement: instructions with plain names and one heading bind one name and are of one
form with the same operands, up to the payload of a float that is no number.
-/

namespace SmallMl

/-- Behind one and the same word the phrases are the same. -/
theorem phrase_tail_inj {word : String} {rest others : List String}
    (same : phrase (word :: rest) = phrase (word :: others)) : phrase rest = phrase others := by
  cases rest with
  | nil =>
      cases others with
      | nil => rfl
      | cons next others =>
          have texts := congrArg String.toList same
          rw [phrase_singleton, toList_phrase_cons_cons] at texts
          simp at texts
  | cons next rest =>
      cases others with
      | nil =>
          have texts := congrArg String.toList same
          rw [phrase_singleton, toList_phrase_cons_cons] at texts
          simp at texts
      | cons after others =>
          have texts := congrArg String.toList same
          rw [toList_phrase_cons_cons, toList_phrase_cons_cons] at texts
          exact String.toList_inj.mp (List.cons.inj (List.append_cancel_left texts)).2

namespace UnaryOperator

theorem spaceless_sign (operator : UnaryOperator) : Spaceless operator.sign := by
  cases operator <;> decide

theorem sign_injective {first second : UnaryOperator} (same : first.sign = second.sign) :
    first = second := by
  cases first <;> cases second <;> first | rfl | exact absurd same (by decide)

end UnaryOperator

namespace BinaryOperator

theorem spaceless_sign (operator : BinaryOperator) : Spaceless operator.sign := by
  cases operator <;> decide

theorem sign_injective {first second : BinaryOperator} (same : first.sign = second.sign) :
    first = second := by
  cases first <;> cases second <;> first | rfl | exact absurd same (by decide)

end BinaryOperator

namespace CallKind

theorem spaceless_word (kind : CallKind) : Spaceless kind.word := by
  cases kind <;> decide

theorem word_injective {first second : CallKind} (same : first.word = second.word) :
    first = second := by
  cases first <;> cases second <;> first | rfl | exact absurd same (by decide)

end CallKind

namespace Operation

/-- The word that tells the form of the operation. -/
def keyword : Operation → String
  | unit => "unit"
  | bool _ => "bool"
  | int _ => "int"
  | float _ => "float"
  | string _ => "string"
  | reference _ => "ref"
  | externalReference _ => "xref"
  | unary _ _ => "unary"
  | binary _ _ _ => "binary"
  | makeClosure _ _ => "makecls"
  | tuple _ => "tuple"
  | tupleLoad _ _ => "tplload"
  | array _ _ => "array"
  | arrayLoad _ _ => "arrload"
  | arrayStore _ _ _ => "arrstore"
  | arrayLength _ => "arrlen"

/-- The words behind the keyword. -/
def operands : Operation → List String
  | unit => []
  | bool value => [toString value]
  | int value => [toString value.toInt]
  | float value => [floatStyle.text value]
  | string value => [quotedString value]
  | reference name => [name]
  | externalReference name => [name]
  | unary operator operand => [operator.sign, operand]
  | binary operator left right => [operator.sign, left, right]
  | makeClosure captured function => ["(" ++ nameList captured ++ ")", function]
  | tuple elements => [nameList elements]
  | tupleLoad source index => [toString index, source]
  | array size element => [size, element]
  | arrayLoad source index => [index, source]
  | arrayStore target index value => [index, target, value]
  | arrayLength source => [source]

/-- The names that the operation reads, in the order in which they are listed. -/
def names : Operation → List Name
  | unit | bool _ | int _ | float _ | string _ => []
  | reference name => [name]
  | externalReference name => [name]
  | unary _ operand => [operand]
  | binary _ left right => [left, right]
  | makeClosure captured function => captured ++ [function]
  | tuple elements => elements
  | tupleLoad source _ => [source]
  | array size element => [size, element]
  | arrayLoad source index => [index, source]
  | arrayStore target index value => [index, target, value]
  | arrayLength source => [source]

/-- The operation, with one value in place of all floats that are no number. -/
def canonical : Operation → Operation
  | float value => float value.canonical
  | other => other

theorem listing_eq (operation : Operation) :
    operation.listing = phrase (operation.keyword :: operation.operands) := by
  cases operation <;> rfl

theorem spaceless_keyword (operation : Operation) : Spaceless operation.keyword := by
  cases operation <;> simp [Spaceless, keyword]

theorem keyword_of_listing {first second : Operation} (same : first.listing = second.listing) :
    first.keyword = second.keyword := by
  have words := congrArg firstWord same
  rw [listing_eq, listing_eq, firstWord_phrase first.spaceless_keyword,
    firstWord_phrase second.spaceless_keyword] at words
  exact String.toList_inj.mp words

theorem toString_bool_injective {first second : Bool} (same : toString first = toString second) :
    first = second := by
  cases first <;> cases second <;> first | rfl | exact absurd same (by decide)

theorem spaceless_toString (n : Nat) : Spaceless (toString n) :=
  not_mem_toString_nat (by decide) n

/-- Captured names in parentheses and a function behind them are found again. -/
theorem captured_inj {captured others : List Name} {function other : Name}
    (one : ∀ name ∈ captured, IsPlain name) (two : ∀ name ∈ others, IsPlain name)
    (same : phrase ["(" ++ nameList captured ++ ")", function] =
      phrase ["(" ++ nameList others ++ ")", other]) :
    captured = others ∧ function = other := by
  have shape : ∀ (names : List Name) (name : Name),
      (phrase ["(" ++ nameList names ++ ")", name]).toList =
        '(' :: ((nameList names).toList ++ ')' :: (' ' :: name.toList)) := by
    intro names name
    rw [toList_phrase_cons_cons, phrase_singleton]
    simp
  have texts := congrArg String.toList same
  rw [shape, shape] at texts
  have free : ∀ names : List Name, (∀ name ∈ names, IsPlain name) →
      ')' ∉ (nameList names).toList :=
    fun names plain => not_mem_nameList (not_mem_of_plain plain (by decide)) (by decide)
  obtain ⟨lists, functions⟩ :=
    append_cons_inj (free captured one) (free others two) (List.cons.inj texts).2
  exact ⟨nameList_injective one two (String.toList_inj.mp lists),
    String.toList_inj.mp (List.cons.inj functions).2⟩

/-- Operations with plain names and one listing are one operation, up to the payload of a float that
is no number. -/
theorem canonical_of_listing {first second : Operation} (one : ∀ name ∈ first.names, IsPlain name)
    (two : ∀ name ∈ second.names, IsPlain name) (same : first.listing = second.listing) :
    first.canonical = second.canonical := by
  have keywords := keyword_of_listing same
  have behind : phrase first.operands = phrase second.operands := by
    rw [listing_eq, listing_eq, keywords] at same
    exact phrase_tail_inj same
  cases first with
  | unit =>
      cases second with
      | unit => rfl
      | _ => exact absurd keywords (by simp [keyword])
  | bool value =>
      cases second with
      | bool other =>
          simp only [operands, phrase_singleton] at behind
          rw [toString_bool_injective behind]
      | _ => exact absurd keywords (by simp [keyword])
  | int value =>
      cases second with
      | int other =>
          simp only [operands, phrase_singleton] at behind
          rw [Int64.toInt_inj.mp (toString_int_injective behind)]
      | _ => exact absurd keywords (by simp [keyword])
  | float value =>
      cases second with
      | float other =>
          simp only [operands, phrase_singleton] at behind
          exact congrArg float (floatStyle.text_eq_iff.mp behind)
      | _ => exact absurd keywords (by simp [keyword])
  | string value =>
      cases second with
      | string other =>
          simp only [operands, phrase_singleton] at behind
          rw [quotedString_inj.mp behind]
      | _ => exact absurd keywords (by simp [keyword])
  | reference name =>
      cases second with
      | reference other =>
          simp only [operands, phrase_singleton] at behind
          rw [behind]
      | _ => exact absurd keywords (by simp [keyword])
  | externalReference name =>
      cases second with
      | externalReference other =>
          simp only [operands, phrase_singleton] at behind
          rw [behind]
      | _ => exact absurd keywords (by simp [keyword])
  | unary operator operand =>
      cases second with
      | unary operator' operand' =>
          obtain ⟨signs, rest⟩ :=
            phrase_cons_inj operator.spaceless_sign operator'.spaceless_sign behind
          rw [UnaryOperator.sign_injective signs,
            List.singleton_inj.mp (phrase_injective one two rest)]
      | _ => exact absurd keywords (by simp [keyword])
  | binary operator left right =>
      cases second with
      | binary operator' left' right' =>
          obtain ⟨signs, rest⟩ :=
            phrase_cons_inj operator.spaceless_sign operator'.spaceless_sign behind
          cases BinaryOperator.sign_injective signs
          cases phrase_injective one two rest
          rfl
      | _ => exact absurd keywords (by simp [keyword])
  | makeClosure captured function =>
      cases second with
      | makeClosure captured' function' =>
          rw [names, List.forall_mem_append] at one two
          obtain ⟨rfl, rfl⟩ := captured_inj one.1 two.1 behind
          rfl
      | _ => exact absurd keywords (by simp [keyword])
  | tuple elements =>
      cases second with
      | tuple elements' =>
          simp only [operands, phrase_singleton] at behind
          rw [show elements = elements' from nameList_injective one two behind]
      | _ => exact absurd keywords (by simp [keyword])
  | tupleLoad source index =>
      cases second with
      | tupleLoad source' index' =>
          obtain ⟨indices, sources⟩ :=
            phrase_cons_inj (spaceless_toString index) (spaceless_toString index') behind
          cases toString_nat_injective indices
          cases phrase_injective one two sources
          rfl
      | _ => exact absurd keywords (by simp [keyword])
  | array size element =>
      cases second with
      | array size' element' =>
          cases phrase_injective one two behind
          rfl
      | _ => exact absurd keywords (by simp [keyword])
  | arrayLoad source index =>
      cases second with
      | arrayLoad source' index' =>
          cases phrase_injective one two behind
          rfl
      | _ => exact absurd keywords (by simp [keyword])
  | arrayStore target index value =>
      cases second with
      | arrayStore target' index' value' =>
          cases phrase_injective one two behind
          rfl
      | _ => exact absurd keywords (by simp [keyword])
  | arrayLength source =>
      cases second with
      | arrayLength source' =>
          cases phrase_injective one two behind
          rfl
      | _ => exact absurd keywords (by simp [keyword])

/-- The operands of an operation hold no line feed if its names hold none. -/
theorem lineFeed_not_mem_operands {operation : Operation}
    (unbroken : ∀ name ∈ operation.names, '\n' ∉ name.toList) :
    ∀ word ∈ operation.operands, '\n' ∉ word.toList := by
  cases operation with
  | unit => exact unbroken
  | bool value => cases value <;> decide
  | int value =>
      rw [operands, List.forall_mem_singleton]
      exact not_mem_toString_int (by decide) (by decide) value.toInt
  | float value =>
      rw [operands, List.forall_mem_singleton]
      exact floatStyle.not_mem_text (by decide) (by decide) value
  | string value =>
      rw [operands, List.forall_mem_singleton]
      exact lineFeed_not_mem_quotedString value
  | reference name => exact unbroken
  | externalReference name => exact unbroken
  | unary operator operand =>
      rw [operands, List.forall_mem_cons]
      exact ⟨by cases operator <;> decide, unbroken⟩
  | binary operator left right =>
      rw [operands, List.forall_mem_cons]
      exact ⟨by cases operator <;> decide, unbroken⟩
  | makeClosure captured function =>
      rw [names, List.forall_mem_append] at unbroken
      rw [operands, List.forall_mem_cons]
      have free : '\n' ∉ (nameList captured).toList := not_mem_nameList unbroken.1 (by decide)
      exact ⟨by simpa using free, unbroken.2⟩
  | tuple elements =>
      rw [operands, List.forall_mem_singleton]
      exact not_mem_nameList unbroken (by decide)
  | tupleLoad source index =>
      rw [operands, List.forall_mem_cons]
      exact ⟨not_mem_toString_nat (by decide) index, unbroken⟩
  | array size element => exact unbroken
  | arrayLoad source index => exact unbroken
  | arrayStore target index value => exact unbroken
  | arrayLength source => exact unbroken

theorem lineFeed_not_mem_listing {operation : Operation}
    (unbroken : ∀ name ∈ operation.names, '\n' ∉ name.toList) :
    '\n' ∉ operation.listing.toList := by
  rw [listing_eq]
  apply not_mem_phrase (by decide)
  rw [List.forall_mem_cons]
  exact ⟨by cases operation <;> simp [keyword], lineFeed_not_mem_operands unbroken⟩

theorem keyword_ne_word (operation : Operation) (kind : CallKind) :
    operation.keyword ≠ kind.word := by
  cases operation <;> cases kind <;> simp [keyword, CallKind.word]

theorem keyword_ne_if (operation : Operation) : operation.keyword ≠ "if" := by
  cases operation <;> simp [keyword]

theorem keyword_ne_fun (operation : Operation) : operation.keyword ≠ "fun" := by
  cases operation <;> simp [keyword]

end Operation

theorem CallKind.word_ne_if (kind : CallKind) : kind.word ≠ "if" := by
  cases kind <;> simp [word]

theorem CallKind.word_ne_fun (kind : CallKind) : kind.word ≠ "fun" := by
  cases kind <;> simp [word]

namespace Value

/-- The word that tells the form of the value. -/
def keyword : Value → String
  | .operation computed => computed.keyword
  | .call made => made.kind.word
  | .branch _ _ _ => "if"
  | .literal _ _ => "fun"

/-- The names in the heading of the value. -/
def names : Value → List Name
  | .operation computed => computed.names
  | .call made => made.callee :: made.arguments
  | .branch condition _ _ => [condition]
  | .literal parameters _ => parameters

/-- The value without the blocks in it, and with one value in place of all floats that are no
number. -/
def hollow : Value → Value
  | .operation computed => .operation computed.canonical
  | .call made => .call made
  | .branch condition _ _ => .branch condition .done .done
  | .literal parameters _ => .literal parameters .done

theorem firstWord_heading (value : Value) : firstWord value.heading = value.keyword.toList := by
  cases value with
  | operation computed =>
      rw [heading, Operation.listing_eq]
      exact firstWord_phrase computed.spaceless_keyword _
  | call made => exact firstWord_phrase made.kind.spaceless_word _
  | branch condition onTrue onFalse => exact firstWord_phrase (by decide) _
  | literal parameters body => exact firstWord_phrase (by decide) _

theorem keyword_of_heading {first second : Value} (same : first.heading = second.heading) :
    first.keyword = second.keyword := by
  rw [← String.toList_inj, ← firstWord_heading, same, firstWord_heading]

theorem call_of_heading {first second : Call}
    (one : ∀ name ∈ first.callee :: first.arguments, IsPlain name)
    (two : ∀ name ∈ second.callee :: second.arguments, IsPlain name)
    (same : first.listing = second.listing) : first = second := by
  obtain ⟨kinds, rest⟩ := phrase_cons_inj first.kind.spaceless_word second.kind.spaceless_word same
  obtain ⟨callee, arguments, kind⟩ := first
  cases phrase_injective one two rest
  cases CallKind.word_injective kinds
  rfl

/-- Values with plain names and one heading differ in their blocks at most. -/
theorem hollow_of_heading {first second : Value} (one : ∀ name ∈ first.names, IsPlain name)
    (two : ∀ name ∈ second.names, IsPlain name) (same : first.heading = second.heading) :
    first.hollow = second.hollow := by
  have keywords := keyword_of_heading same
  cases first with
  | operation computed =>
      cases second with
      | operation other => exact congrArg operation (Operation.canonical_of_listing one two same)
      | call made => exact absurd keywords (computed.keyword_ne_word made.kind)
      | branch => exact absurd keywords computed.keyword_ne_if
      | literal => exact absurd keywords computed.keyword_ne_fun
  | call made =>
      cases second with
      | operation computed => exact absurd keywords.symm (computed.keyword_ne_word made.kind)
      | call other => exact congrArg call (call_of_heading one two same)
      | branch => exact absurd keywords made.kind.word_ne_if
      | literal => exact absurd keywords made.kind.word_ne_fun
  | branch condition onTrue onFalse =>
      cases second with
      | operation computed => exact absurd keywords.symm computed.keyword_ne_if
      | call made => exact absurd keywords.symm made.kind.word_ne_if
      | branch condition' onTrue' onFalse' =>
          have conditions := phrase_tail_inj same
          rw [phrase_singleton, phrase_singleton] at conditions
          rw [hollow, conditions, hollow]
      | literal => exact absurd keywords (by simp [keyword])
  | literal parameters body =>
      cases second with
      | operation computed => exact absurd keywords.symm computed.keyword_ne_fun
      | call made => exact absurd keywords.symm made.kind.word_ne_fun
      | branch => exact absurd keywords (by simp [keyword])
      | literal parameters' body' =>
          have texts := congrArg String.toList (phrase_tail_inj same)
          rw [phrase_singleton, phrase_singleton, String.toList_append, String.toList_append]
            at texts
          have lists := String.toList_inj.mp (List.append_cancel_right texts)
          rw [hollow, show parameters = parameters' from nameList_injective one two lists, hollow]

theorem lineFeed_not_mem_heading {value : Value}
    (unbroken : ∀ name ∈ value.names, '\n' ∉ name.toList) : '\n' ∉ value.heading.toList := by
  cases value with
  | operation computed => exact Operation.lineFeed_not_mem_listing unbroken
  | call made =>
      apply not_mem_phrase (by decide)
      rw [List.forall_mem_cons]
      exact ⟨by cases made.kind <;> decide, unbroken⟩
  | branch condition onTrue onFalse =>
      apply not_mem_phrase (by decide)
      rw [List.forall_mem_cons]
      exact ⟨by decide, unbroken⟩
  | literal parameters body =>
      apply not_mem_phrase (by decide)
      rw [List.forall_mem_cons, List.forall_mem_singleton]
      have free : '\n' ∉ (nameList parameters).toList := not_mem_nameList unbroken (by decide)
      exact ⟨by decide, by simpa using free⟩

end Value

namespace Instruction

/-- The names in the heading of the instruction. -/
def names (instruction : Instruction) : List Name :=
  instruction.ident :: instruction.value.names

/-- Instructions with plain names and one heading bind one name and differ in their blocks at
most. -/
theorem heading_inj {first second : Instruction} (one : ∀ name ∈ first.names, IsPlain name)
    (two : ∀ name ∈ second.names, IsPlain name) (same : first.heading = second.heading) :
    first.ident = second.ident ∧ first.value.hollow = second.value.hollow := by
  rw [names, List.forall_mem_cons] at one two
  obtain ⟨idents, rest⟩ := phrase_cons_inj one.1.spaceless two.1.spaceless same
  have headings := phrase_tail_inj rest
  rw [phrase_singleton, phrase_singleton] at headings
  exact ⟨idents, Value.hollow_of_heading one.2 two.2 headings⟩

/-- The heading of an instruction holds no line feed if its names hold none. -/
theorem lineFeed_not_mem_heading {instruction : Instruction}
    (unbroken : ∀ name ∈ instruction.names, '\n' ∉ name.toList) :
    '\n' ∉ instruction.heading.toList := by
  rw [names, List.forall_mem_cons] at unbroken
  apply not_mem_phrase (by decide)
  rw [List.forall_mem_cons, List.forall_mem_cons, List.forall_mem_singleton]
  exact ⟨unbroken.1, by decide, Value.lineFeed_not_mem_heading unbroken.2⟩

/-- The heading of an instruction with plain names is a line of its own. -/
theorem clear_heading {instruction : Instruction} (plain : ∀ name ∈ instruction.names, IsPlain name)
    (depth : Nat) : Line.Clear ⟨depth, instruction.heading⟩ := by
  have whole := lineFeed_not_mem_heading (not_mem_of_plain plain (by decide))
  rw [names, List.forall_mem_cons] at plain
  exact Line.clear_phrase depth plain.1.toList_ne_nil plain.1.spaceless whole

end Instruction

end SmallMl
