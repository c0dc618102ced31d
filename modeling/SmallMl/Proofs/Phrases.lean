import SmallMl.Code.Listing
import SmallMl.Token.Word

/-!
# Phrases can be taken apart

Words that hold no separator are found again between the separators of a phrase or of a list of
names, one after the other, and lines that hold no line feed in a text of such lines.
-/

namespace SmallMl

/-- A character that neither of two texts holds ends both at the same place. -/
theorem append_cons_inj {c : Char} {first second rest other : List Char} (one : c ∉ first)
    (two : c ∉ second) (same : first ++ c :: rest = second ++ c :: other) :
    first = second ∧ rest = other := by
  induction first generalizing second with
  | nil =>
      cases second with
      | nil => exact ⟨rfl, List.tail_eq_of_cons_eq same⟩
      | cons d second =>
          exact absurd (List.head_eq_of_cons_eq same ▸ List.mem_cons_self ..) two
  | cons d first ih =>
      cases second with
      | nil => exact absurd (List.head_eq_of_cons_eq same ▸ List.mem_cons_self ..) one
      | cons e second =>
          obtain ⟨rfl, tails⟩ := List.cons.inj same
          obtain ⟨rfl, rests⟩ := ih (fun inside => one (List.mem_cons_of_mem _ inside))
            (fun inside => two (List.mem_cons_of_mem _ inside)) tails
          exact ⟨rfl, rests⟩

/-- A text without the character is not one that goes on with it. -/
theorem ne_append_cons {c : Char} {text : List Char} (free : c ∉ text) (first rest : List Char) :
    text ≠ first ++ c :: rest := by
  rintro rfl
  exact free (List.mem_append_right first (List.mem_cons_self ..))

/-- A list of texts, none of them empty and none with the first character of the separator, is found
again between the separators. -/
theorem intercalate_injective {c : Char} {more : List Char} {first second : List (List Char)}
    (one : ∀ word ∈ first, word ≠ [] ∧ c ∉ word) (two : ∀ word ∈ second, word ≠ [] ∧ c ∉ word)
    (same : (c :: more).intercalate first = (c :: more).intercalate second) : first = second := by
  induction first generalizing second with
  | nil =>
      match second with
      | [] => rfl
      | [word] =>
          rw [List.intercalate_nil, List.intercalate_singleton] at same
          exact absurd same.symm (two word (List.mem_cons_self ..)).1
      | word :: next :: rest =>
          rw [List.intercalate_nil, List.intercalate_cons_cons] at same
          simp at same
  | cons word first ih =>
      obtain ⟨nonempty, free⟩ := one word (List.mem_cons_self ..)
      match first, second with
      | [], [] =>
          rw [List.intercalate_nil, List.intercalate_singleton] at same
          exact absurd same nonempty
      | _ :: _, [] =>
          rw [List.intercalate_nil, List.intercalate_cons_cons] at same
          simp at same
      | [], [other] =>
          rw [List.intercalate_singleton, List.intercalate_singleton] at same
          rw [same]
      | [], other :: next :: rest =>
          rw [List.intercalate_singleton, List.intercalate_cons_cons, List.append_assoc] at same
          exact absurd same (ne_append_cons free _ _)
      | next :: rest, [other] =>
          rw [List.intercalate_singleton, List.intercalate_cons_cons, List.append_assoc] at same
          exact absurd same.symm (ne_append_cons (two other (List.mem_cons_self ..)).2 _ _)
      | next :: rest, other :: after :: others =>
          rw [List.intercalate_cons_cons, List.intercalate_cons_cons, List.append_assoc,
            List.append_assoc, List.cons_append, List.cons_append] at same
          obtain ⟨rfl, behind⟩ :=
            append_cons_inj free (two other (List.mem_cons_self ..)).2 same
          rw [ih (fun word inside => one word (List.mem_cons_of_mem _ inside))
            (fun word inside => two word (List.mem_cons_of_mem _ inside))
            (List.append_cancel_left behind)]

/-- Whether a plain name may hold the character. -/
def isNameChar (c : Char) : Bool :=
  isWordChar c || c == '$'

/-- A name is plain when it is a word, which a dollar sign may be part of. -/
structure IsPlain (name : Name) : Prop where
  nonempty : name ≠ ""
  all : name.toList.all isNameChar = true

instance (name : Name) : Decidable (IsPlain name) :=
  decidable_of_iff (name ≠ "" ∧ name.toList.all isNameChar = true)
    ⟨fun plain => ⟨plain.1, plain.2⟩, fun plain => ⟨plain.nonempty, plain.all⟩⟩

/-- A plain name holds no character of another kind. -/
theorem IsPlain.not_mem {name : Name} (plain : IsPlain name) {c : Char}
    (other : isNameChar c = false) : c ∉ name.toList := by
  intro inside
  rw [List.all_eq_true.mp plain.all c inside] at other
  exact absurd other (by decide)

theorem not_mem_of_plain {names : List Name} (plain : ∀ name ∈ names, IsPlain name) {c : Char}
    (other : isNameChar c = false) : ∀ name ∈ names, c ∉ name.toList :=
  fun name member => (plain name member).not_mem other

theorem IsPlain.toList_ne_nil {name : Name} (plain : IsPlain name) : name.toList ≠ [] :=
  fun empty => plain.nonempty (String.toList_eq_nil_iff.mp empty)

/-- The text holds no space. -/
def Spaceless (text : String) : Prop :=
  ' ' ∉ text.toList

instance (text : String) : Decidable (Spaceless text) :=
  inferInstanceAs (Decidable (' ' ∉ text.toList))

theorem IsPlain.spaceless {name : Name} (plain : IsPlain name) : Spaceless name :=
  plain.not_mem (by decide)

theorem map_toList_injective {first second : List String}
    (same : first.map String.toList = second.map String.toList) : first = second :=
  List.map_inj_right (fun _ _ => String.toList_inj.mp) |>.mp same

/-- Plain names are found again between the commas. -/
theorem nameList_injective {first second : List Name} (one : ∀ name ∈ first, IsPlain name)
    (two : ∀ name ∈ second, IsPlain name) (same : nameList first = nameList second) :
    first = second := by
  have words : ∀ names : List Name, (∀ name ∈ names, IsPlain name) →
      ∀ word ∈ names.map String.toList, word ≠ [] ∧ ',' ∉ word := by
    intro names plain word member
    obtain ⟨name, inside, rfl⟩ := List.mem_map.mp member
    exact ⟨(plain name inside).toList_ne_nil, (plain name inside).not_mem (by decide)⟩
  have texts := congrArg String.toList same
  rw [nameList, nameList, String.toList_intercalate, String.toList_intercalate] at texts
  exact map_toList_injective (intercalate_injective (words first one) (words second two) texts)

/-- Plain names are found again between the spaces. -/
theorem phrase_injective {first second : List Name} (one : ∀ name ∈ first, IsPlain name)
    (two : ∀ name ∈ second, IsPlain name) (same : phrase first = phrase second) :
    first = second := by
  have words : ∀ names : List Name, (∀ name ∈ names, IsPlain name) →
      ∀ word ∈ names.map String.toList, word ≠ [] ∧ ' ' ∉ word := by
    intro names plain word member
    obtain ⟨name, inside, rfl⟩ := List.mem_map.mp member
    exact ⟨(plain name inside).toList_ne_nil, (plain name inside).spaceless⟩
  have texts := congrArg String.toList same
  rw [phrase, phrase, String.toList_intercalate, String.toList_intercalate] at texts
  exact map_toList_injective (intercalate_injective (words first one) (words second two) texts)

theorem toList_phrase_cons_cons (word next : String) (rest : List String) :
    (phrase (word :: next :: rest)).toList =
      word.toList ++ ' ' :: (phrase (next :: rest)).toList := by
  rw [phrase, phrase, String.toList_intercalate, String.toList_intercalate, List.map_cons,
    List.map_cons, List.intercalate_cons_cons]
  simp

@[simp]
theorem phrase_singleton (word : String) : phrase [word] = word := by
  apply String.toList_inj.mp
  simp [phrase]

/-- The first of several words is found again, and so is what follows it. -/
theorem phrase_cons_inj {word next other after : String} {rest others : List String}
    (one : Spaceless word) (two : Spaceless other)
    (same : phrase (word :: next :: rest) = phrase (other :: after :: others)) :
    word = other ∧ phrase (next :: rest) = phrase (after :: others) := by
  have texts := congrArg String.toList same
  rw [toList_phrase_cons_cons, toList_phrase_cons_cons] at texts
  obtain ⟨words, behind⟩ := append_cons_inj one two texts
  exact ⟨String.toList_inj.mp words, String.toList_inj.mp behind⟩

/-- The first word of a text. -/
def firstWord (text : String) : List Char :=
  text.toList.takeWhile (· ≠ ' ')

/-- A phrase starts with its first word. -/
theorem firstWord_phrase {word : String} (spaceless : Spaceless word) (rest : List String) :
    firstWord (phrase (word :: rest)) = word.toList := by
  have all : ∀ c ∈ word.toList, decide (c ≠ ' ') = true := by
    intro c inside
    apply decide_eq_true
    rintro rfl
    exact spaceless inside
  cases rest with
  | nil =>
      rw [firstWord, phrase_singleton]
      have run := @List.takeWhile_append_of_pos _ _ word.toList [] all
      simpa using run
  | cons next rest =>
      rw [firstWord, toList_phrase_cons_cons, List.takeWhile_append_of_pos all,
        List.takeWhile_cons_of_neg (by simp), List.append_nil]

/-- A phrase holds the characters of its words, and spaces. -/
theorem not_mem_phrase {words : List String} {c : Char} (visible : c ≠ ' ')
    (absent : ∀ word ∈ words, c ∉ word.toList) : c ∉ (phrase words).toList := by
  induction words with
  | nil => simp [phrase]
  | cons word rest ih =>
      rw [List.forall_mem_cons] at absent
      cases rest with
      | nil =>
          rw [phrase_singleton]
          exact absent.1
      | cons next rest =>
          rw [toList_phrase_cons_cons, List.mem_append, List.mem_cons]
          rintro (here | space | behind)
          · exact absent.1 here
          · exact visible space
          · exact ih absent.2 behind

/-- A list of names holds the characters of the names, commas and spaces. -/
theorem not_mem_nameList {names : List Name} {c : Char}
    (absent : ∀ name ∈ names, c ∉ name.toList) (separate : c ∉ [',', ' ']) :
    c ∉ (nameList names).toList := by
  rw [nameList, String.toList_intercalate]
  induction names with
  | nil => simp
  | cons name rest ih =>
      rw [List.forall_mem_cons] at absent
      cases rest with
      | nil =>
          rw [List.map_cons, List.map_nil, List.intercalate_singleton]
          exact absent.1
      | cons next rest =>
          rw [List.map_cons, List.map_cons, List.intercalate_cons_cons, List.mem_append,
            List.mem_append]
          rintro ((here | separator) | behind)
          · exact absent.1 here
          · exact separate separator
          · exact ih absent.2 behind

/-! ## Lines -/

/-- The lines of a text in which every line ends in a line feed. -/
def textLines (text : String) : List String :=
  (text.toList.splitOn '\n').dropLast.map String.ofList

theorem textLines_cons {line : String} (single : '\n' ∉ line.toList) (rest : String) :
    textLines (line ++ "\n" ++ rest) = line :: textLines rest := by
  have characters : (line ++ "\n" ++ rest).toList = line.toList ++ '\n' :: rest.toList := by simp
  rw [textLines, characters, List.splitOn_append_cons_self_of_not_mem single,
    List.dropLast_cons_of_ne_nil (List.splitOn_ne_nil _ _), List.map_cons, String.ofList_toList,
    textLines]

/-- Texts of one line each are found again when each of them is ended by a line feed. -/
theorem textLines_join {lines : List String} (single : ∀ line ∈ lines, '\n' ∉ line.toList) :
    textLines (String.join (lines.map (· ++ "\n"))) = lines := by
  induction lines with
  | nil => rfl
  | cons line lines ih =>
      rw [List.forall_mem_cons] at single
      rw [List.map_cons, String.join_cons, textLines_cons single.1, ih single.2]

end SmallMl
