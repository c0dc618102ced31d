import SmallMl.Proofs.Exhaustion
import SmallMl.Proofs.Refusals
import SmallMl.Proofs.StringSpellings

/-!
# Literals closed on their line

A quote closes a literal unless it is the second character of a backslash pair. An unterminated
string is reported where no quote on the line closes the literal behind escapes and plain characters
only. Main statement: exactly then. A literal with a pair that is no escape is therefore reported as
unterminated even where a quote on its line closes it.
-/

namespace SmallMl

namespace StringLiteral

/-- A quote behind the text closes the literal that a quote before it opens: in the text itself, a
quote stands only as the second character of a backslash pair. All second characters of its pairs are
of the given kind. -/
inductive IsBody (second : Char → Prop) : List Char → Prop where
  | nothing : IsBody second []
  | plain {c : Char} {rest : List Char} (quote : c ≠ '"') (backslash : c ≠ '\\')
      (later : IsBody second rest) : IsBody second (c :: rest)
  | pair {c : Char} {rest : List Char} (kind : second c) (later : IsBody second rest) :
      IsBody second ('\\' :: c :: rest)

/-- The letter makes an escape with the backslash before it. -/
def IsEscape (letter : Char) : Prop :=
  ∃ c, (letter, c) ∈ escapes

/-- The text up to its first line feed. -/
def firstLine (text : List Char) : List Char :=
  text.takeWhile (· ≠ '\n')

/-- On the line on which the text starts, a quote closes the literal that is opened before it. -/
def ClosedOnLine (second : Char → Prop) (text : List Char) : Prop :=
  ∃ body rest, IsBody second body ∧ firstLine text = body ++ '"' :: rest

theorem IsBody.of_spells {value spelled : List Char} (spells : Spells value spelled) :
    IsBody IsEscape spelled ∧ '\n' ∉ spelled := by
  induction spells with
  | none => exact ⟨.nothing, List.not_mem_nil⟩
  | char way _ ih =>
      obtain ⟨body, single⟩ := ih
      rcases mem_spellings_iff.mp way with ⟨rfl, usual⟩ | ⟨letter, rfl, means⟩
      · simp only [List.mem_cons, List.not_mem_nil, or_false, not_or] at usual
        obtain ⟨quote, backslash, feed⟩ := usual
        exact ⟨.plain quote backslash body, by simp [Ne.symm feed, single]⟩
      · have feed : letter ≠ '\n' := by
          rintro rfl
          simp [escapes] at means
        exact ⟨.pair ⟨_, means⟩ body, by simp [Ne.symm feed, single]⟩

theorem IsBody.exists_spells {spelled : List Char} (body : IsBody IsEscape spelled)
    (single : '\n' ∉ spelled) : ∃ value, Spells value spelled := by
  induction body with
  | nothing => exact ⟨[], .none⟩
  | @plain c rest quote backslash _ ih =>
      obtain ⟨feed, single⟩ := List.ne_and_not_mem_of_not_mem_cons single
      obtain ⟨value, spells⟩ := ih single
      have way : [c] ∈ spellings c :=
        mem_spellings_iff.mpr (.inl ⟨rfl, by simp [quote, backslash, Ne.symm feed]⟩)
      exact ⟨c :: value, .char way spells⟩
  | @pair letter rest escape _ ih =>
      obtain ⟨c, means⟩ := escape
      obtain ⟨value, spells⟩ := ih (by simp_all)
      have way : ['\\', letter] ∈ spellings c := mem_spellings_iff.mpr (.inr ⟨letter, rfl, means⟩)
      exact ⟨c :: value, .char way spells⟩

/-- A text that closes a literal behind escapes only is a spelling with a quote behind it. -/
theorem closedOnLine_isEscape_iff {text : List Char} :
    ClosedOnLine IsEscape text ↔
      ∃ value spelled rest, Spells value spelled ∧ text = spelled ++ '"' :: rest := by
  constructor
  · rintro ⟨body, rest, isBody, line⟩
    have single : '\n' ∉ body := by
      intro member
      have inside : '\n' ∈ firstLine text := by simp [line, member]
      exact absurd (List.mem_takeWhile_imp inside) (by simp)
    obtain ⟨value, spells⟩ := isBody.exists_spells single
    refine ⟨value, body, rest ++ text.dropWhile (· ≠ '\n'), spells, ?_⟩
    rw [← List.cons_append, ← List.append_assoc, ← line]
    exact (List.takeWhile_append_dropWhile ..).symm
  · rintro ⟨value, spelled, rest, spells, rfl⟩
    obtain ⟨body, single⟩ := IsBody.of_spells spells
    refine ⟨spelled, firstLine rest, body, ?_⟩
    have plain : ∀ c ∈ spelled, decide (c ≠ '\n') = true := by
      intro c member
      exact decide_eq_true fun feed => single (feed ▸ member)
    rw [firstLine, List.takeWhile_append_of_pos plain, List.takeWhile_cons_of_pos (by decide),
      firstLine]

end StringLiteral

open StringLiteral (ClosedOnLine IsEscape)

theorem unclosedString_iff {behind : List Char} :
    UnclosedString ('"' :: behind) ↔ ¬ ClosedOnLine IsEscape behind := by
  rw [StringLiteral.closedOnLine_isEscape_iff]
  constructor
  · rintro ⟨-, noLiteral⟩ ⟨value, spelled, rest, spells, rfl⟩
    have writes := StringLiteral.writes_iff.mpr ⟨spelled, spells, rfl⟩
    exact noLiteral ('"' :: (spelled ++ ['"'])) ⟨rest, by simp⟩ ⟨value, _, rfl, writes⟩
  · intro notClosed
    refine ⟨⟨behind, rfl⟩, ?_⟩
    rintro front ⟨rest, whole⟩ ⟨value, written, rfl, writes⟩
    obtain ⟨spelled, spells, rfl⟩ := StringLiteral.writes_iff.mp writes
    exact notClosed ⟨value, spelled, rest, spells, by simpa using whole.symm⟩

namespace TokenStream

theorem refusal_eq_unterminatedString_iff {stream : TokenStream} {c : Char} {behind : List Char}
    {span : Span} :
    stream.refusal c behind = .unterminatedString span ↔ c = '"' ∧ stream.spanOf ['"'] = span := by
  unfold refusal
  split
  · next quote => simp [quote]
  · next other =>
      split
      · simp [other]
      · simp [other]

/-- A stream that has not failed reports an unterminated string exactly where a quote stands behind
the blanks and no quote on its line closes the literal behind escapes and plain characters only; the
report names the place of the opening quote. -/
theorem unterminatedString_iff {source : String} {stream : TokenStream}
    (reached : Reached source stream) (running : stream.failed = false) (span : Span) :
    stream.next.1 = some (.error (.unterminatedString span)) ↔
      ∃ passed behind, stream.rest.dropWhile isBlank = '"' :: behind ∧
        source.toList = passed ++ '"' :: behind ∧ span = .behind passed ['"'] ∧
        ¬ ClosedOnLine IsEscape behind := by
  constructor
  · intro reports
    have way := stream.answers_next
    obtain ⟨before, reads⟩ := reached.reads
    have here := reads.skipBlanks
    generalize stream.next = answer at way reports
    cases way with
    | failed => exact absurd reports (by simp)
    | ended => exact absurd reports (by simp)
    | token => exact absurd reports (by simp)
    | @error c behind _ front unread =>
        simp only [Option.some.injEq, Item.error.injEq, refusal_eq_unterminatedString_iff] at reports
        obtain ⟨rfl, rfl⟩ := reports
        have unclosed : UnclosedString ('"' :: behind) := by
          by_contra closed
          obtain ⟨token, lexeme, rest, read⟩ := Token.reads_quote_iff.mpr closed
          exact unread token lexeme rest read
        have whole := here.whole
        rw [front] at whole
        exact ⟨_, behind, front, whole, here.spanOf (front ▸ unclosed.1),
          unclosedString_iff.mp unclosed⟩
  · rintro ⟨passed, behind, text, whole, rfl, open_⟩
    have more : stream.rest.dropWhile isBlank ≠ [] := by
      rw [text]
      exact List.cons_ne_nil _ _
    obtain ⟨before, split, -, string, -⟩ := next_told_from_text reached running more
    rw [text] at split string
    rw [split] at whole
    rw [← List.append_cancel_right whole]
    exact string.mpr (unclosedString_iff.mpr open_)

/-- A name, and a literal that is closed on its line behind a backslash pair that is no escape. -/
def misreportedSource : String := "x \"\\q\""

theorem unterminatedString_in_misreportedSource :
    let stream := (ofSource misreportedSource).next.2
    (Reached misreportedSource stream ∧ stream.failed = false) ∧
      ∃ passed behind, misreportedSource.toList = passed ++ '"' :: behind ∧
        Span.mk ⟨1, 3⟩ ⟨1, 4⟩ = .behind passed ['"'] ∧ ¬ ClosedOnLine IsEscape behind := by
  intro stream
  have reached : Reached misreportedSource stream := .next .start
  have running : stream.failed = false := by decide +kernel
  have reports : stream.next.1 = some (.error (.unterminatedString ⟨⟨1, 3⟩, ⟨1, 4⟩⟩)) := by
    decide +kernel
  obtain ⟨passed, behind, -, whole, place, notClosed⟩ :=
    (unterminatedString_iff reached running _).mp reports
  exact ⟨⟨reached, running⟩, passed, behind, whole, place, notClosed⟩

/-- A literal may be reported as unterminated although a quote on its line closes it. -/
theorem unterminatedString_of_closed_literal :
    ¬ ∀ (source : String) (stream : TokenStream) (passed behind : List Char),
      Reached source stream → source.toList = passed ++ '"' :: behind →
        stream.next.1 = some (.error (.unterminatedString (.behind passed ['"']))) →
          ¬ ClosedOnLine (fun _ => True) behind := by
  intro truthful
  have reports : (ofSource "\"\\q\"").next.1 =
      some (.error (.unterminatedString (.behind [] ['"']))) := by decide +kernel
  have closed : ClosedOnLine (fun _ => True) ['\\', 'q', '"'] :=
    ⟨['\\', 'q'], [], .pair trivial .nothing, by decide⟩
  exact truthful "\"\\q\"" (ofSource "\"\\q\"") [] ['\\', 'q', '"'] .start (by decide) reports
    closed

end TokenStream

end SmallMl
