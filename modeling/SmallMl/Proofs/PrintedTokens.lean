import SmallMl.Command.Outcome
import SmallMl.Proofs.TokenText
import SmallMl.Stream.Tokens

/-!
# Printed tokens

On a device that works, the command prints the text of every token up to the first error, each with
a line feed behind it. Main statement: what is printed has one line for each of these tokens, and two
sources for which the same is printed have the same tokens in the same places.
-/

namespace SmallMl

/-- The tokens among some items, comments included, up to the first error. -/
def tokensBeforeError : List Item → List LocatedToken
  | .token located :: items => located :: tokensBeforeError items
  | _ => []

/-! ## The loop that prints -/

namespace Output

variable {out : Output}

theorem flush_of_nothing_kept (nothing : out.kept = "") : out.flush = some out :=
  if_pos nothing

theorem eq_of_working (working : out.device = .working) (nothing : out.kept = "") :
    out = { device := .working, taken := out.taken } := by
  obtain ⟨device, taken, kept⟩ := out
  cases working
  cases nothing
  rfl

theorem printLine_of_working (working : out.device = .working) (nothing : out.kept = "")
    (line : String) :
    out.printLine line = some { device := .working, taken := out.taken ++ (line ++ "\n") } := by
  have something : out.kept ++ line ++ "\n" ≠ "" := by simp
  rw [printLine, flush, if_neg something, nothing, String.empty_append]
  simp only [working]

theorem printLine_of_full (full : out.device = .full) (line : String) :
    out.printLine line = none := by
  have something : out.kept ++ line ++ "\n" ≠ "" := by simp
  rw [printLine, flush, if_neg something]
  simp only [full]

/-- On a device that works, a stream is printed up to its first error. -/
theorem printTokens_of_working (out : Output) (count : Nat) (stream : TokenStream)
    (working : out.device = .working) (nothing : out.kept = "") :
    out.printTokens count stream =
      ({ device := .working
         taken := out.taken ++
          String.join ((tokensBeforeError stream.items).map fun located => located.text ++ "\n") },
        match Item.tokens stream.items with
        | .ok _ => .ok (count + (tokensBeforeError stream.items).length)
        | .error error => .error (.lexical error)) := by
  fun_induction printTokens out count stream with
  | case1 out count stream after ends flushed flushes =>
      rw [flush_of_nothing_kept nothing] at flushes
      cases flushes
      rw [eq_of_working working nothing]
      simp [TokenStream.items_of_next_none ends, tokensBeforeError, Item.tokens]
  | case2 out count stream after ends flushes =>
      rw [flush_of_nothing_kept nothing] at flushes
      exact absurd flushes (by simp)
  | case3 out count stream error after yields =>
      rw [eq_of_working working nothing]
      simp [TokenStream.items_of_next_some yields, tokensBeforeError, Item.tokens]
  | case4 out count stream located after yields printed prints ih =>
      rw [printLine_of_working working nothing] at prints
      cases prints
      rw [ih rfl rfl, TokenStream.items_of_next_some yields, tokensBeforeError, List.map_cons,
        String.join_cons, String.append_assoc, Item.tokens]
      cases Item.tokens after.items with
      | ok others => simp only [List.length_cons, Nat.add_assoc, Nat.add_comm 1]
      | error error => rfl
  | case5 out count stream located after yields prints =>
      rw [printLine_of_working working nothing] at prints
      exact absurd prints (by simp)

/-- On a full device, nothing is printed, and the first token ends the printing. -/
theorem printTokens_of_full (out : Output) (count : Nat) (stream : TokenStream)
    (full : out.device = .full) (nothing : out.kept = "") :
    out.printTokens count stream =
      (out,
        match stream.next.1 with
        | none => .ok count
        | some (.error error) => .error (.lexical error)
        | some (.token _) => .error .output) := by
  fun_cases printTokens out count stream with
  | case1 after ends flushed flushes =>
      rw [flush_of_nothing_kept nothing] at flushes
      cases flushes
      rw [ends]
  | case2 after ends flushes =>
      rw [flush_of_nothing_kept nothing] at flushes
      exact absurd flushes (by simp)
  | case3 error after yields => rw [yields]
  | case4 located after yields printed prints =>
      rw [printLine_of_full full] at prints
      exact absurd prints (by simp)
  | case5 located after yields prints => rw [yields]

end Output

/-! ## What the command prints -/

theorem mem_items_of_mem_tokensBeforeError {items : List Item} {located : LocatedToken}
    (member : located ∈ tokensBeforeError items) : Item.token located ∈ items := by
  fun_induction tokensBeforeError items with
  | case1 first items ih =>
      rcases List.mem_cons.mp member with rfl | later
      · exact List.mem_cons_self ..
      · exact List.mem_cons_of_mem _ (ih later)
  | case2 items other => exact absurd member List.not_mem_nil

theorem readable_of_mem_tokensBeforeError {source : String} {located : LocatedToken}
    (member : located ∈ tokensBeforeError (TokenStream.ofSource source).items) :
    located.token.Readable :=
  Token.readable_of_mem_items (mem_items_of_mem_tokensBeforeError member)

/-- Tokens that may be read are told from their texts, one after the other. -/
theorem LocatedToken.map_text_injective {first second : List LocatedToken}
    (readable : ∀ located ∈ first, located.token.Readable)
    (alsoReadable : ∀ located ∈ second, located.token.Readable)
    (same : first.map text = second.map text) : first = second := by
  induction first generalizing second with
  | nil => exact (List.map_eq_nil_iff.mp same.symm).symm
  | cons located first ih =>
      obtain ⟨other, others, rfl, texts, rest⟩ := List.map_eq_cons_iff.mp same.symm
      rw [List.forall_mem_cons] at readable alsoReadable
      rw [text_injective readable.1 alsoReadable.1 texts.symm,
        ih readable.2 alsoReadable.2 rest.symm]

theorem Outcome.stdout_ofText (source : String) :
    (ofText .working source).stdout =
      String.join ((tokensBeforeError (TokenStream.ofSource source).items).map
        fun located => located.text ++ "\n") := by
  rw [ofText, Output.printTokens_of_working _ _ _ rfl rfl]
  exact String.empty_append

theorem textLines_stdout_ofText (source : String) :
    textLines (Outcome.ofText .working source).stdout =
      (tokensBeforeError (TokenStream.ofSource source).items).map LocatedToken.text := by
  have single : ∀ line ∈ (tokensBeforeError (TokenStream.ofSource source).items).map
      LocatedToken.text, '\n' ∉ line.toList := by
    intro line member
    obtain ⟨located, inside, rfl⟩ := List.mem_map.mp member
    exact LocatedToken.lineFeed_not_mem_text (readable_of_mem_tokensBeforeError inside)
  have lines := textLines_join single
  rw [List.map_map] at lines
  rw [Outcome.stdout_ofText]
  exact lines

/-- On a device that works, each token of a source up to the first error is printed on one line, its
text. Sources for which the same is printed have the same tokens in the same places. -/
theorem printed_lines_tell_tokens (source : String) :
    let items := (TokenStream.ofSource source).items
    let printed := (Outcome.ofText .working source).stdout
    printed = String.join ((tokensBeforeError items).map fun located => located.text ++ "\n") ∧
      (∀ located, Item.token located ∈ items → '\n' ∉ located.text.toList) ∧
      textLines printed = (tokensBeforeError items).map LocatedToken.text ∧
      ∀ other : String, printed = (Outcome.ofText .working other).stdout →
        tokensBeforeError items = tokensBeforeError (TokenStream.ofSource other).items := by
  intro items printed
  refine ⟨Outcome.stdout_ofText source, ?_, textLines_stdout_ofText source, ?_⟩
  · intro located yielded
    exact LocatedToken.lineFeed_not_mem_text (Token.readable_of_mem_items yielded)
  · intro other same
    have lines := congrArg textLines same
    rw [textLines_stdout_ofText, textLines_stdout_ofText] at lines
    exact LocatedToken.map_text_injective (fun _ => readable_of_mem_tokensBeforeError)
      (fun _ => readable_of_mem_tokensBeforeError) lines

/-- A string literal and a comment that look like the lines of other tokens, and a word before a
character that starts no token. -/
def disguisedSource (refused : Char) : String :=
  "\"\\nIN 1:1\" (*) 2:1 *) x " ++ String.singleton refused

theorem printed_lines_tell_tokens_of_disguisedSource :
    disguisedSource '#' ≠ disguisedSource '$' ∧
      (textLines (Outcome.ofText .working (disguisedSource '#')).stdout).length = 3 ∧
      tokensBeforeError (TokenStream.ofSource (disguisedSource '#')).items =
        tokensBeforeError (TokenStream.ofSource (disguisedSource '$')).items := by
  obtain ⟨printed, -, lines, tells⟩ := printed_lines_tell_tokens (disguisedSource '#')
  have same : (Outcome.ofText .working (disguisedSource '#')).stdout =
      (Outcome.ofText .working (disguisedSource '$')).stdout := by
    rw [printed, Outcome.stdout_ofText]
    decide +kernel
  refine ⟨by decide, ?_, tells _ same⟩
  rw [lines]
  decide +kernel

end SmallMl
