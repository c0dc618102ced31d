import SmallMl.Proofs.PrintedTokens

/-!
# Runs of the command

Which arguments name a source, and what a run prints and how it ends when they do. Main statement:
the command prints the tokens of the source up to the first error, and it succeeds where the source
has none and every token can be printed.
-/

namespace SmallMl

/-! ## Arguments -/

/-- The argument is neither empty nor an option. A hyphen with something behind it is an option. -/
structure IsPath (argument : String) : Prop where
  nonempty : argument ≠ ""
  noOption : ∀ c rest, argument.toList ≠ '-' :: c :: rest

/-- The arguments name a file, or standard input when there is none among them. Two hyphens end the
options, and behind them any argument is a path unless it is empty. -/
inductive NamesSource : List String → Option String → Prop where
  | standardInput : NamesSource [] none
  | onlyEnd : NamesSource ["--"] none
  | file {path : String} (isPath : IsPath path) : NamesSource [path] (some path)
  | fileBeforeEnd {path : String} (isPath : IsPath path) : NamesSource [path, "--"] (some path)
  | fileBehindEnd {path : String} (nonempty : path ≠ "") : NamesSource ["--", path] (some path)

namespace Invocation

theorem ofPaths_some_iff {path : String} {arguments : List String} {found : Option String} :
    ofPaths (some path) arguments = .printTokens found ↔ arguments = [] ∧ found = some path := by
  cases arguments with
  | nil => simp [ofPaths, eq_comm]
  | cons argument rest => simp [ofPaths]

theorem ofPaths_none_iff {arguments : List String} {found : Option String} :
    ofPaths none arguments = .printTokens found ↔
      (arguments = [] ∧ found = none) ∨
        ∃ path, path ≠ "" ∧ arguments = [path] ∧ found = some path := by
  cases arguments with
  | nil => simp [ofPaths, eq_comm]
  | cons argument rest =>
      by_cases empty : argument = ""
      · simp [ofPaths, empty]
      · simp [ofPaths, empty, ofPaths_some_iff]

theorem ofOptions_end (path : Option String) (rest : List String) :
    ofOptions path ("--" :: rest) = ofPaths path rest := by
  simp [ofOptions]

theorem ofOptions_path {argument : String} (isPath : IsPath argument) (path : Option String)
    (rest : List String) :
    ofOptions path (argument :: rest) =
      if path.isSome then refuse argument else ofOptions (some argument) rest := by
  have noEnd : argument ≠ "--" := fun same => isPath.noOption '-' [] (by rw [same]; rfl)
  have noHelp : argument ≠ "--help" :=
    fun same => isPath.noOption '-' "help".toList (by rw [same]; decide)
  simp only [ofOptions, if_neg noEnd, if_neg noHelp]
  split
  · next front => exact absurd front (isPath.noOption _ _)
  · next front => exact absurd front (isPath.noOption _ _)
  · simp [isPath.nonempty]

/-- An option that does not end them names no source, and neither does an empty argument. -/
theorem ofOptions_ne_of_not_isPath {argument : String} (noEnd : argument ≠ "--")
    (noPath : ¬ IsPath argument) (path found : Option String) (rest : List String) :
    ofOptions path (argument :: rest) ≠ .printTokens found := by
  simp only [ofOptions, if_neg noEnd]
  split
  · simp
  · split
    · simp
    · simp
    · next noHelp noOption =>
        have empty : argument = "" := by
          by_contra nonempty
          refine noPath ⟨nonempty, ?_⟩
          intro c rest front
          by_cases letter : c = 'h'
          · exact noHelp rest (by rw [front, letter])
          · exact noOption c rest front
        simp [empty]

theorem ofOptions_some_iff {path : String} {arguments : List String} {found : Option String} :
    ofOptions (some path) arguments = .printTokens found ↔
      (arguments = [] ∨ arguments = ["--"]) ∧ found = some path := by
  cases arguments with
  | nil => simp [ofOptions, eq_comm]
  | cons argument rest =>
      by_cases ends : argument = "--"
      · subst ends
        rw [ofOptions_end, ofPaths_some_iff]
        simp
      · have names : ofOptions (some path) (argument :: rest) ≠ .printTokens found := by
          by_cases isPath : IsPath argument
          · simp [ofOptions_path isPath]
          · exact ofOptions_ne_of_not_isPath ends isPath _ _ _
        simp [names, ends]

/-- The arguments ask for the tokens of a source exactly if they name one. -/
theorem ofArguments_eq_printTokens_iff {arguments : List String} {found : Option String} :
    ofArguments arguments = .printTokens found ↔ NamesSource arguments found := by
  rw [ofArguments]
  constructor
  · intro asks
    cases arguments with
    | nil =>
        cases asks
        exact .standardInput
    | cons argument rest =>
        by_cases ends : argument = "--"
        · rw [ends, ofOptions_end, ofPaths_none_iff] at asks
          rw [ends]
          rcases asks with ⟨rfl, rfl⟩ | ⟨path, nonempty, rfl, rfl⟩
          · exact .onlyEnd
          · exact .fileBehindEnd nonempty
        · by_cases isPath : IsPath argument
          · rw [ofOptions_path isPath] at asks
            obtain ⟨rfl | rfl, rfl⟩ := ofOptions_some_iff.mp asks
            · exact .file isPath
            · exact .fileBeforeEnd isPath
          · exact absurd asks (ofOptions_ne_of_not_isPath ends isPath _ _ _)
  · intro names
    cases names with
    | standardInput => rfl
    | onlyEnd => rw [ofOptions_end, ofPaths_none_iff]; exact Or.inl ⟨rfl, rfl⟩
    | file isPath =>
        rw [ofOptions_path isPath]
        exact ofOptions_some_iff.mpr ⟨Or.inl rfl, rfl⟩
    | fileBeforeEnd isPath =>
        rw [ofOptions_path isPath]
        exact ofOptions_some_iff.mpr ⟨Or.inr rfl, rfl⟩
    | fileBehindEnd nonempty =>
        rw [ofOptions_end, ofPaths_none_iff]
        exact Or.inr ⟨_, nonempty, rfl, rfl⟩

end Invocation

/-! ## Sources -/

theorem decodedSource_eq_ok_iff {bytes : ByteArray} {text : String} :
    decodedSource bytes = .ok text ↔ bytes = text.toUTF8 := by
  unfold decodedSource String.fromUTF8?
  constructor
  · intro decoded
    by_cases valid : bytes.IsValidUTF8
    · rw [dif_pos valid] at decoded
      cases decoded
      rfl
    · rw [dif_neg valid] at decoded
      exact absurd decoded (by simp)
  · rintro rfl
    have valid : text.toUTF8.IsValidUTF8 := text.isValidUTF8
    rw [dif_pos valid]
    rfl

/-- A source has a text exactly if its bytes can be read and are those of the text. -/
theorem source_eq_ok_iff {bytes : Except SourceError ByteArray} {text : String} :
    (bytes >>= decodedSource) = .ok text ↔ bytes = .ok text.toUTF8 := by
  cases bytes with
  | error error => exact iff_of_false (by simp [bind, Except.bind]) (by simp)
  | ok bytes =>
      have decoded : (Except.ok bytes >>= decodedSource) = decodedSource bytes := rfl
      rw [decoded, decodedSource_eq_ok_iff, Except.ok.injEq]

/-! ## Lines of comments -/

/-- Whether a line starts as those of comments do. -/
def isCommentLine (line : String) : Bool :=
  Token.commentMark.toList.isPrefixOf line.toList

theorem isCommentLine_text (located : LocatedToken) :
    isCommentLine located.text = located.token.isComment := by
  rw [Bool.eq_iff_iff, isCommentLine, List.isPrefixOf_iff_prefix, LocatedToken.toList_text]
  exact Token.commentMark_prefix_iff located.token _

/-- Where there is no error, the tokens without comments are those of `tokenize`. -/
theorem tokens_eq_ok {items : List Item} {tokens : List LocatedToken}
    (whole : Item.tokens items = .ok tokens) :
    tokens = (tokensBeforeError items).filter fun located => !located.token.isComment := by
  induction items generalizing tokens with
  | nil =>
      cases whole
      rfl
  | cons item items ih =>
      cases item with
      | error error => exact absurd whole (by simp [Item.tokens])
      | token located =>
          rw [Item.tokens] at whole
          cases later : Item.tokens items with
          | error error =>
              rw [later] at whole
              exact absurd whole (by simp)
          | ok others =>
              rw [later] at whole
              cases whole
              rw [tokensBeforeError, List.filter_cons, ← ih later]
              cases located.token.isComment <;> rfl

/-- The lines of a source without an error that are not those of comments. -/
theorem filter_textLines_stdout {source : String} {tokens : List LocatedToken}
    (whole : tokenize source = .ok tokens) :
    ((textLines (Outcome.ofText .working source).stdout).filter fun line => !isCommentLine line) =
      tokens.map LocatedToken.text := by
  have comments : (fun line => !isCommentLine line) ∘ LocatedToken.text =
      fun located => !located.token.isComment := by
    funext located
    rw [Function.comp_apply, isCommentLine_text]
  rw [textLines_stdout_ofText, List.filter_map, comments, ← tokens_eq_ok whole]

/-! ## Outcomes -/

namespace Outcome

theorem ofText_working (source : String) :
    (ofText .working source).stderr = "" ∧
      (ofText .working source).status =
        match tokenize source with
        | .ok _ => .success
        | .error _ => .lexicalError := by
  refine ⟨rfl, ?_⟩
  rw [ofText, Output.printTokens_of_working _ _ _ rfl rfl, tokenize]
  cases Item.tokens (TokenStream.ofSource source).items <;> rfl

theorem status_ofText_full (source : String) :
    (ofText .full source).status =
      match (TokenStream.ofSource source).next.1 with
      | none => .success
      | some (.error _) => .lexicalError
      | some (.token _) => .outputFailed := by
  rw [ofText, Output.printTokens_of_full _ _ _ rfl rfl]
  cases (TokenStream.ofSource source).next.1 with
  | none => rfl
  | some item => cases item <;> rfl

theorem ofReading_of_namesSource {arguments : List String} {path : Option String}
    (names : NamesSource arguments path) (device : OutputDevice)
    (bytes : Option String → Except SourceError ByteArray) :
    ofReading device arguments bytes = ofSource device (bytes path >>= decodedSource) := by
  rw [ofReading, Invocation.ofArguments_eq_printTokens_iff.mpr names]

/-- A source without a text is not printed, whatever the device. -/
theorem ofSource_of_no_text {source : Except SourceError String}
    (none : ∀ text, source ≠ .ok text) (device : OutputDevice) :
    (ofSource device source).stdout = "" ∧ (ofSource device source).status.code = 4 := by
  cases source with
  | ok text => exact absurd rfl (none text)
  | error error => exact ⟨rfl, rfl⟩

end Outcome

/-- A run whose arguments name a source prints nothing and ends with code 4 unless the bytes of the
source can be read and are those of a text. If they are, and the device works, the run prints every
token up to the first error, and nothing else; it ends with code 0 where `tokenize` finds tokens,
which are those on the lines that are no comments, and with code 5 where it finds an error. On a full
device the first item decides. -/
theorem run_agrees_with_tokens {arguments : List String} {path : Option String}
    (names : NamesSource arguments path) (bytes : Option String → Except SourceError ByteArray) :
    let run := fun device => Outcome.ofReading device arguments bytes
    ((∀ text : String, bytes path ≠ .ok text.toUTF8) →
        ∀ device, (run device).stdout = "" ∧ (run device).status.code = 4) ∧
      ∀ text : String, bytes path = .ok text.toUTF8 →
        let stream := TokenStream.ofSource text
        let printed := (run .working).stdout
        (printed = String.join
            ((tokensBeforeError stream.items).map fun located => located.text ++ "\n") ∧
          (run .working).stderr = "" ∧
          (∀ tokens, tokenize text = .ok tokens → (run .working).status.code = 0 ∧
            ((textLines printed).filter fun line => !isCommentLine line) =
              tokens.map LocatedToken.text) ∧
          ∀ error, tokenize text = .error error → (run .working).status.code = 5) ∧
        (∀ located, stream.next.1 = some (.token located) → (run .full).status.code = 1) ∧
        (∀ error, stream.next.1 = some (.error error) → (run .full).status.code = 5) ∧
        (stream.next.1 = none → (run .full).status.code = 0) := by
  intro run
  have runs : ∀ device, run device = Outcome.ofSource device (bytes path >>= decodedSource) :=
    fun device => Outcome.ofReading_of_namesSource names device bytes
  constructor
  · intro unreadable device
    rw [runs device]
    exact Outcome.ofSource_of_no_text (fun text => mt source_eq_ok_iff.mp (unreadable text)) device
  · intro text readable stream printed
    have prints : ∀ device, run device = Outcome.ofText device text := by
      intro device
      rw [runs device, source_eq_ok_iff.mpr readable]
      rfl
    have onLines : printed = (Outcome.ofText .working text).stdout := by rw [← prints]
    obtain ⟨silent, status⟩ := Outcome.ofText_working text
    have full := Outcome.status_ofText_full text
    rw [← prints] at silent status full
    refine ⟨⟨onLines.trans (Outcome.stdout_ofText text), silent, ?_, ?_⟩, ?_, ?_, ?_⟩
    · intro tokens whole
      rw [whole] at status
      rw [status, onLines]
      exact ⟨rfl, filter_textLines_stdout whole⟩
    · intro error found
      rw [status, found]
      rfl
    · intro located first
      rw [full, first]
      rfl
    · intro error first
      rw [full, first]
      rfl
    · intro ends
      rw [full, ends]
      rfl

/-- Standard input holds a comment and a word, and every file is a directory. -/
def commentedInput : Option String → Except SourceError ByteArray
  | none => .ok "(* c *) x".toUTF8
  | some _ => .error .isDirectory

theorem run_on_commentedInput_agrees :
    NamesSource ["src"] (some "src") ∧
      (Outcome.ofReading .working ["src"] commentedInput).status.code = 4 ∧
      (Outcome.ofReading .working [] commentedInput).stdout =
        "COMMENT(\"c\") 1:1-1:8\nIDENT(x) 1:9-1:10\n" ∧
      (Outcome.ofReading .working [] commentedInput).status.code = 0 ∧
      (Outcome.ofReading .full [] commentedInput).status.code = 1 := by
  have isPath : IsPath "src" := by
    refine ⟨by decide, ?_⟩
    intro c rest front
    have first : some 's' = some '-' := congrArg List.head? front
    exact absurd first (by decide)
  have unreadable := (run_agrees_with_tokens (.file isPath) commentedInput).1
  have readable := (run_agrees_with_tokens .standardInput commentedInput).2 "(* c *) x" rfl
  obtain ⟨⟨printed, -, whole, -⟩, token, -, -⟩ := readable
  have tokens : tokenize "(* c *) x" = .ok [⟨.ident "x", ⟨⟨1, 9⟩, ⟨1, 10⟩⟩⟩] := by decide +kernel
  have first : (TokenStream.ofSource "(* c *) x").next.1 =
      some (.token ⟨.comment "c", ⟨⟨1, 1⟩, ⟨1, 8⟩⟩⟩) := by
    decide +kernel
  refine ⟨.file isPath, (unreadable (by simp [commentedInput]) .working).2, ?_,
    (whole _ tokens).1, token _ first⟩
  rw [printed]
  decide +kernel

end SmallMl
