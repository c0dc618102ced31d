import SmallMl.Proofs.Offsets

/-!
# Items tile the source

The items of a source follow one another in it with nothing but blanks between them. They end where
the source ends, or at the first character that starts no token. Main statement: every byte of the
source up to there is a blank or belongs to exactly one token.
-/

namespace SmallMl

/-- The place of an item in the source. -/
def Item.span : Item → Span
  | token located => located.span
  | error e => e.span

/-- The span covers the bytes of the source from `first` up to `beyond`, of which there is at least
one. -/
structure Span.Covers (span : Span) (source : String) (first beyond : Nat) : Prop where
  start : span.start.offsetIn? source.toList = some first
  stop : span.stop.offsetIn? source.toList = some beyond
  nonempty : first < beyond

/-- All bytes of the source from `first` up to `beyond` are blanks. -/
def BlankBetween (source : String) (first beyond : Nat) : Prop :=
  first ≤ beyond ∧
    ∀ offset, first ≤ offset → offset < beyond →
      ∃ byte ∈ blankBytes, byteAt? source offset = some byte

/-- The items tile the source from the offset `edge` on. -/
inductive Tiles (source : String) : Nat → List Item → Prop where
  | ends {edge : Nat} (gap : BlankBetween source edge source.utf8ByteSize) : Tiles source edge []
  | token {edge first beyond : Nat} {located : LocatedToken} {items : List Item}
      (gap : BlankBetween source edge first) (covers : located.span.Covers source first beyond)
      (later : Tiles source beyond items) : Tiles source edge (.token located :: items)
  | error {edge first beyond : Nat} {e : LexicalError} {byte : UInt8}
      (gap : BlankBetween source edge first) (covers : e.span.Covers source first beyond)
      (here : byteAt? source first = some byte) (solid : byte ∉ blankBytes) :
      Tiles source edge [.error e]

/-- Whether the byte at an offset of the source belongs to the item, which it does to a token that
covers it. -/
def Item.owns (source : String) (offset : Nat) : Item → Bool
  | token located =>
      match located.span.start.offsetIn? source.toList,
        located.span.stop.offsetIn? source.toList with
      | some first, some beyond => decide (first ≤ offset ∧ offset < beyond)
      | _, _ => false
  | error _ => false

theorem Item.owns_token {source : String} {located : LocatedToken} {first beyond : Nat}
    (covers : located.span.Covers source first beyond) (offset : Nat) :
    Item.owns source offset (.token located) = decide (first ≤ offset ∧ offset < beyond) := by
  simp only [Item.owns, covers.start, covers.stop]

theorem BlankBetween.blank {source : String} {first beyond offset : Nat} {byte : UInt8}
    (gap : BlankBetween source first beyond) (found : byteAt? source offset = some byte)
    (low : first ≤ offset) (high : offset < beyond) : byte ∈ blankBytes := by
  obtain ⟨other, blank, here⟩ := gap.2 offset low high
  rw [here, Option.some.injEq] at found
  rw [← found]
  exact blank

theorem lt_of_byteAt? {source : String} {offset : Nat} {byte : UInt8}
    (found : byteAt? source offset = some byte) : offset < source.utf8ByteSize := by
  rw [byteAt?_eq] at found
  obtain ⟨inside, -⟩ := List.getElem?_eq_some_iff.mp found
  rw [utf8ByteSize_eq, ← length_bytes]
  exact inside

theorem blankBetween_of_gap {source : String} {passed gap rest : List Char}
    (whole : source.toList = passed ++ (gap ++ rest)) (blank : ∀ c ∈ gap, isBlank c = true) :
    BlankBetween source (byteLength passed) (byteLength passed + byteLength gap) := by
  refine ⟨Nat.le_add_right _ _, ?_⟩
  intro offset low high
  have inside : offset - (bytes passed).length < (bytes gap).length := by
    rw [length_bytes, length_bytes]
    omega
  have found : byteAt? source offset = some (bytes gap)[offset - (bytes passed).length] := by
    rw [byteAt?_eq, whole, bytes_append, bytes_append,
      List.getElem?_append_right (by rw [length_bytes]; exact low),
      List.getElem?_append_left inside, List.getElem?_eq_getElem inside]
  exact ⟨_, mem_blankBytes_of_isBlank blank _ (List.getElem_mem inside), found⟩

theorem solid_of_character {source : String} {passed rest : List Char} {c : Char}
    (whole : source.toList = passed ++ c :: rest) (solid : isBlank c = false) :
    ∃ byte, byteAt? source (byteLength passed) = some byte ∧ byte ∉ blankBytes := by
  obtain ⟨byte, head, other⟩ := head_bytes_of_not_isBlank rest solid
  refine ⟨byte, ?_, other⟩
  rw [byteAt?_eq, whole, bytes_append, ← length_bytes,
    List.getElem?_append_right (Nat.le_refl _), Nat.sub_self, head]

theorem covers_span (source : String) {first beyond : Nat} (nonempty : first < beyond) :
    ((LineTable.ofText source.toList).span first beyond).Covers source first beyond :=
  ⟨LineTable.offsetIn?_position source.toList first,
    LineTable.offsetIn?_position source.toList beyond, nonempty⟩

theorem byteLength_pos {text : List Char} (nonempty : text ≠ []) : 0 < byteLength text := by
  cases text with
  | nil => exact absurd rfl nonempty
  | cons c rest =>
      have size := Char.utf8Size_pos c
      rw [byteLength_cons]
      omega

namespace TokenStream

/-- The stream reads the source, and the characters in `passed` lie behind it. -/
structure Reads (stream : TokenStream) (source : String) (passed : List Char) : Prop where
  lines : stream.lines = LineTable.ofText source.toList
  whole : source.toList = passed ++ stream.rest
  offset : stream.offset = byteLength passed

theorem reads_ofSource (source : String) : (ofSource source).Reads source [] :=
  ⟨rfl, rfl, rfl⟩

theorem Reads.skipBlanks {stream : TokenStream} {source : String} {passed : List Char}
    (reads : stream.Reads source passed) :
    stream.skipBlanks.Reads source (passed ++ stream.rest.takeWhile isBlank) := by
  refine ⟨reads.lines, ?_, ?_⟩
  · rw [reads.whole, List.append_assoc, TokenStream.skipBlanks, List.takeWhile_append_dropWhile]
  · rw [byteLength_append, TokenStream.skipBlanks, reads.offset]

theorem Reads.advance {stream : TokenStream} {source : String} {passed lexeme rest : List Char}
    (reads : stream.Reads source passed) (splits : lexeme ++ rest = stream.rest) :
    (stream.advance lexeme rest).Reads source (passed ++ lexeme) := by
  refine ⟨reads.lines, ?_, ?_⟩
  · rw [reads.whole, List.append_assoc, TokenStream.advance, splits]
  · rw [byteLength_append, TokenStream.advance, reads.offset]

/-- The bytes between a stream and the next place without a blank. -/
theorem Reads.gap {stream : TokenStream} {source : String} {passed : List Char}
    (reads : stream.Reads source passed) :
    BlankBetween source stream.offset stream.skipBlanks.offset := by
  have whole := reads.whole
  rw [← @List.takeWhile_append_dropWhile _ isBlank stream.rest] at whole
  rw [TokenStream.skipBlanks, reads.offset]
  exact blankBetween_of_gap whole (List.all_eq_true.mp List.all_takeWhile)

theorem Reads.covers {stream : TokenStream} {source : String} {passed text : List Char}
    (reads : stream.Reads source passed) (nonempty : text ≠ []) :
    (stream.spanOf text).Covers source stream.offset (stream.offset + byteLength text) := by
  rw [spanOf, reads.lines]
  exact covers_span source (Nat.lt_add_of_pos_right (byteLength_pos nonempty))

theorem refusal_span (stream : TokenStream) (c : Char) (after : List Char) :
    ∃ text, text ≠ [] ∧ (stream.refusal c after).span = stream.spanOf text := by
  unfold refusal
  split
  · exact ⟨[c], List.cons_ne_nil _ _, rfl⟩
  · split
    · exact ⟨['(', '*'], List.cons_ne_nil _ _, rfl⟩
    · exact ⟨[c], List.cons_ne_nil _ _, rfl⟩

/-- What the next item of a running stream is: none where only blanks are left, the token behind the
blanks, or an error where something else than a token stands behind them. -/
theorem next_cases {stream : TokenStream} {source : String} {passed : List Char}
    (reads : stream.Reads source passed) (running : stream.failed = false) :
    (stream.next = (none, stream.skipBlanks) ∧
        BlankBetween source stream.offset source.utf8ByteSize) ∨
      (∃ located after further, stream.next = (some (.token located), after) ∧
        located.span.Covers source stream.skipBlanks.offset after.offset ∧
        after.Reads source further ∧ after.failed = false) ∨
      ∃ e beyond byte, stream.next = (some (.error e), stream.skipBlanks.fail) ∧
        e.span.Covers source stream.skipBlanks.offset beyond ∧
        byteAt? source stream.skipBlanks.offset = some byte ∧ byte ∉ blankBytes := by
  have here := reads.skipBlanks
  rw [next_of_running running, nextHere]
  split
  · next front =>
      left
      have whole := here.whole
      rw [front, List.append_nil] at whole
      have gap := reads.gap
      rw [here.offset, ← whole, ← utf8ByteSize_eq] at gap
      exact ⟨rfl, gap⟩
  · next c text front =>
      right
      have splits := Token.read_splits (c :: text)
      split
      · next token lexeme rest read =>
          left
          rw [read] at splits
          obtain ⟨nonempty, whole⟩ := splits
          rw [← front] at whole
          exact ⟨_, _, _, rfl, here.covers nonempty, here.advance whole, running⟩
      · right
        have solid : isBlank c = false := by
          have first := List.head?_dropWhile_not isBlank stream.rest
          have same : stream.rest.dropWhile isBlank = c :: text := front
          rw [same] at first
          exact first
        have whole := here.whole
        rw [front] at whole
        obtain ⟨byte, found, other⟩ := solid_of_character whole solid
        obtain ⟨mark, nonempty, place⟩ := refusal_span stream.skipBlanks c text
        have covers := here.covers nonempty
        rw [← place] at covers
        rw [← here.offset] at found
        exact ⟨_, _, byte, rfl, covers, found, other⟩

theorem items_of_failed {stream : TokenStream} (failed : stream.failed = true) :
    stream.items = [] :=
  items_of_next_none (next_of_failed failed)

/-- The items that are left tile the part of the source that is left. -/
theorem tiles_items {source : String} (bound : Nat) :
    ∀ (stream : TokenStream) (passed : List Char), stream.Reads source passed →
      stream.failed = false → stream.remaining ≤ bound →
      Tiles source stream.offset stream.items := by
  induction bound with
  | zero =>
      intro stream passed reads running short
      rw [remaining, running] at short
      exact absurd short (Nat.not_succ_le_zero _)
  | succ bound ih =>
      intro stream passed reads running short
      rcases next_cases reads running with ⟨yields, gap⟩ | token | error
      · rw [items_of_next_none yields]
        exact .ends gap
      · obtain ⟨located, after, further, yields, covers, later, goes⟩ := token
        have less := remaining_next yields
        rw [items_of_next_some yields]
        exact .token reads.gap covers (ih after further later goes (by omega))
      · obtain ⟨e, beyond, byte, yields, covers, here, solid⟩ := error
        rw [items_of_next_some yields, items_of_failed rfl]
        exact .error reads.gap covers here solid

end TokenStream

namespace Tiles

variable {source : String} {edge : Nat} {items : List Item}

/-- Every item covers a part of the source. -/
theorem covers (tiles : Tiles source edge items) :
    ∀ item ∈ items, ∃ first beyond, edge ≤ first ∧ item.span.Covers source first beyond := by
  induction tiles with
  | ends gap =>
      intro item member
      exact absurd member List.not_mem_nil
  | token gap covers later ih =>
      intro item member
      rcases List.mem_cons.mp member with rfl | member
      · exact ⟨_, _, gap.1, covers⟩
      · obtain ⟨first, beyond, behind, place⟩ := ih item member
        have nonempty := covers.nonempty
        have bounds := gap.1
        exact ⟨first, beyond, by omega, place⟩
  | error gap covers here solid =>
      intro item member
      rw [List.mem_singleton.mp member]
      exact ⟨_, _, gap.1, covers⟩

theorem counted (tiles : Tiles source edge items) :
    ∀ item ∈ items, item.span ≠ .generated ∧
      (1 ≤ item.span.start.line ∧ 1 ≤ item.span.start.column) ∧
      (1 ≤ item.span.stop.line ∧ 1 ≤ item.span.stop.column) := by
  intro item member
  obtain ⟨first, beyond, -, place⟩ := tiles.covers item member
  have start := Position.counted_of_offsetIn? place.start
  have stop := Position.counted_of_offsetIn? place.stop
  refine ⟨?_, start, stop⟩
  intro generated
  rw [generated] at start
  exact absurd start.1 (Nat.not_succ_le_zero 0)

theorem not_owned_before (tiles : Tiles source edge items) {offset : Nat} (before : offset < edge) :
    items.countP (Item.owns source offset) = 0 := by
  rw [List.countP_eq_zero]
  intro item member
  obtain ⟨first, beyond, behind, place⟩ := tiles.covers item member
  cases item with
  | token located =>
      have outside : ¬(first ≤ offset ∧ offset < beyond) := by omega
      rw [Item.owns_token place, decide_eq_true_eq]
      exact outside
  | error e => exact Bool.false_ne_true

/-- From the edge on, a byte belongs to exactly one token, or it belongs to none and is a blank or
stands at the error or behind it. -/
theorem owned_once (tiles : Tiles source edge items) {offset : Nat} {byte : UInt8}
    (found : byteAt? source offset = some byte) (behind : edge ≤ offset) :
    items.countP (Item.owns source offset) = 1 ∨
      (items.countP (Item.owns source offset) = 0 ∧
        (byte ∈ blankBytes ∨ ∃ e first, Item.error e ∈ items ∧
          e.span.start.offsetIn? source.toList = some first ∧ first ≤ offset)) := by
  induction tiles with
  | ends gap => exact Or.inr ⟨rfl, Or.inl (gap.blank found behind (lt_of_byteAt? found))⟩
  | @token edge first beyond located items gap covers later ih =>
      have owns := Item.owns_token covers offset
      by_cases early : offset < first
      · have outside : ¬(first ≤ offset ∧ offset < beyond) := by omega
        have none := later.not_owned_before (Nat.lt_trans early covers.nonempty)
        rw [decide_eq_false outside] at owns
        rw [List.countP_cons_of_neg (by rw [owns]; exact Bool.false_ne_true), none]
        exact Or.inr ⟨rfl, Or.inl (gap.blank found behind early)⟩
      · by_cases inside : offset < beyond
        · rw [decide_eq_true ⟨Nat.le_of_not_lt early, inside⟩] at owns
          rw [List.countP_cons_of_pos owns, later.not_owned_before inside]
          exact Or.inl rfl
        · have outside : ¬(first ≤ offset ∧ offset < beyond) := fun within => inside within.2
          rw [decide_eq_false outside] at owns
          rw [List.countP_cons_of_neg (by rw [owns]; exact Bool.false_ne_true)]
          rcases ih (Nat.le_of_not_lt inside) with
            once | ⟨none, blank | ⟨e, start, member, reached⟩⟩
          · exact Or.inl once
          · exact Or.inr ⟨none, Or.inl blank⟩
          · exact Or.inr ⟨none, Or.inr ⟨e, start, List.mem_cons_of_mem _ member, reached⟩⟩
  | @error edge first beyond e other gap covers here solid =>
      right
      refine ⟨rfl, ?_⟩
      by_cases early : offset < first
      · exact Or.inl (gap.blank found behind early)
      · exact Or.inr ⟨e, first, List.mem_singleton_self _, covers.start, Nat.le_of_not_lt early⟩

end Tiles

/-- The items of a source tile it. All their positions are counted from one, and each byte of the
source belongs to exactly one token unless it is a blank or the reading ended before it. -/
theorem items_tile_source (source : String) :
    let items := (TokenStream.ofSource source).items
    Tiles source 0 items ∧
      (∀ item ∈ items, item.span ≠ .generated ∧
        (1 ≤ item.span.start.line ∧ 1 ≤ item.span.start.column) ∧
        (1 ≤ item.span.stop.line ∧ 1 ≤ item.span.stop.column)) ∧
      ∀ offset byte, byteAt? source offset = some byte →
        items.countP (Item.owns source offset) = 1 ∨
          (items.countP (Item.owns source offset) = 0 ∧
            (byte ∈ blankBytes ∨ ∃ e first, Item.error e ∈ items ∧
              e.span.start.offsetIn? source.toList = some first ∧ first ≤ offset)) := by
  have tiles : Tiles source 0 (TokenStream.ofSource source).items :=
    TokenStream.tiles_items _ (TokenStream.ofSource source) []
      (TokenStream.reads_ofSource source) rfl (Nat.le_refl _)
  refine ⟨tiles, tiles.counted, ?_⟩
  intro offset byte found
  exact tiles.owned_once found (Nat.zero_le offset)

/-- A comment over two lines, a name, and a character that starts no token. -/
def commentedSource : String := "(* é\r\n *) x #"

theorem items_tile_commentedSource :
    let items := (TokenStream.ofSource commentedSource).items
    let error := LexicalError.invalidToken '#' ⟨⟨2, 7⟩, ⟨2, 8⟩⟩
    Tiles commentedSource 0 items ∧
      (Item.error error ∈ items ∧ error.span ≠ .generated) ∧
      (byteAt? commentedSource 4 = some 0xA9 ∧
        items.countP (Item.owns commentedSource 4) = 1) := by
  have member : Item.error (.invalidToken '#' ⟨⟨2, 7⟩, ⟨2, 8⟩⟩) ∈
      (TokenStream.ofSource commentedSource).items := by
    decide +kernel
  have found : byteAt? commentedSource 4 = some 0xA9 := by decide +kernel
  obtain ⟨tiles, counted, owned⟩ := items_tile_source commentedSource
  refine ⟨tiles, ⟨member, (counted _ member).1⟩, found, ?_⟩
  rcases owned 4 0xA9 found with once | ⟨none, -⟩
  · exact once
  · exact absurd none (by decide +kernel)

end SmallMl
