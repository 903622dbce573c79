import Mathlib
import StackMachine.Proofs.Source.Layout
import StackMachine.Proofs.Source.RoundTrip

/-!
# The rows of instructions

A position in a source is given by the text before it.  `Source.WordBehind` says that a written word
begins at a position, behind certain other words, and `Source.KeywordBehind` that the keyword of an
instruction does, behind the words of the instructions before it; both are about the text alone.

Line feeds are counted in three places: in gaps, in literals, and with the separator that ends a
bare word.  Together they count each line feed before a word once (`Source.WordBehind.read`), so the
row of an instruction is the number of line feeds before its keyword (`Source.rows_of_keywords`).
-/

namespace StackMachine

/-! ## Where a word stands -/

/-- A written word begins behind a stretch of the text that holds certain other words. -/
def Source.WordBehind (source : Source) (items : List Item) (front : List Char) (item : Item) :
    Prop :=
  ∃ behind, source.input.unread = front ++ (item.chars ++ behind) ∧
    Laid source.input.fault (item.chars ++ behind) items front ∧
    item.Readable ∧ item.Ends source.input.fault behind

namespace Source

variable {source : Source}

/-- A word that stands behind others is ahead when they are read. -/
theorem WordBehind.exists_ahead {items : List Item} {front : List Char} {item : Item}
    (stands : source.WordBehind items front item) :
    ∃ cursor gap behind, source.Words (.start source.input.unread) (items.map Item.word) cursor ∧
      cursor.text = gap ++ (item.chars ++ behind) ∧ IsGap gap ∧ item.Readable ∧
      item.Ends source.input.fault behind ∧ cursor.row + lineFeeds gap = lineFeeds front := by
  obtain ⟨behind, text, laid, readable, ends⟩ := stands
  have isText : (Cursor.start source.input.unread).text = front ++ (item.chars ++ behind) := text
  obtain ⟨cursor, gap, words, isGap, left, row⟩ :=
    words_of_laid laid isText (readable.beginsWord behind).noSeparator
  exact ⟨cursor, gap, behind, words, left, isGap, readable, ends, row.trans (Nat.zero_add _)⟩

/-- A word that is ahead when others are read stands behind them. -/
theorem wordBehind_of_ahead {words : List String} {cursor : Cursor} {gap behind : List Char}
    {item : Item} (read : source.Words (.start source.input.unread) words cursor)
    (text : cursor.text = gap ++ (item.chars ++ behind)) (isGap : IsGap gap)
    (readable : item.Readable) (ends : item.Ends source.input.fault behind) :
    ∃ items front, source.WordBehind items front item ∧ items.map Item.word = words ∧
      cursor.row + lineFeeds gap = lineFeeds front := by
  obtain ⟨items, front, isWords, laid, isText, row⟩ := laid_of_words read isGap text
  exact ⟨items, front, ⟨behind, isText, laid, readable, ends⟩, isWords,
    row.trans (Nat.zero_add _)⟩

/-- A word that stands behind others is read behind them, and the row that is kept for it is the
number of line feeds before it. -/
theorem WordBehind.read {items : List Item} {front : List Char} {item : Item}
    (stands : source.WordBehind items front item) :
    ∃ cursor after, source.Words (.start source.input.unread) (items.map Item.word) cursor ∧
      Scan.word source cursor = .ok (item.word, after) ∧ after.wordRow = lineFeeds front := by
  obtain ⟨cursor, gap, behind, words, text, isGap, readable, ends, row⟩ := stands.exists_ahead
  exact ⟨cursor, _, words, Scan.word_written isGap readable ends text, row⟩

/-- A word that is read behind others stands behind them. -/
theorem wordBehind_of_words {words : List String} {text : String} {cursor after : Cursor}
    (read : source.Words (.start source.input.unread) words cursor)
    (isWord : Scan.word source cursor = .ok (text, after)) :
    ∃ items front item, source.WordBehind items front item ∧ items.map Item.word = words ∧
      item.word = text ∧ after.wordRow = lineFeeds front := by
  obtain ⟨gap, item, behind, left, isGap, readable, ends, rfl, rfl⟩ :=
    Scan.word_eq_ok_iff.mp isWord
  obtain ⟨items, front, stands, isWords, row⟩ := wordBehind_of_ahead read left isGap readable ends
  exact ⟨items, front, item, stands, isWords, rfl, row⟩

end Source

/-! ## The words of tokens -/

/-- Words that spell some tokens: for each of them its keyword and its operands. -/
inductive Token.Spelled : List Token → List String → Prop
  | nil : Spelled [] []
  | cons {keyword : String} {opcode : Opcode} {operands words : List String} {token : Token}
      {tokens : List Token} :
      Opcode.ofKeyword? keyword = some opcode → OfWords opcode operands token →
      Spelled tokens words → Spelled (token :: tokens) (keyword :: (operands ++ words))

namespace Source

variable {source : Source} {cursor after : Cursor}

/-- The words between two cursors spell the tokens of the instructions between them. -/
theorem Scans.spelled {instructions : List Instruction}
    (scans : source.Scans cursor instructions after) :
    ∃ words, source.Words cursor words after ∧
      Token.Spelled (instructions.map (·.token)) words := by
  induction scans with
  | nil cursor => exact ⟨[], .nil cursor, .nil⟩
  | cons scanned _ ih =>
      obtain ⟨words, read, spelled⟩ := ih
      obtain ⟨keyword, opcode, between, operands, isKeyword, isOpcode, isOperands, made, -⟩ :=
        Scan.instruction_eq_ok_iff.mp scanned
      exact ⟨keyword :: (operands ++ words),
        .cons isKeyword (words_append_iff.mpr ⟨_, isOperands, read⟩),
        .cons isOpcode made spelled⟩

/-- Where words spell tokens, instructions with these tokens are scanned. -/
theorem scans_of_spelled {tokens : List Token} {words : List String}
    (spelled : Token.Spelled tokens words) (read : source.Words cursor words after) :
    ∃ instructions, source.Scans cursor instructions after ∧
      instructions.map (·.token) = tokens := by
  induction spelled generalizing cursor with
  | nil =>
      obtain rfl := words_nil_iff.mp read
      exact ⟨[], .nil after, rfl⟩
  | @cons keyword opcode operands words token tokens isOpcode made _ ih =>
      obtain ⟨between, isKeyword, read⟩ := words_cons_iff.mp read
      obtain ⟨middle, isOperands, read⟩ := words_append_iff.mp read
      obtain ⟨instructions, scans, same⟩ := ih read
      have scanned : Scan.instruction source cursor = .ok (⟨token, between.wordRow⟩, middle) :=
        Scan.instruction_eq_ok_iff.mpr
          ⟨keyword, opcode, between, operands, isKeyword, isOpcode, isOperands, made, rfl⟩
      exact ⟨⟨token, between.wordRow⟩ :: instructions, .cons scanned scans,
        congrArg (token :: ·) same⟩

theorem scans_append_iff {front back : List Instruction} :
    source.Scans cursor (front ++ back) after ↔
      ∃ between, source.Scans cursor front between ∧ source.Scans between back after := by
  constructor
  · intro scans
    induction front generalizing cursor with
    | nil => exact ⟨cursor, .nil cursor, scans⟩
    | cons first front ih =>
        cases scans with
        | cons scanned scans =>
            obtain ⟨between, front, back⟩ := ih scans
            exact ⟨between, .cons scanned front, back⟩
  · rintro ⟨between, front, back⟩
    induction front with
    | nil => exact back
    | cons scanned _ ih => exact .cons scanned (ih back)

/-- As many instructions are always scanned up to the same cursor. -/
theorem Scans.unique {instructions others : List Instruction} {last : Cursor}
    (scans : source.Scans cursor instructions after) (again : source.Scans cursor others last)
    (length : others.length = instructions.length) : others = instructions ∧ last = after := by
  induction scans generalizing others with
  | nil cursor =>
      obtain rfl := List.length_eq_zero_iff.mp length
      cases again
      exact ⟨rfl, rfl⟩
  | cons scanned _ ih =>
      cases again with
      | nil => cases length
      | cons scannedAgain again =>
          rw [scanned] at scannedAgain
          cases scannedAgain
          obtain ⟨rfl, rfl⟩ := ih again (Nat.succ.inj length)
          exact ⟨rfl, rfl⟩

/-- Words that spell the tokens of scanned instructions lead to the same cursor. -/
theorem Scans.cursor_eq {instructions : List Instruction} {words : List String} {last : Cursor}
    (scans : source.Scans cursor instructions after)
    (spelled : Token.Spelled (instructions.map (·.token)) words)
    (read : source.Words cursor words last) : last = after := by
  obtain ⟨others, again, same⟩ := scans_of_spelled spelled read
  have length := congrArg List.length same
  rw [List.length_map, List.length_map] at length
  exact (scans.unique again length).2

end Source

/-! ## Rows never decrease -/

namespace Source

variable {source : Source} {cursor after : Cursor}

theorem row_le_of_word {text : String} (isWord : Scan.word source cursor = .ok (text, after)) :
    cursor.row ≤ after.wordRow ∧ after.wordRow ≤ after.row := by
  obtain ⟨gap, item, behind, -, -, -, -, -, rfl⟩ := Scan.word_eq_ok_iff.mp isWord
  simp only [Cursor.past, lineFeeds_append]
  omega

theorem Words.row_le {words : List String} (read : source.Words cursor words after) :
    cursor.row ≤ after.row := by
  induction read with
  | nil => exact Nat.le_refl _
  | cons isWord _ ih =>
      obtain ⟨begins, ends⟩ := row_le_of_word isWord
      omega

/-- The rows of instructions between two cursors begin with the first cursor's row and never
decrease. -/
theorem Scans.rows {instructions : List Instruction}
    (scans : source.Scans cursor instructions after) :
    (∀ found ∈ instructions, cursor.row ≤ found.row) ∧
      instructions.Pairwise fun first second => first.row ≤ second.row := by
  induction scans with
  | nil => exact ⟨List.forall_mem_nil _, .nil⟩
  | @cons cursor between after first rest scanned _ ih =>
      obtain ⟨later, ordered⟩ := ih
      obtain ⟨keyword, opcode, middle, operands, isKeyword, -, isOperands, -, isRow⟩ :=
        Scan.instruction_eq_ok_iff.mp scanned
      obtain ⟨begins, ends⟩ := row_le_of_word isKeyword
      have passed : first.row ≤ between.row := by
        have behind := isOperands.row_le
        omega
      refine ⟨List.forall_mem_cons.mpr ⟨by omega, fun found mem => ?_⟩,
        List.pairwise_cons.mpr ⟨fun found mem => passed.trans (later found mem), ordered⟩⟩
      have behind := later found mem
      omega

end Source

/-! ## The rows of keywords -/

/-- The keyword of a token begins behind a stretch of the text that holds exactly the words of the
tokens before it. -/
def Source.KeywordBehind (source : Source) (earlier : List Token) (token : Token)
    (front : List Char) : Prop :=
  ∃ items item, source.WordBehind items front item ∧
    Token.Spelled earlier (items.map Item.word) ∧
    Opcode.ofKeyword? item.word = some token.opcode

/-- The keyword of every instruction of a source has its place in the text, the row of the
instruction is the number of line feeds before that place, and rows never decrease. -/
theorem Source.rows_of_keywords (source : Source) :
    (∀ earlier found later, source.instructions.instructions = earlier ++ found :: later →
      (∃ front, source.KeywordBehind (earlier.map (·.token)) found.token front) ∧
      ∀ front, source.KeywordBehind (earlier.map (·.token)) found.token front →
        found.row = lineFeeds front) ∧
    source.instructions.instructions.Pairwise fun first second => first.row ≤ second.row := by
  obtain ⟨last, scans, -⟩ := Tokenizer.exists_scans_streamFrom source (.start source.input.unread)
  change source.Scans _ source.instructions.instructions last at scans
  refine ⟨fun earlier found later split => ?_, scans.rows.2⟩
  rw [split] at scans
  obtain ⟨cursor, scansEarlier, scansLater⟩ := scans_append_iff.mp scans
  cases scansLater with
  | cons scanned _ =>
      obtain ⟨keyword, opcode, between, operands, isKeyword, isOpcode, -, made, isRow⟩ :=
        Scan.instruction_eq_ok_iff.mp scanned
      obtain rfl := made.opcode_eq
      constructor
      · obtain ⟨words, read, spelled⟩ := scansEarlier.spelled
        obtain ⟨items, front, item, stands, rfl, rfl, -⟩ := wordBehind_of_words read isKeyword
        exact ⟨front, items, item, stands, spelled, isOpcode⟩
      · rintro front ⟨items, item, stands, spelled, -⟩
        obtain ⟨_, after, read, isWord, row⟩ := stands.read
        obtain rfl := scansEarlier.cursor_eq spelled read
        rw [isKeyword, Except.ok.injEq, Prod.mk.injEq] at isWord
        rw [isRow, isWord.2, row]

/-- A source with line feeds between operands, inside a literal and in a comment. -/
def spreadSource : Source where
  name := "spread"
  input := ⟨"stores\n0 1 \"a\nb\" ; pop\n pop".toList, none⟩

theorem Source.rows_of_keywords_spread :
    ∃ front, spreadSource.KeywordBehind [{ opcode := .stores, size := 1, name := "a\nb" }]
      { opcode := .pop } front ∧ lineFeeds front = 3 := by
  have split : spreadSource.instructions.instructions =
      [⟨{ opcode := .stores, size := 1, name := "a\nb" }, 0⟩] ++ ⟨{ opcode := .pop }, 3⟩ :: [] := by
    cbv
  obtain ⟨⟨front, stands⟩, rows⟩ := (rows_of_keywords spreadSource).1 _ _ _ split
  exact ⟨front, stands, (rows front stands).symm⟩

end StackMachine
