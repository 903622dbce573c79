import Mathlib
import StackMachine.Proofs.Source.Refusal

/-!
# Where syntax errors stand

`Source.Located` says where the word that a syntax error reports begins in the text, and where the
last word begins that was looked at.  The row of an error counts the line feeds before the latter
(`Source.row_of_error`).  The two places are the same except for a missing operand, which is
reported with the keyword of its instruction but on the row of the last word of the source.
-/

namespace StackMachine

/-- The last word of a source begins behind a stretch of the text. -/
def Source.LastWordBehind (source : Source) (front : List Char) : Prop :=
  ∃ (items : List Item) (item : Item) (gap rest : List Char),
    source.input.unread = front ++ (item.chars ++ (gap ++ rest)) ∧
    Laid source.input.fault (item.chars ++ (gap ++ rest)) items front ∧ item.Readable ∧
    item.Ends source.input.fault (gap ++ rest) ∧ IsGap gap ∧ IsEnding rest

/-- A word that is wrong for some cause begins behind the stretch `front`, and the last word looked
at behind the stretch `last`. -/
inductive Source.Located (source : Source) (word : String) :
    SyntaxCause → (front last : List Char) → Prop
  /-- The word behind all instructions is no keyword. -/
  | unknown {items : List Item} {item : Item} {front : List Char} :
      source.WordBehind items front item → Token.Spelled source.tokens (items.map Item.word) →
      item.word = word → Opcode.ofKeyword? word = none →
      Located source word .unknownKeyword front front
  /-- An operand of the instruction behind all others ought to be a number. -/
  | number {items operands : List Item} {keyword item : Item} {opcode : Opcode}
      {fault : NumberFault} {front : List Char} :
      source.WordBehind (items ++ keyword :: operands) front item →
      Token.Spelled source.tokens (items.map Item.word) →
      Opcode.ofKeyword? keyword.word = some opcode → item.word = word →
      opcode.Refuses (operands.map Item.word) word fault →
      Located source word (.invalidNumber fault) front front
  /-- A quote opens a literal and nothing closes it. -/
  | openLiteral {items : List Item} {front content : List Char} :
      source.input.unread = front ++ '"' :: content →
      Laid source.input.fault ('"' :: content) items front → '"' ∉ content →
      "\"" ++ String.ofList content = word →
      Located source word .unterminatedLiteral front front
  /-- The instruction behind all others lacks an operand. -/
  | missing {items : List Item} {keyword : Item} {opcode : Opcode} {front last : List Char} :
      source.WordBehind items front keyword → Token.Spelled source.tokens (items.map Item.word) →
      keyword.word = word → Opcode.ofKeyword? word = some opcode → source.LastWordBehind last →
      Located source word .missingOperand front last

/-! ## The end of reading -/

namespace Source

variable {source : Source} {cursor after : Cursor}

/-- Reading word after word comes to one end only. -/
theorem Words.end_unique {words others : List String} {last : Cursor}
    {stop reason : Option ScanError} (read : source.Words cursor words after)
    (stopped : Scan.word source after = .error stop) (again : source.Words cursor others last)
    (stoppedAgain : Scan.word source last = .error reason) : last = after := by
  induction read generalizing others with
  | nil cursor =>
      cases again with
      | nil => rfl
      | cons isWord _ =>
          rw [stopped] at isWord
          cases isWord
  | cons isWord _ ih =>
      cases again with
      | nil =>
          rw [stoppedAgain] at isWord
          cases isWord
      | cons isWordAgain again =>
          rw [isWord] at isWordAgain
          cases isWordAgain
          exact ih stopped again

/-- The word that is read last. -/
theorem Words.exists_last {words : List String} (read : source.Words cursor words after)
    (nonempty : words ≠ []) :
    ∃ front text between, words = front ++ [text] ∧ source.Words cursor front between ∧
      Scan.word source between = .ok (text, after) := by
  obtain ⟨front, text, rfl⟩ := (List.eq_nil_or_concat' words).resolve_left nonempty
  obtain ⟨between, read, isLast⟩ := words_append_iff.mp read
  obtain ⟨_, isWord, rfl⟩ := words_singleton_iff.mp isLast
  exact ⟨front, text, between, rfl, read, isWord⟩

/-- Behind the last word there is none, and its row is the number of line feeds before it. -/
theorem LastWordBehind.read {front : List Char} (stands : source.LastWordBehind front) :
    ∃ words last stop, source.Words (.start source.input.unread) words last ∧
      Scan.word source last = .error stop ∧ last.wordRow = lineFeeds front := by
  obtain ⟨items, item, gap, rest, text, laid, readable, ends, isGap, isEnding⟩ := stands
  have isText : (Cursor.start source.input.unread).text =
      front ++ (item.chars ++ (gap ++ rest)) := text
  obtain ⟨cursor, before, words, isBefore, left, row⟩ :=
    words_of_laid laid isText (readable.beginsWord _).noSeparator
  have isWord := Scan.word_written isBefore readable ends left
  obtain ⟨stretch, isStretch, isLeft⟩ := ends.exists_left isEnding.noSeparator
  have lastGap : Laid source.input.fault rest [] stretch := by
    rw [← ends.laid_iff, ← isStretch]
    exact .gap isGap
  cases lastGap with
  | gap isLast =>
      refine ⟨_, cursor.past before item (gap ++ rest), _,
        words_append_iff.mpr ⟨cursor, words, words_singleton_iff.mpr ⟨_, isWord, rfl⟩⟩,
        Scan.word_ending isLast isEnding isLeft, ?_⟩
      exact row.trans (Nat.zero_add _)

/-- Where reading ends, the last word read is the last word of the source. -/
theorem lastWordBehind_of_words {words : List String} {last : Cursor}
    (read : source.Words (.start source.input.unread) words last) (nonempty : words ≠ [])
    (ended : Scan.word source last = .error none) :
    ∃ front, source.LastWordBehind front ∧ last.wordRow = lineFeeds front := by
  obtain ⟨earlier, text, between, rfl, readEarlier, isWord⟩ := read.exists_last nonempty
  obtain ⟨before, item, behind, left, isBefore, readable, ends, rfl, rfl⟩ :=
    Scan.word_eq_ok_iff.mp isWord
  obtain ⟨items, front, -, laid, isText, row⟩ := laid_of_words readEarlier isBefore left
  obtain ⟨-, gap, rest, isLeft, isGap, isEnding⟩ := Scan.word_eq_none_iff.mp ended
  have isBehind : behind = item.taken behind ++ gap ++ rest := by
    conv_lhs => rw [← item.taken_append_left behind]
    rw [List.append_assoc]
    exact congrArg _ isLeft
  have lastGap : Laid source.input.fault rest [] (item.taken behind ++ gap) :=
    ends.laid_iff.mpr (.gap isGap)
  cases lastGap with
  | gap isLast =>
      refine ⟨front, ⟨items, item, _, rest, isBehind ▸ isText, isBehind ▸ laid, readable,
        isBehind ▸ ends, isLast, isEnding⟩, row.trans (Nat.zero_add _)⟩

/-! ## Failures -/

variable {error : SyntaxError}

/-- The instructions of a source that fails are followed by one that cannot be scanned. -/
theorem halts_of_failure {failure : ScanError}
    (failed : source.instructions.failure = some failure) :
    ∃ words cursor, source.Words (.start source.input.unread) words cursor ∧
      Token.Spelled source.tokens words ∧
      source.Scans (.start source.input.unread) source.instructions.instructions cursor ∧
      source.Halts cursor (some failure) := by
  obtain ⟨cursor, scans, stopped⟩ :=
    Tokenizer.exists_scans_streamFrom source (.start source.input.unread)
  change Scan.instruction source cursor = .error source.instructions.failure at stopped
  rw [failed] at stopped
  obtain ⟨words, read, spelled⟩ := scans.spelled
  exact ⟨words, cursor, read, spelled, scans, Scan.instruction_eq_error_iff.mp stopped⟩

/-- A malformed operand is missing, or it is a literal that is not closed. -/
theorem operand_eq_malformed {keyword : String}
    (stopped : Scan.operand source keyword cursor = .error (some (.malformed error))) :
    (Scan.word source cursor = .error none ∧
      error = ⟨source.name, cursor.wordRow, keyword, .missingOperand⟩) ∨
    Scan.word source cursor = .error (some (.malformed error)) := by
  rcases Scan.operand_eq_error_iff.mp stopped with ⟨ended, isError⟩ | ⟨_, stopped, isError⟩
  · cases isError
    exact .inl ⟨ended, rfl⟩
  · cases isError
    exact .inr stopped

/-- Where a literal is open, its place is that of its quote. -/
theorem located_of_openLiteral {words : List String} {last : Cursor}
    (read : source.Words (.start source.input.unread) words last)
    (stopped : Scan.word source last = .error (some (.malformed error))) :
    ∃ front, source.Located error.word error.cause front front := by
  obtain ⟨gap, content, text, isGap, noQuote, rfl⟩ := Scan.word_eq_malformed stopped
  obtain ⟨items, front, -, laid, isText, -⟩ := laid_of_words read isGap text
  exact ⟨front, .openLiteral isText laid noQuote rfl⟩

/-- Every syntax error has its place in the text. -/
theorem exists_located (failed : source.instructions.failure = some (.malformed error)) :
    ∃ front last, source.Located error.word error.cause front last := by
  obtain ⟨words, cursor, read, spelled, -, halts⟩ := halts_of_failure failed
  generalize isStop : some (ScanError.malformed error) = stop at halts
  cases halts with
  | keyword stopped =>
      subst isStop
      obtain ⟨front, located⟩ := located_of_openLiteral read stopped
      exact ⟨front, front, located⟩
  | unknown isWord isUnknown =>
      cases isStop
      obtain ⟨items, front, item, stands, rfl, rfl, -⟩ := wordBehind_of_words read isWord
      exact ⟨front, front, .unknown stands spelled rfl isUnknown⟩
  | @operand keyword opcode after _ isKeyword isOpcode lacks =>
      subst isStop
      obtain ⟨operands, last, isOperands, -, stopped⟩ := lacks
      have readAll :
          source.Words (.start source.input.unread) (words ++ keyword :: operands) last :=
        words_append_iff.mpr ⟨cursor, read, .cons isKeyword isOperands⟩
      rcases operand_eq_malformed stopped with ⟨ended, rfl⟩ | stopped
      · obtain ⟨items, front, item, stands, rfl, rfl, -⟩ := wordBehind_of_words read isKeyword
        obtain ⟨end_, isLast, -⟩ := lastWordBehind_of_words readAll (by simp) ended
        exact ⟨front, end_, .missing stands spelled rfl isOpcode isLast⟩
      · obtain ⟨front, located⟩ := located_of_openLiteral readAll stopped
        exact ⟨front, front, located⟩
  | @number keyword opcode after _ isKeyword isOpcode rejects =>
      subst isStop
      obtain ⟨operands, text, fault, last, isOperands, refuses, isError⟩ := rejects
      cases isError
      obtain ⟨between, isOperands, isText⟩ := words_append_iff.mp isOperands
      obtain ⟨_, isWord, rfl⟩ := words_singleton_iff.mp isText
      have readAll : source.Words (.start source.input.unread) (words ++ keyword :: operands)
          between := words_append_iff.mpr ⟨cursor, read, .cons isKeyword isOperands⟩
      obtain ⟨all, front, item, stands, isAll, rfl, -⟩ := wordBehind_of_words readAll isWord
      obtain ⟨items, others, rfl, rfl, isOthers⟩ := List.map_eq_append_iff.mp isAll
      obtain ⟨first, behind, rfl, rfl, rfl⟩ := List.map_eq_cons_iff.mp isOthers
      exact ⟨front, front, .number stands spelled isOpcode rfl refuses⟩
  | oversized => cases isStop

/-- A missing operand and an open literal are found at the end of reading. -/
theorem Halts.reads_to_end (halts : source.Halts cursor (some (.malformed error))) :
    (error.cause = .missingOperand → ∃ words last, source.Words cursor words last ∧
      Scan.word source last = .error none ∧ error.row = last.wordRow) ∧
    (error.cause = .unterminatedLiteral → ∃ words last, source.Words cursor words last ∧
      Scan.word source last = .error (some (.malformed error))) := by
  generalize isStop : some (ScanError.malformed error) = stop at halts
  cases halts with
  | keyword stopped =>
      subst isStop
      refine ⟨fun isMissing => ?_, fun _ => ⟨[], cursor, .nil cursor, stopped⟩⟩
      obtain ⟨_, _, -, -, -, rfl⟩ := Scan.word_eq_malformed stopped
      cases isMissing
  | unknown =>
      cases isStop
      exact ⟨nofun, nofun⟩
  | @operand keyword opcode after _ isKeyword _ lacks =>
      subst isStop
      obtain ⟨operands, last, isOperands, -, stopped⟩ := lacks
      have read : source.Words cursor (keyword :: operands) last := .cons isKeyword isOperands
      rcases operand_eq_malformed stopped with ⟨ended, rfl⟩ | stopped
      · exact ⟨fun _ => ⟨_, last, read, ended, rfl⟩, nofun⟩
      · refine ⟨fun isMissing => ?_, fun _ => ⟨_, last, read, stopped⟩⟩
        obtain ⟨_, _, -, -, -, rfl⟩ := Scan.word_eq_malformed stopped
        cases isMissing
  | number _ _ rejects =>
      subst isStop
      obtain ⟨_, _, _, _, -, -, isError⟩ := rejects
      cases isError
      exact ⟨nofun, nofun⟩
  | oversized => cases isStop

/-- The row of a syntax error counts the line feeds before the last word looked at. -/
theorem Located.row_eq (failed : source.instructions.failure = some (.malformed error))
    {front last : List Char} (located : source.Located error.word error.cause front last) :
    error.row = lineFeeds last := by
  obtain ⟨words, cursor, read, -, scans, halts⟩ := halts_of_failure failed
  have stopped := Scan.instruction_eq_error_iff.mpr halts
  obtain ⟨name, row, word, cause⟩ := error
  cases located with
  | @unknown items item _ stands spelled isReported isUnknown =>
      subst isReported
      obtain ⟨_, after, read, isWord, isRow⟩ := stands.read
      obtain rfl := scans.cursor_eq spelled read
      have again := Scan.instruction_eq_error_iff.mpr (.unknown isWord isUnknown)
      rw [stopped] at again
      cases again
      exact isRow
  | @number items operands keyword item opcode fault _ stands spelled isOpcode isReported refuses =>
      subst isReported
      obtain ⟨between, after, read, isWord, isRow⟩ := stands.read
      rw [List.map_append, List.map_cons] at read
      obtain ⟨_, read, isOperands⟩ := words_append_iff.mp read
      obtain rfl := scans.cursor_eq spelled read
      obtain ⟨behind, isKeyword, isOperands⟩ := words_cons_iff.mp isOperands
      have rejects : source.Rejects opcode behind _ := ⟨_, item.word, fault, after,
        words_append_iff.mpr ⟨between, isOperands, words_singleton_iff.mpr ⟨after, isWord, rfl⟩⟩,
        refuses, rfl⟩
      have again := Scan.instruction_eq_error_iff.mpr (.number isKeyword isOpcode rejects)
      rw [stopped] at again
      cases again
      exact isRow
  | @openLiteral items front content text laid noQuote _ =>
      have isText : (Cursor.start source.input.unread).text = front ++ '"' :: content := text
      have noSeparator : ∀ c, ('"' :: content).head? = some c → isSeparator c = false := by
        rintro _ ⟨⟩
        rfl
      obtain ⟨between, gap, readTo, isGap, left, isRow⟩ := words_of_laid laid isText noSeparator
      have isOpen := @Scan.word_openLiteral source between gap isGap content noQuote left
      obtain ⟨others, end_, readOn, stopped⟩ := halts.reads_to_end.2 rfl
      obtain rfl := readTo.end_unique isOpen (words_append_iff.mpr ⟨_, read, readOn⟩) stopped
      rw [stopped] at isOpen
      cases fault : source.input.fault with
      | some failure =>
          rw [fault] at isOpen
          cases isOpen
      | none =>
          rw [fault] at isOpen
          have isError := ScanError.malformed.inj (Option.some.inj (Except.error.inj isOpen))
          rw [congrArg SyntaxError.row isError]
          exact isRow.trans (Nat.zero_add _)
  | missing _ _ _ _ isLast =>
      obtain ⟨_, between, _, readTo, stoppedThere, isRow⟩ := isLast.read
      obtain ⟨others, end_, readOn, ended, rfl⟩ := halts.reads_to_end.1 rfl
      obtain rfl := readTo.end_unique stoppedThere (words_append_iff.mpr ⟨_, read, readOn⟩) ended
      exact isRow

/-- Every syntax error of a source has its place in the text, and its row is the number of line
feeds before the last word looked at.  That word is the one reported, unless an operand is missing. -/
theorem row_of_error (failed : source.instructions.failure = some (.malformed error)) :
    (∃ front last, source.Located error.word error.cause front last) ∧
    ∀ front last, source.Located error.word error.cause front last →
      error.row = lineFeeds last ∧ (error.cause ≠ .missingOperand → last = front) := by
  refine ⟨exists_located failed, fun front last located => ⟨located.row_eq failed, ?_⟩⟩
  intro present
  generalize error.cause = cause at located present
  cases located with
  | missing => exact absurd rfl present
  | unknown | number | openLiteral => rfl

/-- A source whose only instruction lacks its last operand and has the others on two rows. -/
def spreadOperands : Source where
  name := "operands"
  input := ⟨"stores 0\n1".toList, none⟩

theorem row_of_error_spreadOperands :
    ∃ error front last, spreadOperands.instructions.failure = some (.malformed error) ∧
      spreadOperands.Located error.word error.cause front last ∧
      error.row = lineFeeds last ∧ error.row ≠ lineFeeds front := by
  have failed : spreadOperands.instructions.failure =
      some (.malformed ⟨"operands", 1, "stores", .missingOperand⟩) := by cbv
  have noTokens : spreadOperands.tokens = [] := by cbv
  have keyword : ReadsBare "stores" := by simp [ReadsBare, IsBare, isSeparator]
  have address : ReadsBare "0" := by simp [ReadsBare, IsBare, isSeparator]
  have size : ReadsBare "1" := by simp [ReadsBare, IsBare, isSeparator]
  have stands : spreadOperands.WordBehind [] [] (.bare "stores") :=
    ⟨" 0\n1".toList, by decide, .gap .nil, keyword, rfl⟩
  have behindKeyword : Laid none ['1'] [.bare "0"] ([' '] ++ (['0'] ++ ['\n'])) :=
    .word (.separator rfl .nil) address rfl (.gap (.separator rfl .nil))
  have isLast : spreadOperands.LastWordBehind ([] ++ ("stores".toList ++ [' ', '0', '\n'])) :=
    ⟨[.bare "stores", .bare "0"], .bare "1", [], [], by decide,
      .word .nil keyword rfl behindKeyword, size, rfl, .nil, .inl rfl⟩
  have located : spreadOperands.Located "stores" .missingOperand [] _ :=
    .missing stands (noTokens ▸ .nil) rfl (show _ = some .stores by decide) isLast
  exact ⟨_, [], _, failed, located, ((row_of_error failed).2 _ _ located).1, by decide⟩

end Source

end StackMachine
