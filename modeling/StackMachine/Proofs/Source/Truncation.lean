import Mathlib
import StackMachine.Proofs.Source.Refusal
import StackMachine.Proofs.Text.Truncation

/-!
# Sources that are cut off

Scanning a source that fails early agrees with scanning the whole source as long as words can be
read (`Scan.word_cutOff`): the end of a word is seen only at a separator or a closing quote, and
neither is a replacement character.  Where no word can be read, the failure is reported
(`Scan.word_eq_error_of_fault`).  So the instructions before the failure are the first ones of the
whole source (`Source.FailsIn.instructions`).
-/

namespace StackMachine

/-- Cursors at the same place of a text that ends early and of the whole text. -/
structure Cursor.CutOff (cut whole : Cursor) : Prop where
  text : StackMachine.CutOff cut.text whole.text
  row : cut.row = whole.row
  wordRow : cut.wordRow = whole.wordRow

/-- A source that fails where another source of its name goes on. -/
structure Source.FailsIn (fault : ReadFault) (cut whole : Source) : Prop where
  name : cut.name = whole.name
  input : cut.input.FailsIn fault whole.input

/-- A written word that is complete without the end of the text ends with a character that is no
replacement character, or such a character stands behind it. -/
theorem Item.Ends.exists_end {item : Item} {fault : ReadFault} {behind : List Char}
    (ends : item.Ends (some fault) behind) :
    ∃ front c, c ≠ Utf8.replacement ∧ item.chars ++ behind = front ++ c :: item.left behind ∧
      ∀ rest, ∃ others, front ++ c :: rest = item.chars ++ others ∧
        (∀ end?, item.Ends end? others) ∧ item.taken others = item.taken behind ∧
          item.left others = rest := by
  cases item with
  | quoted word =>
      refine ⟨'"' :: word.toList, '"', by decide, by simp [Item.chars, Item.left], ?_⟩
      intro rest
      exact ⟨rest, by simp [Item.chars], fun _ => trivial, rfl, rfl⟩
  | bare word =>
      cases behind with
      | nil => cases ends
      | cons c behind =>
          have known : c ≠ Utf8.replacement := by
            rintro rfl
            cases ends
          exact ⟨word.toList, c, known, rfl, fun rest => ⟨c :: rest, rfl, fun _ => ends, rfl, rfl⟩⟩

namespace Scan

variable {fault : ReadFault} {cut whole : Source} {cursor place : Cursor}

/-- A word that is read before the failure is read from the whole source. -/
theorem word_cutOff (failsIn : cut.FailsIn fault whole) (cutOff : cursor.CutOff place)
    {text : String} {after : Cursor} (isWord : word cut cursor = .ok (text, after)) :
    ∃ later, word whole place = .ok (text, later) ∧ after.CutOff later := by
  obtain ⟨gap, item, behind, isText, isGap, readable, ends, rfl, rfl⟩ := word_eq_ok_iff.mp isWord
  rw [failsIn.input.1] at ends
  obtain ⟨front, c, known, isEnd, others⟩ := ends.exists_end
  rw [isEnd, ← List.append_assoc] at isText
  obtain ⟨rest, isWhole, behindCut⟩ := cutOff.text.exists_behind isText known
  obtain ⟨others, isOthers, endsToo, sameTaken, rfl⟩ := others rest
  rw [List.append_assoc, isOthers] at isWhole
  refine ⟨_, word_written isGap readable (endsToo whole.input.fault) isWhole, behindCut, ?_, ?_⟩
  · simp only [Cursor.past, sameTaken, cutOff.row]
  · simp only [Cursor.past, cutOff.row]

/-- Where no word can be read, the failure is to blame. -/
theorem word_eq_error_of_fault (failing : cut.input.fault = some fault) {stop : Option ScanError}
    (stopped : word cut cursor = .error stop) : stop = some (.unreadable fault) := by
  have ahead := ahead_of_text cut.input.fault cursor.text
  generalize isText : cursor.text = chars at ahead
  cases ahead with
  | ending isGap isEnding =>
      rw [word_ending isGap isEnding isText, failing] at stopped
      cases stopped
      rfl
  | openLiteral isGap noQuote =>
      rw [word_openLiteral isGap noQuote isText, failing] at stopped
      cases stopped
      rfl
  | word isGap readable ends =>
      rw [word_written isGap readable ends isText] at stopped
      cases stopped
  | cutShort isGap readsBare failingToo =>
      rw [word_cutShort isGap readsBare failing isText] at stopped
      cases stopped
      rfl

end Scan

namespace Source

variable {fault : ReadFault} {cut whole : Source} {cursor place : Cursor}

theorem Words.cutOff (failsIn : cut.FailsIn fault whole) (cutOff : cursor.CutOff place)
    {texts : List String} {after : Cursor} (read : cut.Words cursor texts after) :
    ∃ later, whole.Words place texts later ∧ after.CutOff later := by
  induction read generalizing place with
  | nil cursor => exact ⟨place, .nil place, cutOff⟩
  | cons isWord _ ih =>
      obtain ⟨between, isWordToo, cutOff⟩ := Scan.word_cutOff failsIn cutOff isWord
      obtain ⟨later, read, cutOff⟩ := ih cutOff
      exact ⟨later, .cons isWordToo read, cutOff⟩

end Source

namespace Scan

variable {fault : ReadFault} {cut whole : Source} {cursor place : Cursor}

/-- An instruction that is scanned before the failure is scanned from the whole source. -/
theorem instruction_cutOff (failsIn : cut.FailsIn fault whole) (cutOff : cursor.CutOff place)
    {found : Instruction} {after : Cursor} (scanned : instruction cut cursor = .ok (found, after)) :
    ∃ later, instruction whole place = .ok (found, later) ∧ after.CutOff later := by
  obtain ⟨keyword, opcode, between, operands, isKeyword, isOpcode, read, made, isRow⟩ :=
    instruction_eq_ok_iff.mp scanned
  obtain ⟨betweenToo, isKeywordToo, cutOff⟩ := word_cutOff failsIn cutOff isKeyword
  obtain ⟨later, readToo, cutOffLater⟩ := read.cutOff failsIn cutOff
  refine ⟨later, instruction_eq_ok_iff.mpr ?_, cutOffLater⟩
  exact ⟨keyword, opcode, betweenToo, operands, isKeywordToo, isOpcode, readToo, made,
    isRow.trans cutOff.wordRow⟩

/-- Where no instruction can be scanned, the failure is to blame, or the whole source cannot be
scanned there for the same reason. -/
theorem instruction_cutOff_of_error (failsIn : cut.FailsIn fault whole)
    (cutOff : cursor.CutOff place) {stop : Option ScanError}
    (stopped : instruction cut cursor = .error stop) :
    stop = some (.unreadable fault) ∨
      (stop = some .oversized ∨ ∃ error, stop = some (.malformed error)) ∧
        instruction whole place = .error stop := by
  rw [instruction_eq_error_iff] at stopped
  simp only [instruction_eq_error_iff]
  cases stopped with
  | keyword stopped => exact .inl (word_eq_error_of_fault failsIn.input.1 stopped)
  | @unknown text after isWord isUnknown =>
      obtain ⟨later, isWordToo, cutOffLater⟩ := word_cutOff failsIn cutOff isWord
      rw [failsIn.name, cutOffLater.wordRow]
      exact .inr ⟨.inr ⟨_, rfl⟩, .unknown isWordToo isUnknown⟩
  | operand isKeyword isOpcode lacks =>
      obtain ⟨operands, last, -, -, stopped⟩ := lacks
      rcases operand_eq_error_iff.mp stopped with ⟨ended, -⟩ | ⟨error, unread, rfl⟩
      · cases word_eq_error_of_fault failsIn.input.1 ended
      · exact .inl (word_eq_error_of_fault failsIn.input.1 unread)
  | number isKeyword isOpcode rejects =>
      obtain ⟨operands, text, wrong, last, read, refuses, rfl⟩ := rejects
      obtain ⟨between, isKeywordToo, cutOff⟩ := word_cutOff failsIn cutOff isKeyword
      obtain ⟨later, readToo, cutOffLater⟩ := read.cutOff failsIn cutOff
      rw [failsIn.name, cutOffLater.wordRow]
      exact .inr ⟨.inr ⟨_, rfl⟩, .number isKeywordToo isOpcode
        ⟨operands, text, wrong, later, readToo, refuses, rfl⟩⟩
  | oversized oversized =>
      obtain ⟨name, digits, last, count, read, isCount, large⟩ := oversized
      obtain ⟨later, readToo, -⟩ := read.cutOff failsIn cutOff
      exact .inr ⟨.inl rfl, .oversized ⟨name, digits, later, count, readToo, isCount, large⟩⟩

end Scan

namespace Source

variable {fault : ReadFault} {cut whole : Source}

theorem Scans.cutOff (failsIn : cut.FailsIn fault whole) {cursor place : Cursor}
    (cutOff : cursor.CutOff place) {instructions : List Instruction} {after : Cursor}
    (scans : cut.Scans cursor instructions after) :
    ∃ later, whole.Scans place instructions later ∧ after.CutOff later := by
  induction scans generalizing place with
  | nil cursor => exact ⟨place, .nil place, cutOff⟩
  | cons scanned _ ih =>
      obtain ⟨between, scannedToo, cutOff⟩ := Scan.instruction_cutOff failsIn cutOff scanned
      obtain ⟨later, scansToo, cutOff⟩ := ih cutOff
      exact ⟨later, .cons scannedToo scansToo, cutOff⟩

/-- A source that fails early gives the first instructions of the whole source, and then the failure
or the error that the whole source gives. -/
theorem FailsIn.instructions (failsIn : cut.FailsIn fault whole) (small : ¬ whole.Overreaches) :
    cut.instructions.instructions <+: whole.instructions.instructions ∧
      (cut.instructions.failure = some (.unreadable fault) ∨
        ∃ error, cut.instructions.failure = some (.malformed error) ∧
          cut.instructions = whole.instructions) := by
  have cutOff : Cursor.CutOff (.start cut.input.unread) (.start whole.input.unread) :=
    ⟨failsIn.input.2, rfl, rfl⟩
  obtain ⟨last, scans, stopped⟩ :=
    Tokenizer.exists_scans_streamFrom cut (.start cut.input.unread)
  obtain ⟨later, scansToo, cutOff⟩ := scans.cutOff failsIn cutOff
  have isStream : whole.instructions = _ := Tokenizer.streamFrom_of_scans scansToo
  refine ⟨isStream ▸ List.prefix_append _ _, ?_⟩
  rcases Scan.instruction_cutOff_of_error failsIn cutOff stopped with failed | ⟨why, stoppedToo⟩
  · exact .inl failed
  · rw [Tokenizer.streamFrom_of_error stoppedToo, List.append_nil] at isStream
    rcases why with oversized | ⟨error, malformed⟩
    · exact absurd (failure_eq_oversized_iff.mp (isStream ▸ oversized)) small
    · exact .inr ⟨error, malformed, isStream.symm⟩

end Source

end StackMachine
