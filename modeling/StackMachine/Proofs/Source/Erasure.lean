import Mathlib
import StackMachine.Proofs.Source.Refusal

/-!
# Erasing comments

`Source.erased` is a source without its comments.  A comment begins at a semicolon where a word
could begin.  A semicolon inside a bare word belongs to the word; a parameter says whether it is
erased as well, with all that stands behind it on its line.

Erasing keeps gaps and their line feeds, and it leaves a word whole or severs it
(`Scan.word_erased`, `Scan.not_mem_of_severed`).  As long as the words that are looked at are whole,
scanning runs alike on both texts: for one instruction this is `Scan.instruction_erased`, for all of
them `Tokenizer.streamFrom_erased`.
-/

namespace StackMachine

/-! ## Texts without comments -/

/-- Where a character of a text stands. -/
inductive Place where
  | gap
  | word
  | literal
  | comment
  deriving DecidableEq, Repr

/-- What is left of a text, from a place on, without its comments.  The line feed that ends a
comment stays. -/
def eraseFrom (inWords : Bool) : Place → List Char → List Char
  | _, [] => []
  | .gap, c :: rest =>
      if c == ';' then eraseFrom inWords .comment rest
      else if isSeparator c then c :: eraseFrom inWords .gap rest
      else if c == '"' then c :: eraseFrom inWords .literal rest
      else c :: eraseFrom inWords .word rest
  | .word, c :: rest =>
      if inWords && c == ';' then eraseFrom inWords .comment rest
      else if isSeparator c then c :: eraseFrom inWords .gap rest
      else c :: eraseFrom inWords .word rest
  | .literal, c :: rest =>
      if c == '"' then c :: eraseFrom inWords .gap rest
      else c :: eraseFrom inWords .literal rest
  | .comment, c :: rest =>
      if c == '\n' then c :: eraseFrom inWords .gap rest
      else eraseFrom inWords .comment rest

/-- A source without its comments. -/
def Source.erased (inWords : Bool) (source : Source) : Source where
  name := source.name
  input := ⟨eraseFrom inWords .gap source.input.unread, source.input.fault⟩

/-- A cursor at the same place of the text without comments. -/
def Cursor.erased (inWords : Bool) (cursor : Cursor) : Cursor :=
  { cursor with text := eraseFrom inWords .gap cursor.text }

section EraseFrom

variable {inWords : Bool} {content rest : List Char} {c : Char}

theorem eraseFrom_nil (place : Place) : eraseFrom inWords place [] = [] := by
  cases place <;> rfl

theorem eraseFrom_comment (oneLine : '\n' ∉ content) :
    eraseFrom inWords .comment (content ++ rest) = eraseFrom inWords .comment rest := by
  induction content with
  | nil => rfl
  | cons c content ih =>
      obtain ⟨other, oneLine⟩ := not_or.mp (List.mem_cons.not.mp oneLine)
      have skipped : (c == '\n') = false := beq_false_of_ne (Ne.symm other)
      rw [List.cons_append, eraseFrom, skipped, if_neg Bool.false_ne_true, ih oneLine]

theorem eraseFrom_literal (noQuote : '"' ∉ content) :
    eraseFrom inWords .literal (content ++ rest) =
      content ++ eraseFrom inWords .literal rest := by
  induction content with
  | nil => rfl
  | cons c content ih =>
      obtain ⟨other, noQuote⟩ := not_or.mp (List.mem_cons.not.mp noQuote)
      have kept : (c == '"') = false := beq_false_of_ne (Ne.symm other)
      rw [List.cons_append, eraseFrom, kept, if_neg Bool.false_ne_true, ih noQuote]
      rfl

theorem eraseFrom_word (noSeparators : ∀ c ∈ content, isSeparator c = false)
    (whole : inWords = true → ';' ∉ content) :
    eraseFrom inWords .word (content ++ rest) = content ++ eraseFrom inWords .word rest := by
  induction content with
  | nil => rfl
  | cons c content ih =>
      obtain ⟨noSeparator, noSeparators⟩ := List.forall_mem_cons.mp noSeparators
      have kept : (inWords && c == ';') = false := by
        cases inWords with
        | false => rfl
        | true => exact beq_false_of_ne fun same => whole rfl (same ▸ List.mem_cons_self)
      have rest := ih noSeparators fun isTrue mem => whole isTrue (List.mem_cons_of_mem c mem)
      rw [List.cons_append, eraseFrom, kept, if_neg Bool.false_ne_true, noSeparator,
        if_neg Bool.false_ne_true, rest]
      rfl

theorem eraseFrom_separator (separator : isSeparator c = true) :
    eraseFrom inWords .gap (c :: rest) = c :: eraseFrom inWords .gap rest ∧
      eraseFrom inWords .word (c :: rest) = c :: eraseFrom inWords .gap rest := by
  have other : (c == ';') = false := beq_false_of_ne fun same => by
    subst same
    cases separator
  constructor
  · rw [eraseFrom, other, if_neg Bool.false_ne_true, if_pos separator]
  · rw [eraseFrom, other, Bool.and_false, if_neg Bool.false_ne_true, if_pos separator]

/-- A comment leaves the line feed that ends it, or nothing. -/
theorem eraseFrom_comment_cases (inWords : Bool) (rest : List Char) :
    eraseFrom inWords .comment rest = [] ∨
      ∃ tail, eraseFrom inWords .comment rest = '\n' :: tail := by
  by_cases ends : '\n' ∈ rest
  · obtain ⟨content, tail, rfl, oneLine⟩ := List.eq_append_cons_of_mem ends
    exact .inr ⟨_, eraseFrom_comment oneLine⟩
  · left
    rw [← List.append_nil rest, eraseFrom_comment ends, eraseFrom_nil]

/-- Erasing makes a gap of a gap, with the same line feeds. -/
theorem IsGap.exists_kept {gap : List Char} (isGap : IsGap gap) (inWords : Bool) :
    ∃ kept, IsGap kept ∧ lineFeeds kept = lineFeeds gap ∧
      ∀ rest, eraseFrom inWords .gap (gap ++ rest) = kept ++ eraseFrom inWords .gap rest := by
  induction isGap with
  | nil => exact ⟨[], .nil, rfl, fun rest => rfl⟩
  | @separator c gap separator _ ih =>
      obtain ⟨kept, isKept, same, erased⟩ := ih
      refine ⟨c :: kept, .separator separator isKept, ?_, fun rest => ?_⟩
      · rw [← List.singleton_append, lineFeeds_append, same, ← lineFeeds_append]
        rfl
      · rw [List.cons_append, (eraseFrom_separator separator).1, erased]
        rfl
  | @comment content gap oneLine _ ih =>
      obtain ⟨kept, isKept, same, erased⟩ := ih
      refine ⟨'\n' :: kept, .separator rfl isKept, ?_, fun rest => ?_⟩
      · have none := lineFeeds_eq_zero (List.not_mem_cons_of_ne_of_not_mem
          (show '\n' ≠ ';' by decide) oneLine)
        have line (tail : List Char) : lineFeeds ('\n' :: tail) = lineFeeds tail + 1 :=
          List.count_cons_self
        rw [← List.cons_append, lineFeeds_append, none, line, line, same, Nat.zero_add]
      · have begin : eraseFrom inWords .gap (';' :: (content ++ '\n' :: gap) ++ rest) =
            eraseFrom inWords .comment (content ++ '\n' :: (gap ++ rest)) := by
          simp [eraseFrom]
        rw [begin, eraseFrom_comment oneLine, eraseFrom, if_pos (by rfl), erased]
        rfl

theorem IsEnding.eraseFrom_eq_nil (isEnding : IsEnding rest) :
    eraseFrom inWords .gap rest = [] := by
  rcases isEnding with rfl | ⟨content, rfl, oneLine⟩
  · rfl
  · rw [eraseFrom, if_pos (by rfl), ← List.append_nil content, eraseFrom_comment oneLine,
      eraseFrom_nil]

end EraseFrom

/-! ## Whole and severed words -/

/-- A written word that erasing leaves as it is. -/
def Item.Whole (inWords : Bool) : Item → Prop
  | .bare word => inWords = true → ';' ∉ word.toList
  | .quoted _ => True

section Words

variable {inWords : Bool} {word : String}

theorem ReadsBare.eraseFrom (readsBare : ReadsBare word)
    (whole : (Item.bare word).Whole inWords) (rest : List Char) :
    eraseFrom inWords .gap (word.toList ++ rest) =
      word.toList ++ StackMachine.eraseFrom inWords .word rest := by
  obtain ⟨first, content, chars, noSeparator, noComment, noQuote, noSeparators⟩ :=
    readsBare.exists_cons
  have isWord : StackMachine.eraseFrom inWords .gap (first :: (content ++ rest)) =
      first :: StackMachine.eraseFrom inWords .word (content ++ rest) := by
    simp [StackMachine.eraseFrom, noSeparator, noComment, noQuote]
  have isContent : inWords = true → ';' ∉ content := fun isTrue mem =>
    whole isTrue (chars ▸ List.mem_cons_of_mem first mem)
  rw [chars, List.cons_append, isWord, eraseFrom_word noSeparators isContent]
  rfl

/-- A bare word with a semicolon is cut before the semicolon. -/
theorem ReadsBare.exists_severed (readsBare : ReadsBare word) (semicolon : ';' ∈ word.toList) :
    ∃ kept, ReadsBare kept ∧ ';' ∉ kept.toList ∧
      ∀ rest, StackMachine.eraseFrom true .gap (word.toList ++ rest) =
        kept.toList ++ StackMachine.eraseFrom true .comment rest := by
  obtain ⟨content, dropped, chars, noSemicolon⟩ := List.eq_append_cons_of_mem semicolon
  obtain ⟨⟨-, noSeparators, noComment⟩, noQuote⟩ := readsBare
  rw [chars] at noSeparators noComment noQuote
  have isKept : ReadsBare (String.ofList content) := by
    cases content with
    | nil => exact absurd rfl noComment
    | cons first content =>
        rw [ReadsBare, IsBare, String.toList_ofList]
        exact ⟨⟨List.cons_ne_nil _ _, fun c mem => noSeparators c (List.mem_append_left _ mem),
          noComment⟩, noQuote⟩
  have oneLine : '\n' ∉ dropped := fun mem =>
    ne_lineFeed_of_not_separator
      (noSeparators '\n' (List.mem_append_right _ (List.mem_cons_of_mem _ mem))) rfl
  refine ⟨String.ofList content, isKept, by rwa [String.toList_ofList], fun rest => ?_⟩
  have whole : (Item.bare (String.ofList content)).Whole true := fun _ => by
    rwa [String.toList_ofList]
  have erased := isKept.eraseFrom whole (';' :: (dropped ++ rest))
  rw [String.toList_ofList] at erased ⊢
  rw [chars, List.append_assoc, List.cons_append, erased, StackMachine.eraseFrom, if_pos (by rfl),
    eraseFrom_comment oneLine]

/-- What is erased behind a whole word. -/
theorem Item.Readable.eraseFrom {item : Item} {fault : Option ReadFault} {behind : List Char}
    (readable : item.Readable) (ends : item.Ends fault behind) (whole : item.Whole inWords) :
    ∃ left, eraseFrom inWords .gap (item.chars ++ behind) = item.chars ++ left ∧
      item.Ends fault left ∧ item.taken left = item.taken behind ∧
      item.left left = StackMachine.eraseFrom inWords .gap (item.left behind) := by
  cases item with
  | quoted content =>
      refine ⟨StackMachine.eraseFrom inWords .gap behind, ?_, trivial, rfl, rfl⟩
      have literal : StackMachine.eraseFrom inWords .gap ((Item.quoted content).chars ++ behind) =
          '"' :: StackMachine.eraseFrom inWords .literal (content.toList ++ '"' :: behind) := by
        simp [Item.chars, StackMachine.eraseFrom, isSeparator]
      rw [literal, eraseFrom_literal readable, StackMachine.eraseFrom, if_pos (by rfl)]
      simp [Item.chars]
  | bare content =>
      refine ⟨StackMachine.eraseFrom inWords .word behind, ReadsBare.eraseFrom readable whole _, ?_⟩
      cases behind with
      | nil => exact ⟨ends, rfl, rfl⟩
      | cons c behind =>
          rw [(eraseFrom_separator ends).2]
          exact ⟨ends, rfl, rfl⟩

end Words

namespace Source

variable {source : Source} {cursor after : Cursor} {inWords : Bool}

/-- The word ahead, if there is one, is whole. -/
def WholeAt (source : Source) (inWords : Bool) (cursor : Cursor) : Prop :=
  ∀ (gap : List Char) (item : Item) (behind : List Char),
    cursor.text = gap ++ (item.chars ++ behind) → IsGap gap → item.Readable →
    item.Ends source.input.fault behind → item.Whole inWords

end Source

namespace Scan

variable {source : Source} {cursor after : Cursor} {inWords : Bool} {text : String}

/-- A whole word is read from the erased text as it was before. -/
theorem word_erased (isWord : word source cursor = .ok (text, after))
    (whole : source.WholeAt inWords cursor) :
    word (source.erased inWords) (cursor.erased inWords) = .ok (text, after.erased inWords) := by
  obtain ⟨gap, item, behind, isText, isGap, readable, ends, rfl, rfl⟩ := word_eq_ok_iff.mp isWord
  obtain ⟨kept, isKept, sameRow, erasedGap⟩ := isGap.exists_kept inWords
  obtain ⟨left, erasedItem, endsLeft, isTaken, isLeft⟩ :=
    readable.eraseFrom ends (whole gap item behind isText isGap readable ends)
  have isErased : (cursor.erased inWords).text = kept ++ (item.chars ++ left) := by
    rw [Cursor.erased, isText, erasedGap, erasedItem]
  have endsErased : item.Ends (source.erased inWords).input.fault left := endsLeft
  have isAfter : (cursor.erased inWords).past kept item left =
      (cursor.past gap item behind).erased inWords := by
    simp only [Cursor.past, Cursor.erased, lineFeeds_append, isTaken, isLeft, sameRow]
  rw [word_written isKept readable endsErased isErased, isAfter]

/-- Where no word can be read, the reason stays the same. -/
theorem word_erased_of_error {stop : Option ScanError}
    (stopped : word source cursor = .error stop) :
    word (source.erased inWords) (cursor.erased inWords) = .error stop := by
  have ahead := ahead_of_text source.input.fault cursor.text
  generalize isText : cursor.text = chars at ahead
  cases ahead with
  | @ending gap rest isGap isEnding =>
      rw [word_ending isGap isEnding isText] at stopped
      obtain ⟨kept, isKept, -, erasedGap⟩ := isGap.exists_kept inWords
      have isErased : (cursor.erased inWords).text = kept ++ [] := by
        rw [Cursor.erased, isText, erasedGap, isEnding.eraseFrom_eq_nil]
      rw [word_ending isKept (.inl rfl) isErased, ← stopped]
      rfl
  | @openLiteral gap content isGap noQuote =>
      rw [word_openLiteral isGap noQuote isText] at stopped
      obtain ⟨kept, isKept, sameRow, erasedGap⟩ := isGap.exists_kept inWords
      have literal : eraseFrom inWords .gap ('"' :: content) = '"' :: content := by
        have erased := @eraseFrom_literal inWords content [] noQuote
        rw [eraseFrom_nil, List.append_nil] at erased
        simp [eraseFrom, isSeparator, erased]
      have isErased : (cursor.erased inWords).text = kept ++ '"' :: content := by
        rw [Cursor.erased, isText, erasedGap, literal]
      rw [word_openLiteral isKept noQuote isErased, ← stopped, sameRow]
      rfl
  | @word gap behind item isGap readable ends =>
      rw [word_written isGap readable ends isText] at stopped
      cases stopped
  | @cutShort gap content fault isGap readsBare failing =>
      rw [word_cutShort isGap readsBare failing isText] at stopped
      obtain ⟨kept, isKept, -, erasedGap⟩ := isGap.exists_kept inWords
      -- Also a severed word ends at the fault.
      have erasedWord : ∃ shorter, ReadsBare shorter ∧
          eraseFrom inWords .gap content.toList = shorter.toList := by
        by_cases whole : (Item.bare content).Whole inWords
        · have erased := readsBare.eraseFrom whole []
          rw [eraseFrom_nil, List.append_nil] at erased
          exact ⟨content, readsBare, erased⟩
        · obtain ⟨isTrue, semicolon⟩ := Classical.not_imp.mp whole
          subst isTrue
          obtain ⟨shorter, isShorter, -, erased⟩ :=
            readsBare.exists_severed (Classical.not_not.mp semicolon)
          have erased := erased []
          rw [eraseFrom_nil, List.append_nil, List.append_nil] at erased
          exact ⟨shorter, isShorter, erased⟩
      obtain ⟨shorter, isShorter, erasedWord⟩ := erasedWord
      have isErased : (cursor.erased inWords).text = kept ++ shorter.toList := by
        rw [Cursor.erased, isText, erasedGap, erasedWord]
      have failingErased : (source.erased inWords).input.fault = some fault := failing
      rw [word_cutShort isKept isShorter failingErased isErased, stopped]

/-- What is read of a severed word has no semicolon. -/
theorem not_mem_of_severed {gap behind : List Char} {severed : String}
    (isText : cursor.text = gap ++ ((Item.bare severed).chars ++ behind)) (isGap : IsGap gap)
    (readable : (Item.bare severed).Readable) (semicolon : ';' ∈ severed.toList)
    (isWord : word (source.erased true) (cursor.erased true) = .ok (text, after)) :
    ';' ∉ text.toList := by
  obtain ⟨kept, isKept, -, erasedGap⟩ := isGap.exists_kept true
  obtain ⟨shorter, isShorter, noSemicolon, erasedWord⟩ :=
    ReadsBare.exists_severed readable semicolon
  have isErased : (cursor.erased true).text =
      kept ++ ((Item.bare shorter).chars ++ eraseFrom true .comment behind) := by
    rw [Cursor.erased, isText, erasedGap, Item.chars, erasedWord]
    rfl
  have isRead : (Item.bare shorter).Readable := isShorter
  have isShort (ends : (Item.bare shorter).Ends (source.erased true).input.fault
      (eraseFrom true .comment behind)) : ';' ∉ text.toList := by
    rw [word_written isKept isRead ends isErased] at isWord
    cases isWord
    exact noSemicolon
  rcases eraseFrom_comment_cases true behind with ended | ⟨tail, isLine⟩
  · cases failing : source.input.fault with
    | none => exact isShort (by rw [ended]; exact failing)
    | some fault =>
        have failingErased : (source.erased true).input.fault = some fault := failing
        rw [ended, List.append_nil, Item.chars] at isErased
        rw [word_cutShort isKept isShorter failingErased isErased] at isWord
        cases isWord
  · exact isShort (by rw [isLine]; rfl)

end Scan

/-! ## Scanning without comments -/

/-- Words that begin an instruction and do not complete it. -/
def Unfinished : List String → Prop
  | [] => True
  | keyword :: operands => ∃ opcode, Opcode.ofKeyword? keyword = some opcode ∧ opcode.Wants operands

namespace Source

variable {source : Source} {cursor after last : Cursor} {inWords : Bool}

/-- The words that are looked at in scanning one instruction are whole. -/
def WholeHere (source : Source) (inWords : Bool) (cursor : Cursor) : Prop :=
  ∀ words last, source.Words cursor words last → Unfinished words → source.WholeAt inWords last

/-- Words that are looked at one after the other are read as before if they are whole. -/
theorem Words.erased {words : List String} (read : source.Words cursor words after)
    (whole : ∀ front back last, words = front ++ back → back ≠ [] →
      source.Words cursor front last → source.WholeAt inWords last) :
    (source.erased inWords).Words (cursor.erased inWords) words (after.erased inWords) := by
  induction read with
  | nil cursor => exact .nil _
  | @cons cursor between after text texts isWord read ih =>
      refine .cons (Scan.word_erased isWord ?_) (ih fun front back last split nonempty read => ?_)
      · exact whole [] (text :: texts) cursor rfl (List.cons_ne_nil _ _) (.nil cursor)
      · exact whole (text :: front) back last (congrArg (text :: ·) split) nonempty
          (.cons isWord read)

section Operands

variable {keyword : String} {opcode : Opcode} {operands : List String}
  (whole : source.WholeHere inWords cursor)
  (isKeyword : Scan.word source cursor = .ok (keyword, after))
  (isOpcode : Opcode.ofKeyword? keyword = some opcode)

include whole isKeyword in
theorem WholeHere.word_erased :
    Scan.word (source.erased inWords) (cursor.erased inWords) =
      .ok (keyword, after.erased inWords) :=
  Scan.word_erased isKeyword (whole [] cursor (.nil cursor) trivial)

include whole isKeyword isOpcode in
/-- Operands that are needed one after the other are read as before. -/
theorem WholeHere.words_erased (read : source.Words after operands last)
    (wanted : ∀ front back, operands = front ++ back → back ≠ [] → opcode.Wants front) :
    (source.erased inWords).Words (after.erased inWords) operands (last.erased inWords) :=
  read.erased fun front back last split nonempty read =>
    whole (keyword :: front) last (.cons isKeyword read)
      ⟨opcode, isOpcode, wanted front back split nonempty⟩

include whole isKeyword isOpcode in
/-- Operands that are needed, and the word behind them, are read as before. -/
theorem WholeHere.words_erased_of_wants {texts : List String}
    (read : source.Words after (operands ++ texts) last) (wants : opcode.Wants operands)
    (few : texts.length ≤ 1) :
    (source.erased inWords).Words (after.erased inWords) (operands ++ texts)
      (last.erased inWords) := by
  refine whole.words_erased isKeyword isOpcode read fun front back split nonempty => ?_
  -- A part of the words that is not all of them stops short of the last word.
  have shorter : front <+: operands := by
    refine List.prefix_of_prefix_length_le ⟨back, split.symm⟩ ⟨texts, rfl⟩ ?_
    have length := congrArg List.length split
    have further := List.length_pos_iff.mpr nonempty
    rw [List.length_append, List.length_append] at length
    omega
  obtain ⟨more, rfl⟩ := shorter
  exact wants.of_append

end Operands

end Source

namespace Scan

variable {source : Source} {cursor after : Cursor} {inWords : Bool}

theorem instruction_erased {found : Instruction} (whole : source.WholeHere inWords cursor)
    (scanned : instruction source cursor = .ok (found, after)) :
    instruction (source.erased inWords) (cursor.erased inWords) =
      .ok (found, after.erased inWords) := by
  obtain ⟨keyword, opcode, between, operands, isKeyword, isOpcode, read, made, isRow⟩ :=
    instruction_eq_ok_iff.mp scanned
  have readErased := whole.words_erased isKeyword isOpcode read fun front back split nonempty =>
    ⟨back, found.token, nonempty, split ▸ made⟩
  exact instruction_eq_ok_iff.mpr ⟨keyword, opcode, between.erased inWords, operands,
    whole.word_erased isKeyword, isOpcode, readErased, made, isRow⟩

theorem operand_erased {keyword : String} {stop : Option ScanError}
    (stopped : operand source keyword cursor = .error stop) :
    operand (source.erased inWords) keyword (cursor.erased inWords) = .error stop := by
  rw [operand_eq_error_iff] at stopped ⊢
  rcases stopped with ⟨ended, isStop⟩ | ⟨error, stopped, isStop⟩
  · exact .inl ⟨word_erased_of_error ended, isStop⟩
  · exact .inr ⟨error, word_erased_of_error stopped, isStop⟩

theorem instruction_erased_of_error {stop : Option ScanError}
    (whole : source.WholeHere inWords cursor)
    (stopped : instruction source cursor = .error stop) :
    instruction (source.erased inWords) (cursor.erased inWords) = .error stop := by
  rw [instruction_eq_error_iff] at stopped ⊢
  cases stopped with
  | keyword stopped => exact .keyword (word_erased_of_error stopped)
  | @unknown text after isWord isUnknown =>
      exact @Source.Halts.unknown _ _ text (after.erased inWords) (whole.word_erased isWord)
        isUnknown
  | operand isKeyword isOpcode lacks =>
      obtain ⟨operands, last, read, wants, stopped⟩ := lacks
      rw [← List.append_nil operands] at read
      have readErased := whole.words_erased_of_wants isKeyword isOpcode read wants (Nat.zero_le 1)
      rw [List.append_nil] at readErased
      exact .operand (whole.word_erased isKeyword) isOpcode
        ⟨operands, _, readErased, wants, operand_erased stopped⟩
  | number isKeyword isOpcode rejects =>
      obtain ⟨operands, text, fault, last, read, refuses, isStop⟩ := rejects
      have readErased := whole.words_erased_of_wants isKeyword isOpcode read refuses.wants le_rfl
      exact .number (whole.word_erased isKeyword) isOpcode
        ⟨operands, text, fault, _, readErased, refuses, isStop⟩
  | oversized oversized =>
      obtain ⟨name, digits, last, count, read, isCount, large⟩ := oversized
      obtain ⟨between, isKeyword, read⟩ := Source.words_cons_iff.mp read
      have wants : Opcode.Wants .defun [name] :=
        Opcode.wants_defun_iff.mpr (.inr (.inl ⟨name, rfl⟩))
      have readErased := whole.words_erased_of_wants isKeyword ofKeyword?_defun read wants le_rfl
      exact .oversized
        ⟨name, digits, _, count, .cons (whole.word_erased isKeyword) readErased, isCount, large⟩

end Scan

/-- The words that are looked at in scanning instruction after instruction are whole. -/
def Source.WholeFrom (source : Source) (inWords : Bool) (cursor : Cursor) : Prop :=
  ∀ instructions last, source.Scans cursor instructions last → source.WholeHere inWords last

/-- A stream is the same without comments if all words that are looked at are whole. -/
theorem Tokenizer.streamFrom_erased {source : Source} {inWords : Bool} (cursor : Cursor)
    (whole : source.WholeFrom inWords cursor) :
    streamFrom (source.erased inWords) (cursor.erased inWords) = streamFrom source cursor := by
  fun_induction streamFrom source cursor with
  | case1 cursor found after scanned rest ih =>
      have scannedErased := Scan.instruction_erased (whole [] cursor (.nil cursor)) scanned
      rw [streamFrom_of_ok scannedErased,
        ih fun instructions last scans => whole (found :: instructions) last (.cons scanned scans)]
  | case2 cursor stop scanned =>
      exact streamFrom_of_error
        (Scan.instruction_erased_of_error (whole [] cursor (.nil cursor)) scanned)

end StackMachine
