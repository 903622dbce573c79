import Mathlib
import StackMachine.Proofs.Number.Decimal
import StackMachine.Proofs.Source.Spelling
import StackMachine.Proofs.Text.Utf8

/-!
# Reading printed words

The text of a token shows each operand as a bare word, a text literal in quotes.  An operand that
can be written that way is read back (`Item.words_of_readable`), and no other operand is
(`Item.readable_of_words`).

The second statement has to exclude that a name which cannot be written bare is read back by
chance, from a literal further on: scanning never meets a quote there, whether or not the name
starts a comment (`NoQuoteAhead`).
-/

namespace StackMachine

/-! ## Bare words -/

/-- A word that can be written without quotes. -/
def IsBare (word : String) : Prop :=
  word.toList ≠ [] ∧ (∀ c ∈ word.toList, isSeparator c = false) ∧ word.toList.head? ≠ some ';'

instance : DecidablePred IsBare := fun _ => inferInstanceAs (Decidable (_ ∧ _ ∧ _))

/-- A word that reads as itself where it is written without quotes. -/
def ReadsBare (word : String) : Prop :=
  IsBare word ∧ word.toList.head? ≠ some '"'

instance : DecidablePred ReadsBare := fun _ => inferInstanceAs (Decidable (_ ∧ _))

theorem ReadsBare.exists_cons {word : String} (readsBare : ReadsBare word) :
    ∃ first rest, word.toList = first :: rest ∧ isSeparator first = false ∧ first ≠ ';' ∧
      first ≠ '"' ∧ ∀ c ∈ rest, isSeparator c = false := by
  obtain ⟨⟨nonempty, noSeparator, noComment⟩, noQuote⟩ := readsBare
  cases chars : word.toList with
  | nil => exact absurd chars nonempty
  | cons first rest =>
      rw [chars] at noSeparator noComment noQuote
      obtain ⟨isFirst, isRest⟩ := List.forall_mem_cons.mp noSeparator
      exact ⟨first, rest, rfl, isFirst, fun same => noComment (congrArg some same),
        fun same => noQuote (congrArg some same), isRest⟩

/-- The words that a source can give: literals have no quote, others read bare. -/
def IsWord (word : String) : Prop :=
  '"' ∉ word.toList ∨ ReadsBare word

theorem IsWord.readsBare_iff {word : String} (isWord : IsWord word) :
    ReadsBare word ↔ IsBare word := by
  constructor
  · exact And.left
  · intro isBare
    rcases isWord with noQuote | readsBare
    · exact ⟨isBare, fun quote => noQuote (List.mem_of_mem_head? quote)⟩
    · exact readsBare

/-! ## Gaps -/

theorem isSeparator_lineFeed : isSeparator '\n' = true := rfl

theorem ne_lineFeed_of_not_separator {c : Char} (other : isSeparator c = false) : c ≠ '\n' := by
  rintro rfl
  cases other

/-- Rows have no influence on where a gap ends. -/
theorem skipGap_row (comment : Bool) (row other : Nat) (text : List Char) :
    (skipGap comment row text).2 = (skipGap comment other text).2 := by
  induction text generalizing comment row other with
  | nil => rfl
  | cons c rest ih =>
      simp only [skipGap]
      split
      · exact ih _ _ _
      · split
        · exact ih _ _ _
        · split
          · exact ih _ _ _
          · rfl

theorem skipGap_separator {separator : Char} (isSeparator : isSeparator separator = true)
    (row : Nat) (text : List Char) :
    (skipGap false row (separator :: text)).2 = (skipGap false row text).2 := by
  rw [skipGap]
  split
  · exact skipGap_row _ _ _ _
  · rw [isSeparator]
    rfl

/-- A gap ends where a word begins. -/
theorem skipGap_word {first : Char} (noSeparator : isSeparator first = false)
    (noComment : first ≠ ';') (row : Nat) (text : List Char) :
    skipGap false row (first :: text) = (row, first :: text) := by
  have noLineFeed := ne_lineFeed_of_not_separator noSeparator
  simp [skipGap, noSeparator, noComment, noLineFeed]

/-- What ends a gap begins a word. -/
theorem first_of_skipGap {comment : Bool} {row : Nat} {text rest : List Char} {first : Char}
    (gap : (skipGap comment row text).2 = first :: rest) :
    isSeparator first = false ∧ first ≠ ';' := by
  induction text generalizing comment row with
  | nil => cases gap
  | cons c text ih =>
      rw [skipGap] at gap
      split at gap
      · exact ih gap
      · split at gap
        · exact ih gap
        · next inWord =>
            split at gap
            · exact ih gap
            · next noComment =>
                cases gap
                simp only [Bool.or_eq_true, not_or, Bool.not_eq_true] at inWord
                exact ⟨inWord.2, by simpa using noComment⟩

/-- A comment goes on to the end of its line. -/
theorem skipGap_comment {front : List Char} (oneLine : ∀ c ∈ front, c ≠ '\n') (row : Nat)
    (text : List Char) : skipGap true row (front ++ text) = skipGap true row text := by
  induction front with
  | nil => rfl
  | cons c front ih =>
      obtain ⟨notEnd, oneLine⟩ := List.forall_mem_cons.mp oneLine
      rw [List.cons_append, skipGap, if_neg (by simpa using notEnd), Bool.true_or, if_pos rfl]
      exact ih oneLine

/-- A cursor before a text whose first separator may have been taken already. -/
def Cursor.At (text : List Char) (cursor : Cursor) : Prop :=
  cursor.text = text ∨ ∃ separator, isSeparator separator = true ∧ text = separator :: cursor.text

theorem Cursor.At.skipGap {text : List Char} {cursor : Cursor} (before : cursor.At text) :
    (skipGap false cursor.row cursor.text).2 = (skipGap false 0 text).2 := by
  rw [skipGap_row false cursor.row 0]
  rcases before with same | ⟨separator, isSeparator, rfl⟩
  · rw [same]
  · rw [skipGap_separator isSeparator]

/-! ## One word -/

/-- A text that goes on with a separator, if at all. -/
def Delimited (text : List Char) : Prop :=
  ∀ c, text.head? = some c → isSeparator c = true

namespace Scan

variable {source : Source} {cursor after : Cursor}

/-- A bare word is read up to the separator behind it. -/
theorem word_bare {first : Char} {content rest : List Char}
    (gap : (skipGap false cursor.row cursor.text).2 = first :: (content ++ rest))
    (noQuote : first ≠ '"') (noSeparator : ∀ c ∈ content, isSeparator c = false)
    (delimited : Delimited rest) (readable : source.input.fault = none) :
    ∃ after, word source cursor = .ok (String.ofList (first :: content), after) ∧
      after.At rest := by
  have all : ∀ c ∈ content, (!isSeparator c) = true := fun c mem => by rw [noSeparator c mem]; rfl
  obtain ⟨row, text⟩ : ∃ row, skipGap false cursor.row cursor.text =
      (row, first :: (content ++ rest)) := ⟨_, Prod.ext rfl gap⟩
  have bare : (first == '"') = false := by simpa using noQuote
  unfold word Cursor.nextWord
  rw [text, readable]
  simp only [bare, Bool.false_eq_true, if_false, Cursor.bareWord]
  cases rest with
  | nil =>
      rw [List.append_nil, List.takeWhile_eq_self_iff.mpr all, List.dropWhile_eq_nil_iff.mpr all]
      exact ⟨_, rfl, .inl rfl⟩
  | cons separator rest =>
      have isSeparator : isSeparator separator = true := delimited separator rfl
      have stops : (!StackMachine.isSeparator separator) = false := by rw [isSeparator]; rfl
      rw [List.takeWhile_append_of_pos all, List.dropWhile_append_of_pos all,
        List.takeWhile_cons_of_neg (by simp [isSeparator]),
        List.dropWhile_cons_of_neg (by simp [isSeparator]), List.append_nil]
      exact ⟨_, rfl, .inr ⟨separator, isSeparator, rfl⟩⟩

/-- A literal is read up to its closing quote. -/
theorem word_literal {content rest : List Char}
    (gap : (skipGap false cursor.row cursor.text).2 = '"' :: (content ++ '"' :: rest))
    (noQuote : '"' ∉ content) :
    ∃ after, word source cursor = .ok (String.ofList content, after) ∧ after.text = rest := by
  have all : ∀ c ∈ content, (c != '"') = true := by
    intro c mem
    rw [bne_iff_ne]
    rintro rfl
    exact noQuote mem
  obtain ⟨row, text⟩ : ∃ row, skipGap false cursor.row cursor.text =
      (row, '"' :: (content ++ '"' :: rest)) := ⟨_, Prod.ext rfl gap⟩
  unfold word Cursor.nextWord
  rw [text]
  simp only [beq_self_eq_true, if_true, Cursor.literal]
  rw [List.takeWhile_append_of_pos all, List.dropWhile_append_of_pos all,
    List.takeWhile_cons_of_neg (by simp), List.dropWhile_cons_of_neg (by simp), List.append_nil]
  exact ⟨_, rfl, rfl⟩

/-- A word comes from a literal, and then has no quote, or it reads bare. -/
theorem word_eq_ok {text : String} (read : word source cursor = .ok (text, after)) :
    (skipGap false cursor.row cursor.text).2.head? = some '"' ∧ '"' ∉ text.toList ∨
      ReadsBare text := by
  unfold word Cursor.nextWord at read
  generalize gap : skipGap false cursor.row cursor.text = result at read ⊢
  obtain ⟨row, _ | ⟨first, rest⟩⟩ := result
  · cases fault : source.input.fault <;> rw [fault] at read <;> cases read
  · have isFirst := first_of_skipGap (congrArg Prod.snd gap)
    by_cases quote : first = '"'
    · left
      subst quote
      refine ⟨rfl, ?_⟩
      simp only [beq_self_eq_true, if_true, Cursor.literal] at read
      split at read
      · next literal =>
          split at literal <;> cases literal
          cases read
          rw [String.toList_ofList]
          intro mem
          simpa using List.mem_takeWhile_imp mem
      all_goals cases read
    · right
      have bare : (first == '"') = false := by simpa using quote
      simp only [bare, Bool.false_eq_true, if_false, Cursor.bareWord] at read
      have readsBare : ReadsBare
          (String.ofList (first :: rest.takeWhile fun c => !isSeparator c)) := by
        refine ⟨⟨?_, ?_, ?_⟩, ?_⟩ <;> rw [String.toList_ofList]
        · exact List.cons_ne_nil _ _
        · refine List.forall_mem_cons.mpr ⟨isFirst.1, fun c mem => ?_⟩
          simpa using List.mem_takeWhile_imp mem
        · exact fun same => isFirst.2 (Option.some.inj same)
        · exact fun same => quote (Option.some.inj same)
      split at read
      · next bareWord =>
          split at bareWord <;> cases bareWord <;> cases read <;> exact readsBare
      all_goals cases read

theorem isWord_of_word {text : String} (read : word source cursor = .ok (text, after)) :
    IsWord text := by
  rcases word_eq_ok read with ⟨-, noQuote⟩ | readsBare
  · exact .inl noQuote
  · exact .inr readsBare

end Scan

/-! ## Texts without a literal ahead -/

/-- The next word of a text is no literal, whether or not the text begins in a comment. -/
def NoQuoteAhead (text : List Char) : Prop :=
  ∀ comment row, (skipGap comment row text).2.head? ≠ some '"'

theorem noQuoteAhead_nil : NoQuoteAhead [] :=
  fun _ _ => nofun

theorem NoQuoteAhead.append_literal {front text : List Char} (noQuote : '"' ∉ front)
    (ahead : NoQuoteAhead text) : NoQuoteAhead (front ++ text) := by
  induction front with
  | nil => exact ahead
  | cons c front ih =>
      rw [List.mem_cons, not_or] at noQuote
      obtain ⟨other, noQuote⟩ := noQuote
      intro comment row
      rw [List.cons_append, skipGap]
      split
      · exact ih noQuote _ _
      · split
        · exact ih noQuote _ _
        · split
          · exact ih noQuote _ _
          · exact fun same => other (Option.some.inj same).symm

theorem NoQuoteAhead.append_bare {word : String} {text : List Char} (readsBare : ReadsBare word)
    (ahead : NoQuoteAhead text) : NoQuoteAhead (word.toList ++ text) := by
  intro comment row
  obtain ⟨first, rest, chars, noSeparator, noComment, noQuote, -⟩ := readsBare.exists_cons
  cases comment with
  | false =>
      rw [chars, List.cons_append, skipGap_word noSeparator noComment]
      exact fun same => noQuote (Option.some.inj same)
  | true =>
      have oneLine : ∀ c ∈ word.toList, c ≠ '\n' :=
        fun c mem => ne_lineFeed_of_not_separator (readsBare.1.2.1 c mem)
      rw [skipGap_comment oneLine]
      exact ahead true row

theorem NoQuoteAhead.append_word {word : String} {text : List Char} (isWord : IsWord word)
    (ahead : NoQuoteAhead text) : NoQuoteAhead (word.toList ++ text) := by
  rcases isWord with noQuote | readsBare
  · exact ahead.append_literal noQuote
  · exact ahead.append_bare readsBare

/-- On a line of its own, a word that reads bare is always the next one. -/
theorem noQuoteAhead_line {word : String} (readsBare : ReadsBare word) (text : List Char) :
    NoQuoteAhead ('\n' :: (word.toList ++ text)) := by
  intro comment row
  obtain ⟨first, rest, chars, noSeparator, noComment, noQuote, -⟩ := readsBare.exists_cons
  rw [skipGap, if_pos (by rfl), chars, List.cons_append, skipGap_word noSeparator noComment]
  exact fun same => noQuote (Option.some.inj same)

/-! ## Printed operands -/

/-- An operand as it is printed. -/
inductive Item where
  | bare (word : String)
  | quoted (word : String)

namespace Item

def word : Item → String
  | .bare word => word
  | .quoted word => word

def chars : Item → List Char
  | .bare word => word.toList
  | .quoted word => '"' :: (word.toList ++ ['"'])

/-- The operand reads as itself. -/
def Readable : Item → Prop
  | .bare word => ReadsBare word
  | .quoted word => '"' ∉ word.toList

/-- Operands behind a keyword, each with a space before it. -/
def line (items : List Item) : List Char :=
  items.flatMap fun item => ' ' :: item.chars

theorem line_cons (item : Item) (items : List Item) (tail : List Char) :
    line (item :: items) ++ tail = ' ' :: (item.chars ++ (line items ++ tail)) := by
  simp [line]

theorem delimited_line {items : List Item} {tail : List Char} (delimited : Delimited tail) :
    Delimited (line items ++ tail) := by
  cases items with
  | nil => exact delimited
  | cons item items =>
      rw [line_cons]
      intro c same
      cases same
      rfl

/-- An operand that cannot be read as itself is not read from what comes later either. -/
def Guarded (tail : List Char) : List Item → Prop
  | [] => True
  | item :: items =>
      (∀ word, item = .bare word →
        ReadsBare word ∨ '"' ∉ word.toList ∧ NoQuoteAhead (line items ++ tail)) ∧
      Guarded tail items

/-- Bare words of a source are guarded by each other. -/
theorem guarded_of_words {words : List String} {tail : List Char}
    (areWords : ∀ word ∈ words, IsWord word) (ahead : NoQuoteAhead tail) :
    Guarded tail (words.map .bare) ∧ NoQuoteAhead (line (words.map .bare) ++ tail) := by
  induction words with
  | nil => exact ⟨trivial, ahead⟩
  | cons word words ih =>
      obtain ⟨isWord, areWords⟩ := List.forall_mem_cons.mp areWords
      obtain ⟨guarded, later⟩ := ih areWords
      refine ⟨⟨?_, guarded⟩, ?_⟩
      · rintro _ ⟨⟩
        rcases isWord with noQuote | readsBare
        · exact .inr ⟨noQuote, later⟩
        · exact .inl readsBare
      · rw [List.map_cons, line_cons]
        have space : '"' ∉ [' '] := by decide
        exact (later.append_word isWord).append_literal space

variable {source : Source} {cursor : Cursor}

/-- A readable operand is read. -/
theorem word_of_readable {item : Item} {separator : Char} {tail : List Char}
    (before : cursor.At (separator :: (item.chars ++ tail)))
    (isSeparator : isSeparator separator = true) (readable : item.Readable)
    (delimited : Delimited tail) (noFault : source.input.fault = none) :
    ∃ after, Scan.word source cursor = .ok (item.word, after) ∧ after.At tail := by
  have gap := before.skipGap
  rw [skipGap_separator isSeparator] at gap
  cases item with
  | bare word =>
      obtain ⟨first, rest, chars, noSeparator, noComment, noQuote, noSeparators⟩ :=
        ReadsBare.exists_cons readable
      rw [Item.chars, chars, List.cons_append, skipGap_word noSeparator noComment] at gap
      obtain ⟨after, read, behind⟩ :=
        Scan.word_bare gap noQuote noSeparators delimited noFault
      rw [← chars, String.ofList_toList] at read
      exact ⟨after, read, behind⟩
  | quoted word =>
      rw [Item.chars, List.cons_append, List.append_assoc,
        skipGap_word (by rfl) (by decide)] at gap
      obtain ⟨after, read, behind⟩ :
          ∃ after, Scan.word source cursor = .ok (String.ofList word.toList, after) ∧
            after.text = tail := Scan.word_literal gap readable
      rw [String.ofList_toList] at read
      exact ⟨after, read, .inl behind⟩

/-- A guarded operand is read as itself only if it is readable. -/
theorem readable_of_word {item : Item} {items : List Item} {tail : List Char} {after : Cursor}
    (before : cursor.At (line (item :: items) ++ tail)) (guarded : Guarded tail (item :: items))
    (read : Scan.word source cursor = .ok (item.word, after)) : item.Readable := by
  have gap := before.skipGap
  rw [line_cons, skipGap_separator (by rfl)] at gap
  cases item with
  | bare word =>
      rcases guarded.1 word rfl with readsBare | ⟨noQuote, ahead⟩
      · exact readsBare
      · rcases Scan.word_eq_ok read with ⟨quote, -⟩ | readsBare
        · rw [gap] at quote
          exact absurd quote (ahead.append_literal noQuote false 0)
        · exact readsBare
  | quoted word =>
      intro quote
      -- The literal ends at the first quote inside it.
      obtain ⟨content, rest, chars, noQuote⟩ := List.eq_append_cons_of_mem quote
      rw [Item.chars, chars, List.cons_append, skipGap_word (by rfl) (by decide)] at gap
      simp only [List.append_assoc, List.cons_append] at gap
      obtain ⟨_, shorter, -⟩ :
          ∃ after, Scan.word source cursor = .ok (String.ofList content, after) ∧
            after.text = rest ++ ([] ++ '"' :: (line items ++ tail)) :=
        Scan.word_literal gap noQuote
      rw [read, Except.ok.injEq, Prod.mk.injEq] at shorter
      have same : word.toList = content := by
        rw [show word = String.ofList content from shorter.1, String.toList_ofList]
      rw [same] at chars
      simpa using congrArg List.length chars

/-- Readable operands are read one after the other. -/
theorem words_of_readable {items : List Item} {tail : List Char}
    (before : cursor.At (line items ++ tail)) (readable : ∀ item ∈ items, item.Readable)
    (delimited : Delimited tail) (noFault : source.input.fault = none) :
    ∃ after, source.Words cursor (items.map word) after ∧ after.At tail := by
  induction items generalizing cursor with
  | nil => exact ⟨cursor, .nil cursor, before⟩
  | cons item items ih =>
      obtain ⟨isReadable, readable⟩ := List.forall_mem_cons.mp readable
      rw [line_cons] at before
      obtain ⟨between, read, behind⟩ :=
        word_of_readable before (by rfl) isReadable (delimited_line delimited) noFault
      obtain ⟨after, words, last⟩ := ih behind readable
      exact ⟨after, .cons read words, last⟩

/-- Where each operand is readable or comes back as it was, all of them are readable. -/
theorem readable_of_words {items : List Item} {words : List String} {tail : List Char}
    {after : Cursor} (before : cursor.At (line items ++ tail)) (delimited : Delimited tail)
    (noFault : source.input.fault = none) (guarded : Guarded tail items)
    (read : source.Words cursor words after)
    (back : List.Forall₂ (fun item word => item.Readable ∨ word = item.word) items words) :
    (∀ item ∈ items, item.Readable) ∧ after.At tail := by
  induction back generalizing cursor with
  | nil =>
      obtain rfl := Source.words_nil_iff.mp read
      exact ⟨List.forall_mem_nil _, before⟩
  | @cons item word items words isBack back ih =>
      obtain ⟨between, isWord, read⟩ := Source.words_cons_iff.mp read
      have readable : item.Readable := by
        rcases isBack with readable | rfl
        · exact readable
        · exact readable_of_word before guarded isWord
      rw [line_cons] at before
      obtain ⟨_, again, behind⟩ :=
        word_of_readable before (by rfl) readable (delimited_line delimited) noFault
      rw [isWord, Except.ok.injEq, Prod.mk.injEq] at again
      obtain ⟨-, rfl⟩ := again
      obtain ⟨later, last⟩ := ih behind guarded.2 read
      exact ⟨List.forall_mem_cons.mpr ⟨readable, later⟩, last⟩

end Item

end StackMachine
