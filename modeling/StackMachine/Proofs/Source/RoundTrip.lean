import Mathlib
import StackMachine.Proofs.Source.Printing

/-!
# Printing the tokens of a source and scanning them again

Tokens written one to a line come back exactly if each of them is spellable: the names of calls and
headers and the class words of headers can be written without quotes, and text literals have no
quote inside (`Source.tokens_printed_iff`).
-/

namespace StackMachine

/-! ## The words of numbers and types -/

theorem readsBare_toString_nat (number : Nat) : ReadsBare (toString number) := by
  have areDigits : ∀ c ∈ Nat.toDigits 10 number, c.isDigit = true :=
    fun c mem => Nat.isDigit_of_mem_toDigits (by decide) (by decide) mem
  have notHead {c : Char} (other : c.isDigit = false) :
      (Nat.toDigits 10 number).head? ≠ some c := by
    intro head
    rw [areDigits c (List.mem_of_mem_head? head)] at other
    cases other
  have noSeparator : ∀ c ∈ Nat.toDigits 10 number, isSeparator c = false := by
    intro c mem
    by_contra separator
    simp only [isSeparator, Bool.not_eq_false, Bool.or_eq_true, beq_iff_eq] at separator
    rcases separator with (rfl | rfl) | rfl <;> exact absurd (areDigits _ mem) (by decide)
  unfold ReadsBare IsBare
  rw [Nat.toString_eq_repr, Nat.toList_repr]
  exact ⟨⟨Nat.toDigits_ne_nil, noSeparator, notHead (by decide)⟩, notHead (by decide)⟩

theorem readsBare_toString_int (int : Int) : ReadsBare (toString int) := by
  rw [Int.toString_eq_repr, Int.repr_eq_if]
  split
  · rw [← Nat.toString_eq_repr]
    exact readsBare_toString_nat int.toNat
  · obtain ⟨⟨-, noSeparator, -⟩, -⟩ := readsBare_toString_nat (-int).toNat
    rw [Nat.toString_eq_repr] at noSeparator
    have signed : ("-" ++ (-int).toNat.repr).toList = '-' :: (-int).toNat.repr.toList := by
      rw [String.toList_append]
      rfl
    unfold ReadsBare IsBare
    rw [signed]
    exact ⟨⟨List.cons_ne_nil _ _, List.forall_mem_cons.mpr ⟨rfl, noSeparator⟩, by simp⟩, by simp⟩

namespace DeclaredType

/-- A type shows the word that it was read from. -/
@[simp]
theorem text_ofWord (word : String) : (ofWord word).text = word := by
  unfold ofWord
  split
  · next same => exact same.symm
  split
  · next same => exact same.symm
  split
  · next same => exact same.symm
  split
  · next same => exact same.symm
  · rfl

/-- A class word that can be written without quotes; the words of the other types always can. -/
def Spellable (type : DeclaredType) : Prop :=
  type.kind = .object → IsBare type.className

instance : DecidablePred Spellable := fun _ => inferInstanceAs (Decidable (_ → _))

theorem spellable_ofWord_iff {word : String} (isWord : IsWord word) :
    (ofWord word).Spellable ↔ ReadsBare word := by
  have basic : ∀ word ∈ ["int", "float", "string", "NULL"], ReadsBare word := by
    simp [ReadsBare, IsBare, isSeparator]
  unfold ofWord
  split
  · next same => exact iff_of_true nofun (basic word (by simp [same]))
  split
  · next same => exact iff_of_true nofun (basic word (by simp [same]))
  split
  · next same => exact iff_of_true nofun (basic word (by simp [same]))
  split
  · next same => exact iff_of_true nofun (basic word (by simp [same]))
  · rw [isWord.readsBare_iff]
    exact forall_prop_of_true rfl

end DeclaredType

namespace Opcode

theorem readsBare_name {opcode : Opcode} (mem : opcode ∈ named) : ReadsBare opcode.name := by
  cases opcode with
  | reserved offset => simp [named, BinaryOperator.all] at mem
  | binary operator =>
      cases operator <;> simp [name, BinaryOperator.name, ReadsBare, IsBare, isSeparator]
  | _ => simp [name, ReadsBare, IsBare, isSeparator]

theorem ofKeyword?_name {opcode : Opcode} (mem : opcode ∈ named) (ne : opcode ≠ .invalid) :
    ofKeyword? opcode.name = some opcode := by
  have all : ∀ opcode ∈ named, opcode ≠ .invalid → ofKeyword? opcode.name = some opcode := by
    decide
  exact all opcode mem ne

end Opcode

/-! ## Tokens -/

namespace Token

/-- The operands of a token as they are printed. -/
def items (token : Token) : List Item :=
  match token.opcode with
  | .pushi => [.bare (toString token.int.toInt)]
  | .pushf => [.bare token.float.instructionText]
  | .load | .store | .label | .goto | .branch => [.bare (toString token.index.toInt)]
  | .stores =>
      [.bare (toString token.index.toInt), .bare (toString token.size.toInt), .quoted token.name]
  | .call => [.bare token.name]
  | .defun =>
      (token.name :: toString token.params.length ::
        (token.params.map DeclaredType.text ++ [token.result.text])).map .bare
  | _ => []

/-- A token is printed as its keyword and its operands. -/
theorem toList_text (token : Token) :
    token.text.toList = token.opcode.name.toList ++ Item.line token.items := by
  unfold text items
  split <;> simp [Item.line, Item.chars, Opcode.name, toString, String.toList_join,
    List.flatMap_map, *]

/-- The operands of a token can be written as its text shows them. -/
def Spellable (token : Token) : Prop :=
  (token.opcode = .call → IsBare token.name) ∧
  (token.opcode = .defun →
    IsBare token.name ∧ ∀ type ∈ token.params ++ [token.result], type.Spellable) ∧
  (token.opcode = .stores → '"' ∉ token.name.toList)

instance : DecidablePred Spellable := fun _ => inferInstanceAs (Decidable (_ ∧ _ ∧ _))

namespace OfWords

variable {opcode : Opcode} {words : List String} {token : Token}

theorem opcode_eq (made : OfWords opcode words token) : token.opcode = opcode := by
  cases made <;> rfl

theorem items_bare (takesNothing : opcode.takesNothing = true) :
    Token.items { opcode } = [] := by
  cases opcode <;> first | rfl | cases takesNothing

theorem items_index (takesIndex : opcode.takesIndex = true) (index : Int64) :
    Token.items { opcode, index } = [.bare (toString index.toInt)] := by
  cases opcode <;> first | rfl | cases takesIndex

theorem items_header (name result : String) (params : List String) :
    Token.items { opcode := .defun, name, params := params.map .ofWord, result := .ofWord result } =
      (name :: toString params.length :: (params ++ [result])).map .bare := by
  simp [items, Function.comp_def]

/-- Each operand of a token is a number, which is readable, or the word it was made of. -/
theorem back (made : OfWords opcode words token) (notFloat : opcode ≠ .pushf) :
    List.Forall₂ (fun item word => item.Readable ∨ word = item.word) token.items words := by
  cases made with
  | bare takesNothing =>
      rw [items_bare takesNothing]
      exact .nil
  | int read => exact .cons (.inl (readsBare_toString_int _)) .nil
  | float read => exact absurd rfl notFloat
  | index takesIndex read =>
      rw [items_index takesIndex]
      exact .cons (.inl (readsBare_toString_int _)) .nil
  | literal readFirst readSecond =>
      exact .cons (.inl (readsBare_toString_int _))
        (.cons (.inl (readsBare_toString_int _)) (.cons (.inr rfl) .nil))
  | call => exact .cons (.inr rfl) .nil
  | @header name digits result count params read length small =>
      rw [items_header]
      refine .cons (.inr rfl) (.cons (.inl (readsBare_toString_nat _)) ?_)
      rw [List.forall₂_map_left_iff, List.forall₂_same]
      exact fun word _ => .inr rfl

/-- A token is made of its operands as they are printed. -/
theorem printed (made : OfWords opcode words token) (notFloat : opcode ≠ .pushf) :
    OfWords opcode (token.items.map Item.word) token := by
  cases made with
  | bare takesNothing =>
      rw [items_bare takesNothing]
      exact .bare takesNothing
  | int read => exact .int (readInt32_toString _)
  | float read => exact absurd rfl notFloat
  | index takesIndex read =>
      rw [items_index takesIndex]
      exact .index takesIndex (readIndex_toString (readIndex_nonneg read))
  | literal readFirst readSecond =>
      exact .literal (readIndex_toString (readIndex_nonneg readFirst))
        (readIndex_toString (readIndex_nonneg readSecond))
  | call => exact .call
  | @header name digits result count params read length small =>
      have inRange : params.length < 0x8000000000000000 :=
        Nat.lt_of_le_of_lt small (by decide)
      rw [items_header, List.map_map, Function.comp_def, List.map_cons, List.map_cons]
      simp only [Item.word, List.map_id']
      refine .header (readIndex_toString_nat inRange) ?_ small
      rw [Int64.toInt_ofNat_of_lt (by omega), Int.toNat_natCast]

variable (made : OfWords opcode words token) (areWords : ∀ word ∈ words, IsWord word)

include made areWords

theorem guarded (notFloat : opcode ≠ .pushf) {tail : List Char} (ahead : NoQuoteAhead tail) :
    Item.Guarded tail token.items := by
  have number (int : Int) {items : List Item} (word : String)
      (same : Item.bare (toString int) = .bare word) :
      ReadsBare word ∨ '"' ∉ word.toList ∧ NoQuoteAhead (Item.line items ++ tail) := by
    cases same
    exact .inl (readsBare_toString_int int)
  cases made with
  | bare takesNothing =>
      rw [items_bare takesNothing]
      trivial
  | int read => exact ⟨number _, trivial⟩
  | float read => exact absurd rfl notFloat
  | index takesIndex read =>
      rw [items_index takesIndex]
      exact ⟨number _, trivial⟩
  | literal readFirst readSecond => exact ⟨number _, number _, nofun, trivial⟩
  | call => exact (Item.guarded_of_words areWords ahead).1
  | @header name digits result count params read length small =>
      rw [items_header]
      refine (Item.guarded_of_words ?_ ahead).1
      obtain ⟨isName, areWords⟩ := List.forall_mem_cons.mp areWords
      have areTypes := (List.forall_mem_cons.mp areWords).2
      exact List.forall_mem_cons.mpr
        ⟨isName, List.forall_mem_cons.mpr ⟨.inr (readsBare_toString_nat _), areTypes⟩⟩

/-- A token is spellable exactly if its operands read as themselves. -/
theorem spellable_iff (notFloat : opcode ≠ .pushf) :
    token.Spellable ↔ ∀ item ∈ token.items, item.Readable := by
  cases made with
  | bare takesNothing =>
      rw [items_bare takesNothing]
      refine iff_of_true ⟨?_, ?_, ?_⟩ (List.forall_mem_nil _)
      all_goals
        rintro rfl
        cases takesNothing
  | @int text int read =>
      refine iff_of_true ⟨nofun, nofun, nofun⟩ (List.forall_mem_singleton.mpr ?_)
      exact readsBare_toString_int int.toInt
  | float read => exact absurd rfl notFloat
  | @index _ text index takesIndex read =>
      rw [items_index takesIndex]
      refine iff_of_true ⟨?_, ?_, ?_⟩
        (List.forall_mem_singleton.mpr (readsBare_toString_int index.toInt))
      all_goals
        rintro rfl
        cases takesIndex
  | @literal first second name index size readFirst readSecond =>
      have numbers : ∀ int : Int, (Item.bare (toString int)).Readable := readsBare_toString_int
      have operands : (∀ item ∈ [Item.bare (toString index.toInt), .bare (toString size.toInt),
          .quoted name], item.Readable) ↔ (Item.quoted name).Readable := by
        rw [List.forall_mem_cons, List.forall_mem_cons, List.forall_mem_singleton]
        exact (and_iff_right (numbers _)).trans (and_iff_right (numbers _))
      refine Iff.trans ?_ operands.symm
      exact ⟨fun spellable => spellable.2.2 rfl, fun noQuote => ⟨nofun, nofun, fun _ => noQuote⟩⟩
  | @call name =>
      have isWord : IsWord name := areWords name List.mem_cons_self
      have operand : (∀ item ∈ [Item.bare name], item.Readable) ↔ IsBare name :=
        List.forall_mem_singleton.trans isWord.readsBare_iff
      refine Iff.trans ?_ operand.symm
      exact ⟨fun spellable => spellable.1 rfl, fun isBare => ⟨fun _ => isBare, nofun, nofun⟩⟩
  | @header name digits result count params read length small =>
      obtain ⟨isName, areWords⟩ := List.forall_mem_cons.mp areWords
      have areTypes := (List.forall_mem_cons.mp areWords).2
      have number : ReadsBare (toString params.length) := readsBare_toString_nat _
      have types : (∀ type ∈ params.map DeclaredType.ofWord ++ [.ofWord result], type.Spellable) ↔
          ∀ word ∈ params ++ [result], ReadsBare word := by
        rw [show params.map DeclaredType.ofWord ++ [.ofWord result] =
          (params ++ [result]).map DeclaredType.ofWord by simp, List.forall_mem_map]
        exact forall₂_congr fun word mem => DeclaredType.spellable_ofWord_iff (areTypes word mem)
      have operands : (∀ item ∈ (name :: toString params.length :: (params ++ [result])).map
          Item.bare, item.Readable) ↔
          IsBare name ∧ ∀ word ∈ params ++ [result], ReadsBare word := by
        rw [List.forall_mem_map, List.forall_mem_cons, List.forall_mem_cons,
          ← isName.readsBare_iff]
        exact and_congr_right fun _ => and_iff_right number
      rw [items_header, operands, ← types]
      exact ⟨fun spellable => spellable.2.1 rfl, fun header => ⟨nofun, fun _ => header, nofun⟩⟩

end OfWords

/-- A token that is made of words of some source. -/
structure Worded (token : Token) : Prop where
  mem : token.opcode ∈ Opcode.named
  ne : token.opcode ≠ .invalid
  made : ∃ words, (∀ word ∈ words, IsWord word) ∧ OfWords token.opcode words token

end Token

theorem Source.Words.isWord {source : Source} {cursor after : Cursor} {words : List String}
    (read : source.Words cursor words after) : ∀ word ∈ words, IsWord word := by
  induction read with
  | nil => exact List.forall_mem_nil _
  | cons isWord _ ih => exact List.forall_mem_cons.mpr ⟨Scan.isWord_of_word isWord, ih⟩

/-- The tokens of a source. -/
def Source.tokens (source : Source) : List Token :=
  source.instructions.instructions.map (·.token)

theorem Source.worded_of_mem_tokens {source : Source} {token : Token}
    (mem : token ∈ source.tokens) : token.Worded := by
  have yields : Scan.Yields (fun found => found.token.Worded) (Scan.instruction source) := by
    intro cursor found after scanned
    obtain ⟨keyword, opcode, between, words, -, isOpcode, read, made, -⟩ :=
      Scan.instruction_eq_ok_iff.mp scanned
    obtain ⟨mem, ne⟩ := Opcode.ofKeyword?_eq_some isOpcode
    obtain rfl := made.opcode_eq
    exact ⟨mem, ne, words, read.isWord, made⟩
  obtain ⟨found, isFound, rfl⟩ := List.mem_map.mp mem
  exact Tokenizer.of_mem_streamFrom yields isFound

/-! ## One line -/

namespace Token

variable {token : Token} (worded : token.Worded) (notFloat : token.opcode ≠ .pushf)
  {source : Source} (noFault : source.input.fault = none) {cursor : Cursor} {tail : List Char}
  (before : cursor.At ('\n' :: (token.text.toList ++ tail))) (delimited : Delimited tail)

include worded noFault before delimited

/-- The keyword of a printed token is read. -/
theorem keyword_of_line :
    ∃ between, Scan.word source cursor = .ok (token.opcode.name, between) ∧
      between.At (Item.line token.items ++ tail) := by
  have readable : (Item.bare token.opcode.name).Readable := Opcode.readsBare_name worded.mem
  rw [toList_text, List.append_assoc] at before
  exact Item.word_of_readable before isSeparator_lineFeed readable
    (Item.delimited_line delimited) noFault

include notFloat

/-- A spellable token is scanned from its line. -/
theorem instruction_of_line (spellable : token.Spellable) :
    ∃ row after, Scan.instruction source cursor = .ok (⟨token, row⟩, after) ∧ after.At tail := by
  obtain ⟨words, areWords, made⟩ := worded.made
  have readable := (made.spellable_iff areWords notFloat).mp spellable
  obtain ⟨between, isKeyword, behind⟩ := keyword_of_line worded noFault before delimited
  obtain ⟨after, read, last⟩ := Item.words_of_readable behind readable delimited noFault
  have isOpcode := Opcode.ofKeyword?_name worded.mem worded.ne
  exact ⟨between.wordRow, after, Scan.instruction_eq_ok_iff.mpr
    ⟨_, _, between, _, isKeyword, isOpcode, read, made.printed notFloat, rfl⟩, last⟩

/-- A token that is scanned from its line is spellable. -/
theorem spellable_of_line (ahead : NoQuoteAhead tail) {found : Instruction} {after : Cursor}
    (scanned : Scan.instruction source cursor = .ok (found, after)) (same : found.token = token) :
    token.Spellable ∧ after.At tail := by
  obtain ⟨words, areWords, made⟩ := worded.made
  obtain ⟨between, isKeyword, behind⟩ := keyword_of_line worded noFault before delimited
  obtain ⟨keyword, opcode, _, again, isAgain, -, read, madeAgain, -⟩ :=
    Scan.instruction_eq_ok_iff.mp scanned
  rw [isKeyword, Except.ok.injEq, Prod.mk.injEq] at isAgain
  obtain ⟨-, rfl⟩ := isAgain
  rw [same] at madeAgain
  obtain rfl := madeAgain.opcode_eq
  obtain ⟨readable, last⟩ := Item.readable_of_words behind delimited noFault
    (made.guarded areWords notFloat ahead) read (madeAgain.back notFloat)
  exact ⟨(made.spellable_iff areWords notFloat).mpr readable, last⟩

end Token

/-! ## All lines -/

/-- Tokens printed one to a line, each line with its line feed before it. -/
def printedLines (tokens : List Token) : List Char :=
  tokens.flatMap fun token => '\n' :: token.text.toList

theorem printedLines_cons (token : Token) (tokens : List Token) :
    printedLines (token :: tokens) = '\n' :: (token.text.toList ++ printedLines tokens) := by
  simp [printedLines]

theorem delimited_printedLines (tokens : List Token) : Delimited (printedLines tokens) := by
  cases tokens with
  | nil => exact fun _ => nofun
  | cons token tokens =>
      rw [printedLines_cons]
      intro c same
      cases same
      rfl

/-- Every line starts with a keyword. -/
theorem noQuoteAhead_printedLines {tokens : List Token}
    (worded : ∀ token ∈ tokens, token.Worded) : NoQuoteAhead (printedLines tokens) := by
  cases tokens with
  | nil => exact noQuoteAhead_nil
  | cons token tokens =>
      rw [printedLines_cons, Token.toList_text, List.append_assoc]
      exact noQuoteAhead_line
        (Opcode.readsBare_name (worded token List.mem_cons_self).mem) _

section Lines

variable {source : Source} {cursor : Cursor} {tokens : List Token}

/-- Spellable tokens are scanned from their lines up to the end of the text. -/
theorem scans_of_spellable (noFault : source.input.fault = none)
    (worded : ∀ token ∈ tokens, token.Worded) (noFloat : ∀ token ∈ tokens, token.opcode ≠ .pushf)
    (before : cursor.At (printedLines tokens)) (spellable : ∀ token ∈ tokens, token.Spellable) :
    ∃ instructions last, source.Scans cursor instructions last ∧
      instructions.map (·.token) = tokens ∧ Scan.instruction source last = .error none := by
  induction tokens generalizing cursor with
  | nil =>
      have ended : cursor.text = [] := by
        rcases before with same | ⟨_, -, impossible⟩
        · exact same
        · cases impossible
      refine ⟨[], cursor, .nil cursor, rfl, Scan.bind_eq_error_iff.mpr (.inl ?_)⟩
      simp [Scan.word, Cursor.nextWord, ended, skipGap, noFault]
  | cons token tokens ih =>
      obtain ⟨isWorded, worded⟩ := List.forall_mem_cons.mp worded
      obtain ⟨notFloat, noFloat⟩ := List.forall_mem_cons.mp noFloat
      obtain ⟨isSpellable, spellable⟩ := List.forall_mem_cons.mp spellable
      rw [printedLines_cons] at before
      obtain ⟨row, between, scanned, behind⟩ := Token.instruction_of_line isWorded notFloat noFault
        before (delimited_printedLines tokens) isSpellable
      obtain ⟨instructions, last, scans, same, ended⟩ := ih worded noFloat behind spellable
      exact ⟨⟨token, row⟩ :: instructions, last, .cons scanned scans,
        congrArg (token :: ·) same, ended⟩

/-- Tokens that are scanned from their lines are spellable. -/
theorem spellable_of_scans (noFault : source.input.fault = none)
    (worded : ∀ token ∈ tokens, token.Worded) (noFloat : ∀ token ∈ tokens, token.opcode ≠ .pushf)
    (before : cursor.At (printedLines tokens)) {instructions : List Instruction} {last : Cursor}
    (scans : source.Scans cursor instructions last)
    (same : instructions.map (·.token) = tokens) : ∀ token ∈ tokens, token.Spellable := by
  induction scans generalizing tokens with
  | nil =>
      cases same
      exact List.forall_mem_nil _
  | @cons cursor between last found rest scanned scans ih =>
      cases same
      obtain ⟨isWorded, worded⟩ := List.forall_mem_cons.mp worded
      obtain ⟨notFloat, noFloat⟩ := List.forall_mem_cons.mp noFloat
      rw [List.map_cons, printedLines_cons] at before
      obtain ⟨spellable, behind⟩ := Token.spellable_of_line isWorded notFloat noFault before
        (delimited_printedLines _) (noQuoteAhead_printedLines worded) scanned rfl
      exact List.forall_mem_cons.mpr ⟨spellable, ih worded noFloat behind rfl⟩

end Lines

/-- The source whose lines are the texts of some tokens. -/
def Source.printed (name : String) (tokens : List Token) : Source where
  name := name
  input := .ofBytes (Utf8.encode ("\n".intercalate (tokens.map Token.text)))

theorem Source.at_printed (name : String) (tokens : List Token) :
    (Cursor.start (Source.printed name tokens).input.unread).At (printedLines tokens) := by
  have lines (first : Token) (rest : List Token) :
      ['\n'].intercalate ((first :: rest).map (·.text.toList)) =
        first.text.toList ++ printedLines rest := by
    induction rest generalizing first with
    | nil => simp [printedLines]
    | cons second rest ih =>
        have later := ih second
        rw [List.map_cons] at later
        rw [List.map_cons, List.map_cons, List.intercalate_cons_cons, later, printedLines_cons]
        simp
  have text : (Source.printed name tokens).input.unread =
      ['\n'].intercalate (tokens.map (·.text.toList)) := by
    simp [printed, Input.ofBytes, Utf8.decode_encode, String.toList_intercalate,
      Function.comp_def]
  rw [text]
  cases tokens with
  | nil => exact .inl rfl
  | cons first rest =>
      right
      refine ⟨'\n', rfl, ?_⟩
      rw [printedLines_cons]
      exact congrArg _ (lines first rest).symm

/-- The tokens of a source that pushes no floating-point number, printed one to a line, are scanned
again exactly if all of them are spellable, and then nothing else is found. -/
theorem Source.tokens_printed_iff (source : Source)
    (noFloat : ∀ token ∈ source.tokens, token.opcode ≠ .pushf) (name : String) :
    ((Source.printed name source.tokens).tokens = source.tokens ↔
      ∀ token ∈ source.tokens, token.Spellable) ∧
    ((∀ token ∈ source.tokens, token.Spellable) →
      (Source.printed name source.tokens).instructions.failure = none) := by
  have worded : ∀ token ∈ source.tokens, token.Worded := fun _ => worded_of_mem_tokens
  have before := Source.at_printed name source.tokens
  have noFault : (Source.printed name source.tokens).input.fault = none := rfl
  have scanned (spellable : ∀ token ∈ source.tokens, token.Spellable) :
      ∃ instructions, instructions.map (·.token) = source.tokens ∧
        (Source.printed name source.tokens).instructions = ⟨instructions, none⟩ := by
    obtain ⟨instructions, last, scans, same, ended⟩ :=
      scans_of_spellable noFault worded noFloat before spellable
    exact ⟨instructions, same, Tokenizer.streamFrom_eq_iff.mpr ⟨last, scans, ended⟩⟩
  refine ⟨⟨fun same => ?_, fun spellable => ?_⟩, fun spellable => ?_⟩
  · obtain ⟨last, scans, -⟩ := Tokenizer.exists_scans_streamFrom
      (Source.printed name source.tokens) (.start _)
    exact spellable_of_scans noFault worded noFloat before scans same
  · obtain ⟨instructions, same, isStream⟩ := scanned spellable
    rw [tokens, isStream, same]
  · obtain ⟨instructions, -, isStream⟩ := scanned spellable
    rw [isStream]

/-- A source whose numbers and words are not written as they are printed. -/
def spelledSource : Source where
  name := "spelled"
  input := ⟨"stores 07 3 \"; a\" call \"é\"".toList, none⟩

/-- A source that calls a function whose name is a comment. -/
def commentSource : Source where
  name := "comment"
  input := ⟨"call \"; a\" stores 0 3 \"; a\"".toList, none⟩

theorem Source.tokens_printed_spelled :
    (Source.printed "" spelledSource.tokens).tokens = spelledSource.tokens ∧
      (Source.printed "" commentSource.tokens).tokens ≠ commentSource.tokens := by
  have spelled : spelledSource.tokens =
      [{ opcode := .stores, index := 7, size := 3, name := "; a" },
        { opcode := .call, name := "é" }] := by cbv
  have comment : commentSource.tokens =
      [{ opcode := .call, name := "; a" }, { opcode := .stores, size := 3, name := "; a" }] := by
    cbv
  constructor
  · refine (Source.tokens_printed_iff spelledSource ?_ "").1.mpr ?_ <;> rw [spelled]
    · simp
    · simp [Token.Spellable, IsBare, isSeparator]
  · intro same
    have spellable := (Source.tokens_printed_iff commentSource (by rw [comment]; simp) "").1.mp same
    rw [comment] at spellable
    have isBare := (spellable _ List.mem_cons_self).1 rfl
    exact absurd isBare (by simp [IsBare])

end StackMachine
