import Mathlib
import StackMachine.Machine.Primitive
import StackMachine.Proofs.Number.Words
import StackMachine.Proofs.Source.Refusal

/-!
# Which words are accepted as numbers

Wherever a source has a whole number as an operand, and wherever a program reads one, a word is
accepted exactly if it spells a number in range, and then the number is what it spells.  Any other
word is refused, and the error reports it (`numberWords_exact`).
-/

namespace StackMachine

namespace Source

/-- Behind some instructions stand the keyword of an opcode, on a row, and some words. -/
def Stands (source : Source) (done : List Instruction) (opcode : Opcode) (row : Nat)
    (words : List String) (after : Cursor) : Prop :=
  ∃ keyword cursor between, source.Scans (.start source.input.unread) done cursor ∧
    Scan.word source cursor = .ok (keyword, between) ∧
    Opcode.ofKeyword? keyword = some opcode ∧ between.wordRow = row ∧
    source.Words between words after

/-- Behind some instructions a token is found on a row. -/
def Finds (source : Source) (done : List Instruction) (token : Token) (row : Nat) : Prop :=
  ∃ rest, source.instructions.instructions = done ++ ⟨token, row⟩ :: rest

/-- Behind some instructions the source is given up, because a word on a row is no number. -/
def Blames (source : Source) (done : List Instruction) (word : String) (row : Nat) : Prop :=
  ∃ fault, source.instructions =
    ⟨done, some (.malformed ⟨source.name, row, word, .invalidNumber fault⟩)⟩

variable {source : Source} {done : List Instruction} {cursor : Cursor}
  (scans : source.Scans (.start source.input.unread) done cursor)

include scans

theorem finds_iff {token : Token} {row : Nat} :
    source.Finds done token row ↔
      ∃ after, Scan.instruction source cursor = .ok (⟨token, row⟩, after) := by
  unfold Finds instructions
  rw [Tokenizer.streamFrom_of_scans scans]
  cases scanned : Scan.instruction source cursor with
  | error stop =>
      rw [Tokenizer.streamFrom_of_error scanned]
      simp
  | ok pair =>
      obtain ⟨found, after⟩ := pair
      rw [Tokenizer.streamFrom_of_ok scanned]
      simp

theorem blames_iff {word : String} {row : Nat} :
    source.Blames done word row ↔ ∃ fault, Scan.instruction source cursor =
      .error (some (.malformed ⟨source.name, row, word, .invalidNumber fault⟩)) := by
  unfold Blames instructions
  refine exists_congr fun fault => ?_
  rw [Tokenizer.streamFrom_of_scans scans]
  cases scanned : Scan.instruction source cursor with
  | error reason =>
      rw [Tokenizer.streamFrom_of_error scanned]
      simp
  | ok pair =>
      obtain ⟨found, after⟩ := pair
      rw [Tokenizer.streamFrom_of_ok scanned]
      simp

end Source

namespace Scan

variable {source : Source} {cursor between after : Cursor} {keyword : String} {opcode : Opcode}
  {text : String}

theorem word_ne_invalidNumber {row : Nat} {fault : NumberFault} :
    word source cursor ≠
      .error (some (.malformed ⟨source.name, row, text, .invalidNumber fault⟩)) := by
  unfold word
  split <;> simp

section Keyword

variable (isKeyword : word source cursor = .ok (keyword, between))
  (isOpcode : Opcode.ofKeyword? keyword = some opcode)

include isKeyword isOpcode

/-- Only a word that the opcode needs as a number is refused as one. -/
theorem refuses_of_instruction {row : Nat} {fault : NumberFault}
    (stopped : instruction source cursor =
      .error (some (.malformed ⟨source.name, row, text, .invalidNumber fault⟩))) :
    ∃ operands, opcode.Refuses operands text fault := by
  have halts := instruction_eq_error_iff.mp stopped
  generalize reason : some (ScanError.malformed ⟨source.name, row, text, .invalidNumber fault⟩) =
    stop at halts
  cases halts with
  | keyword isStop =>
      rw [isKeyword] at isStop
      cases isStop
  | unknown => cases reason
  | operand again isAgain lacks =>
      obtain ⟨operands, last, -, -, stop⟩ := lacks
      rcases operand_eq_error_iff.mp stop with ⟨-, missing⟩ | ⟨error, isError, rfl⟩
      · rw [← reason] at missing
        cases missing
      · rw [← reason] at isError
        exact absurd isError word_ne_invalidNumber
  | number again isAgain rejects =>
      rw [isKeyword] at again
      cases again
      rw [isOpcode] at isAgain
      cases isAgain
      obtain ⟨operands, _, _, _, -, refuses, isStop⟩ := rejects
      rw [← reason] at isStop
      cases isStop
      exact ⟨operands, refuses⟩
  | oversized => cases reason

/-- The words of a token behind its keyword are scanned as that token only. -/
theorem instruction_eq_ok_iff_of_words {words : List String} {token : Token}
    (read : source.Words between words after) (made : Token.OfWords opcode words token)
    (other : Token) :
    (∃ last, instruction source cursor = .ok (⟨other, between.wordRow⟩, last)) ↔ other = token := by
  have scanned : instruction source cursor = .ok (⟨token, between.wordRow⟩, after) :=
    instruction_eq_ok_iff.mpr
      ⟨keyword, opcode, between, words, isKeyword, isOpcode, read, made, rfl⟩
  rw [scanned]
  constructor
  · rintro ⟨last, same⟩
    cases same
    rfl
  · rintro rfl
    exact ⟨after, rfl⟩

/-- A refused word behind a keyword ends the scan. -/
theorem instruction_of_refuses (operands : List String) {fault : NumberFault}
    (read : source.Words between (operands ++ [text]) after)
    (refuses : opcode.Refuses operands text fault) :
    instruction source cursor =
      .error (some (.malformed ⟨source.name, after.wordRow, text, .invalidNumber fault⟩)) :=
  instruction_eq_error_iff.mpr
    (.number isKeyword isOpcode ⟨operands, text, fault, after, read, refuses, rfl⟩)

end Keyword

end Scan

namespace Source.Stands

variable {source : Source} {done : List Instruction} {opcode : Opcode} {row : Nat} {after : Cursor}

/-- The one operand of an opcode is a number that some reader accepts.  Its word is taken with its
value if it is accepted, and blamed if not. -/
theorem operand_exact {α : Type} {read : String → Except NumberFault α}
    {Accepts : String → α → Prop}
    (accepts : ∀ {text value}, read text = .ok value ↔ Accepts text value) {token : α → Token}
    (made : ∀ {text value}, read text = .ok value → Token.OfWords opcode [text] (token value))
    (refuses : ∀ {text fault}, read text = .error fault → opcode.Refuses [] text fault)
    {text : String} (stands : source.Stands done opcode row [text] after) :
    (∀ found, source.Finds done found row ↔ ∃ value, Accepts text value ∧ found = token value) ∧
      (source.Blames done text after.wordRow ↔ ¬ ∃ value, Accepts text value) := by
  obtain ⟨keyword, cursor, between, scans, isKeyword, isOpcode, rfl, words⟩ := stands
  cases isRead : read text with
  | ok value =>
      have only : ∀ other, Accepts text other ↔ other = value := by
        intro other
        rw [← accepts, isRead, Except.ok.injEq, eq_comm]
      have scanned := Scan.instruction_eq_ok_iff_of_words isKeyword isOpcode words (made isRead)
      refine ⟨fun found => ?_, ?_⟩
      · rw [finds_iff scans, scanned]
        simp only [only, exists_eq_left]
      · obtain ⟨last, isFound⟩ := (scanned _).mpr rfl
        rw [blames_iff scans, isFound]
        simp [only]
  | error fault =>
      have none : ¬ ∃ value, Accepts text value := by
        rintro ⟨value, accepted⟩
        rw [accepts.mpr accepted] at isRead
        cases isRead
      have stopped := Scan.instruction_of_refuses isKeyword isOpcode [] words (refuses isRead)
      refine ⟨fun found => ?_, ?_⟩
      · rw [finds_iff scans, stopped]
        simp only [reduceCtorEq, exists_false, false_iff]
        rintro ⟨value, accepted, -⟩
        exact none ⟨value, accepted⟩
      · rw [blames_iff scans, stopped]
        simp [none]

theorem pushi_exact {text : String} (stands : source.Stands done .pushi row [text] after) :
    (∀ token, source.Finds done token row ↔
      ∃ value, IntegerWord text value ∧ token = { opcode := .pushi, int := value }) ∧
    (source.Blames done text after.wordRow ↔ ¬ ∃ value, IntegerWord text value) :=
  stands.operand_exact readInt32_eq_ok_iff .int .int

theorem index_exact (takesIndex : opcode.takesIndex = true) {text : String}
    (stands : source.Stands done opcode row [text] after) :
    (∀ token, source.Finds done token row ↔
      ∃ index, IndexWord text index ∧ token = { opcode, index }) ∧
    (source.Blames done text after.wordRow ↔ ¬ ∃ index, IndexWord text index) :=
  stands.operand_exact readIndex_eq_ok_iff (.index takesIndex) (.index takesIndex)

end Source.Stands

/-- A word is refused as an index exactly if it spells none. -/
theorem readIndex_eq_error_iff {word : String} :
    (∃ fault, readIndex word = .error fault) ↔ ¬ ∃ index, IndexWord word index := by
  simp only [← readIndex_eq_ok_iff]
  cases readIndex word <;> simp

/-- The opcode whose operands are two numbers and a text refuses only words that spell no index. -/
theorem Opcode.Refuses.not_indexWord {operands : List String} {text : String} {fault : NumberFault}
    (refuses : Opcode.Refuses .stores operands text fault) : ¬ ∃ index, IndexWord text index := by
  rw [← readIndex_eq_error_iff]
  cases refuses with
  | index takesIndex => cases takesIndex
  | address isFault => exact ⟨fault, isFault⟩
  | size _ isFault => exact ⟨fault, isFault⟩

namespace Source.Stands

variable {source : Source} {done : List Instruction} {row : Nat} {after : Cursor}
  {first second : String}

/-- The last of some operands is blamed exactly if it spells no index. -/
theorem blames_iff_of_refuses (operands : List String) {text : String}
    (refuses : ∀ {fault}, readIndex text = .error fault →
      Opcode.Refuses .stores operands text fault)
    (stands : source.Stands done .stores row (operands ++ [text]) after) :
    source.Blames done text after.wordRow ↔ ¬ ∃ index, IndexWord text index := by
  obtain ⟨keyword, cursor, between, scans, isKeyword, isOpcode, -, words⟩ := stands
  rw [blames_iff scans]
  constructor
  · rintro ⟨fault, stopped⟩
    obtain ⟨_, refused⟩ := Scan.refuses_of_instruction isKeyword isOpcode stopped
    exact refused.not_indexWord
  · intro noIndex
    obtain ⟨fault, isFault⟩ := readIndex_eq_error_iff.mpr noIndex
    exact ⟨fault, Scan.instruction_of_refuses isKeyword isOpcode operands words (refuses isFault)⟩

theorem stores_exact {name : String}
    (stands : source.Stands done .stores row [first, second, name] after) (token : Token) :
    source.Finds done token row ↔ ∃ index size, IndexWord first index ∧ IndexWord second size ∧
      token = { opcode := .stores, index, size, name } := by
  obtain ⟨keyword, cursor, between, scans, isKeyword, isOpcode, rfl, words⟩ := stands
  rw [finds_iff scans]
  constructor
  · rintro ⟨last, scanned⟩
    obtain ⟨_, _, _, operands, isKeywordAgain, isOpcodeAgain, again, made, -⟩ :=
      Scan.instruction_eq_ok_iff.mp scanned
    rw [isKeyword] at isKeywordAgain
    cases isKeywordAgain
    rw [isOpcode] at isOpcodeAgain
    cases isOpcodeAgain
    generalize isToken : (⟨token, between.wordRow⟩ : Instruction).token = found at made
    cases made with
    | bare takesNothing => cases takesNothing
    | index takesIndex => cases takesIndex
    | literal readFirst readSecond =>
        simp only [words_cons_iff, words_nil_iff] at words again
        obtain ⟨_, isFirst, _, isSecond, _, isName, -⟩ := words
        obtain ⟨_, isFirstAgain, _, isSecondAgain, _, isNameAgain, -⟩ := again
        rw [isFirst] at isFirstAgain
        cases isFirstAgain
        rw [isSecond] at isSecondAgain
        cases isSecondAgain
        rw [isName] at isNameAgain
        cases isNameAgain
        exact ⟨_, _, readIndex_eq_ok_iff.mp readFirst, readIndex_eq_ok_iff.mp readSecond, isToken⟩
  · rintro ⟨index, size, isFirst, isSecond, rfl⟩
    have made : Token.OfWords .stores [first, second, name] _ :=
      .literal (readIndex_eq_ok_iff.mpr isFirst) (readIndex_eq_ok_iff.mpr isSecond)
    exact (Scan.instruction_eq_ok_iff_of_words isKeyword isOpcode words made _).mpr rfl

end Source.Stands

/-! ## Words of an input -/

namespace World

theorem flush_input (world : World) : world.flush.1.input = world.input :=
  rfl

/-- Flushing fails for the output only. -/
theorem flush_ne_error (world : World) (cause : Cause)
    (notOutput : ∀ fault, cause ≠ .outputFault fault) : world.flush.2 ≠ .error cause := by
  unfold flush
  rcases world.output.flush with ⟨_ | fault, output⟩
  · simp
  · simpa using (notOutput fault).symm

end World

namespace Primitive

variable {world flushed : World} {text : String} {rest : Input}
  (flushes : world.flush = (flushed, .ok ())) (isWord : world.input.readWord = (.word text, rest))

include flushes isWord

theorem run_readint_of_ok {value : Int32} (read : readInt32 text = .ok value) :
    run .readint world = (World.push { flushed with input := rest } (.int value)).flush := by
  have isNext : flushed.input.readWord = (.word text, rest) := by
    rw [← isWord, ← world.flush_input, flushes]
  simp only [run, reading, flushes, andThen, isNext, read]

theorem run_readint_of_error {fault : NumberFault} (read : readInt32 text = .error fault) :
    run .readint world = ({ flushed with input := rest }, .error (.notInteger text)) := by
  have isNext : flushed.input.readWord = (.word text, rest) := by
    rw [← isWord, ← world.flush_input, flushes]
  simp only [run, reading, flushes, andThen, isNext, read]

/-- A word is read as an integer exactly if it spells one. -/
theorem run_readint_exact :
    (∀ value, IntegerWord text value →
      run .readint world = (World.push { flushed with input := rest } (.int value)).flush) ∧
    ((run .readint world).2 = .error (.notInteger text) ↔ ¬ ∃ value, IntegerWord text value) := by
  simp only [← readInt32_eq_ok_iff]
  refine ⟨fun value read => run_readint_of_ok flushes isWord read, ?_⟩
  cases read : readInt32 text with
  | ok value =>
      rw [run_readint_of_ok flushes isWord read]
      have noFault := (World.push { flushed with input := rest } (.int value)).flush_ne_error
        (.notInteger text) (by rintro fault ⟨⟩)
      simp [noFault]
  | error fault =>
      rw [run_readint_of_error flushes isWord read]
      simp

end Primitive

/-- Number words are accepted exactly.  Behind any instructions of any source, the operand of
`pushi` is taken exactly if it is an optional sign and digits that spell a number of 32 bits, and
the operand of an opcode that takes an index, and each of the two numbers of `stores`, exactly if it
is digits that spell a number below `2 ^ 63`; the token then holds that number.  Otherwise the
source is given up there with an error about that word.  A program reads an integer from the next
word of its input under the same condition as `pushi`, and its error quotes any other word. -/
theorem numberWords_exact :
    (∀ (source : Source) (done : List Instruction) (row : Nat) (text : String) (after : Cursor),
      source.Stands done .pushi row [text] after →
      (∀ token, source.Finds done token row ↔
        ∃ value, IntegerWord text value ∧ token = { opcode := .pushi, int := value }) ∧
      (source.Blames done text after.wordRow ↔ ¬ ∃ value, IntegerWord text value)) ∧
    (∀ (source : Source) (done : List Instruction) (opcode : Opcode) (row : Nat) (text : String)
      (after : Cursor),
      opcode ∈ [.load, .store, .label, .goto, .branch] →
      source.Stands done opcode row [text] after →
      (∀ token, source.Finds done token row ↔
        ∃ index, IndexWord text index ∧ token = { opcode, index }) ∧
      (source.Blames done text after.wordRow ↔ ¬ ∃ index, IndexWord text index)) ∧
    (∀ (source : Source) (done : List Instruction) (row : Nat) (first : String) (after : Cursor),
      source.Stands done .stores row [first] after →
      (source.Blames done first after.wordRow ↔ ¬ ∃ index, IndexWord first index)) ∧
    (∀ (source : Source) (done : List Instruction) (row : Nat) (first second : String)
      (after : Cursor),
      source.Stands done .stores row [first, second] after → (∃ index, IndexWord first index) →
      (source.Blames done second after.wordRow ↔ ¬ ∃ size, IndexWord second size)) ∧
    (∀ (source : Source) (done : List Instruction) (row : Nat) (first second name : String)
      (after : Cursor),
      source.Stands done .stores row [first, second, name] after →
      ∀ token, source.Finds done token row ↔
        ∃ index size, IndexWord first index ∧ IndexWord second size ∧
          token = { opcode := .stores, index, size, name }) ∧
    ∀ (world flushed : World) (text : String) (rest : Input),
      world.flush = (flushed, .ok ()) → world.input.readWord = (.word text, rest) →
      (∀ value, IntegerWord text value → Primitive.run .readint world =
        (World.push { flushed with input := rest } (.int value)).flush) ∧
      ((Primitive.run .readint world).2 = .error (.notInteger text) ↔
        ¬ ∃ value, IntegerWord text value) ∧
      (Cause.notInteger text).message = "readint: invalid integer " ++ quoted text := by
  refine ⟨?_, ?_, ?_, ?_, ?_, ?_⟩
  · intro source done row text after stands
    exact stands.pushi_exact
  · intro source done opcode row text after isIndexed stands
    have takesIndex : opcode.takesIndex = true := by
      revert opcode
      simp [Opcode.takesIndex]
    exact stands.index_exact takesIndex
  · intro source done row first after stands
    exact Source.Stands.blames_iff_of_refuses [] .address stands
  · rintro source done row first second after stands ⟨index, isFirst⟩
    have readFirst := readIndex_eq_ok_iff.mpr isFirst
    exact Source.Stands.blames_iff_of_refuses [first] (.size readFirst) stands
  · intro source done row first second name after stands
    exact stands.stores_exact
  · intro world flushed text rest flushes isWord
    obtain ⟨accepted, refused⟩ := Primitive.run_readint_exact flushes isWord
    exact ⟨accepted, refused, rfl⟩

/-- The least integer, and the first number that is no index. -/
def extremeSource : Source where
  name := "extreme"
  input := ⟨"pushi -2147483648\nload \"9223372036854775808\"".toList, none⟩

/-- The least integer is pushed, and the index that is one too large is blamed; a word with a letter
in it is not read as an integer. -/
theorem numberWords_exact_extreme :
    let least : Token := { opcode := .pushi, int := -2147483648 }
    extremeSource.Finds [] least 0 ∧
    extremeSource.Blames [⟨least, 0⟩] "9223372036854775808" 1 ∧
    (Primitive.run .readint { input := ⟨"+1x".toList, none⟩ }).2 = .error (.notInteger "+1x") := by
  intro least
  obtain ⟨pushed, indexed, -, -, -, reads⟩ := numberWords_exact
  refine ⟨?_, ?_, ?_⟩
  · have stands : extremeSource.Stands [] .pushi 0 ["-2147483648"]
        ⟨"load \"9223372036854775808\"".toList, 1, 0⟩ :=
      ⟨"pushi", _, ⟨"-2147483648\nload \"9223372036854775808\"".toList, 0, 0⟩, .nil _, by cbv,
        by cbv, rfl, .cons (by cbv) (.nil _)⟩
    have spelled : IntegerWord "-2147483648" (-2147483648) :=
      readInt32_eq_ok_iff.mp (by decide +kernel)
    exact ((pushed _ _ _ _ _ stands).1 least).mpr ⟨_, spelled, rfl⟩
  · have scanned : Scan.instruction extremeSource (.start extremeSource.input.unread) =
        .ok (⟨least, 0⟩, ⟨"load \"9223372036854775808\"".toList, 1, 0⟩) := by decide +kernel
    have stands : extremeSource.Stands [⟨least, 0⟩] .load 1 ["9223372036854775808"] ⟨[], 1, 1⟩ :=
      ⟨"load", _, ⟨"\"9223372036854775808\"".toList, 1, 1⟩, .cons scanned (.nil _), by cbv, by cbv,
        rfl, .cons (by cbv) (.nil _)⟩
    have noIndex : ¬ ∃ index, IndexWord "9223372036854775808" index :=
      readIndex_eq_error_iff.mp ⟨.range, by cbv⟩
    exact (indexed _ _ _ _ _ _ (by decide) stands).2.mpr noIndex
  · have refused : readInt32 "+1x" = .error .syntactic := by decide +kernel
    refine (reads _ { input := ⟨"+1x".toList, none⟩ } "+1x" ⟨[], none⟩ rfl (by cbv)).2.1.mpr ?_
    simp [← readInt32_eq_ok_iff, refused]

end StackMachine
