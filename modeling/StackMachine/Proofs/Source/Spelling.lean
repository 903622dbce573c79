import Mathlib
import StackMachine.Proofs.Source.Scanned

/-!
# Instructions as words

Scanning has two halves: a source is cut into words, and words are read as a token.  `Source.Words`
says which words stand between two cursors and `Token.OfWords` which token an opcode and its operand
words make.  An instruction is scanned exactly if its words are there and make its token
(`Scan.instruction_eq_ok_iff`), and a stream of instructions is a chain of such scans and the reason
why it ends (`Tokenizer.streamFrom_eq_iff`).
-/

namespace StackMachine

namespace Scan

section Sequencing

variable {α β : Type} {scan : Scan α} {next : α → Scan β} {cursor after : Cursor}

theorem bind_eq_ok_iff {value : β} :
    (scan >>= next) cursor = .ok (value, after) ↔
      ∃ a between, scan cursor = .ok (a, between) ∧ next a between = .ok (value, after) := by
  simp only [bind, StateT.bind, Except.bind]
  cases scan cursor with
  | error stop => simp
  | ok pair => simp [Prod.ext_iff]

theorem bind_eq_error_iff {stop : Option ScanError} :
    (scan >>= next) cursor = .error stop ↔
      scan cursor = .error stop ∨
        ∃ a between, scan cursor = .ok (a, between) ∧ next a between = .error stop := by
  simp only [bind, StateT.bind, Except.bind]
  cases scan cursor with
  | error stop => simp
  | ok pair => simp [Prod.ext_iff]

theorem pure_eq_ok_iff {a value : α} :
    (pure a : Scan α) cursor = .ok (value, after) ↔ value = a ∧ after = cursor := by
  change Except.ok (a, cursor) = Except.ok (value, after) ↔ _
  rw [Except.ok.injEq, Prod.mk.injEq, eq_comm, @eq_comm _ cursor]

theorem reject_apply (source : Source) (word : String) (cause : SyntaxCause) :
    (reject source word cause : Scan α) cursor =
      .error (some (.malformed ⟨source.name, cursor.wordRow, word, cause⟩)) :=
  rfl

end Sequencing

variable {source : Source} {keyword : String} {cursor after : Cursor}

/-- An operand is a word; only its absence is judged differently. -/
theorem operand_eq_ok_iff {text : String} :
    operand source keyword cursor = .ok (text, after) ↔
      word source cursor = .ok (text, after) := by
  unfold operand
  split
  · next missing =>
      rw [missing, reject_apply]
      simp
  · exact Iff.rfl

theorem number_eq_ok_iff {α : Type} {read : String → Except NumberFault α} {value : α} :
    number source keyword read cursor = .ok (value, after) ↔
      ∃ text, word source cursor = .ok (text, after) ∧ read text = .ok value := by
  unfold number
  simp only [bind_eq_ok_iff, operand_eq_ok_iff]
  constructor
  · rintro ⟨text, between, isWord, accepted⟩
    cases found : read text with
    | error fault =>
        rw [found] at accepted
        cases accepted
    | ok result =>
        rw [found] at accepted
        cases accepted
        exact ⟨text, isWord, found⟩
  · rintro ⟨text, isWord, found⟩
    refine ⟨text, after, isWord, ?_⟩
    rw [found]
    rfl

theorem float_eq_ok_iff {value : Binary32} :
    float source keyword cursor = .ok (value, after) ↔
      ∃ text, word source cursor = .ok (text, after) ∧ Binary32.read? text = some value := by
  unfold float
  rw [number_eq_ok_iff]
  refine exists_congr fun text => and_congr_right fun _ => ?_
  cases Binary32.read? text <;> simp

theorem arity_eq_ok_iff {count : Nat} :
    arity source keyword cursor = .ok (count, after) ↔
      ∃ text index, word source cursor = .ok (text, after) ∧ readIndex text = .ok index ∧
        index.toInt.toNat = count ∧ count ≤ maxArity := by
  unfold arity index
  simp only [bind_eq_ok_iff, number_eq_ok_iff]
  constructor
  · rintro ⟨index, between, ⟨text, isWord, found⟩, accepted⟩
    split at accepted
    · cases accepted
    · next small =>
        cases accepted
        exact ⟨text, index, isWord, found, rfl, Nat.le_of_not_lt small⟩
  · rintro ⟨text, index, isWord, found, rfl, small⟩
    refine ⟨index, after, ⟨text, isWord, found⟩, ?_⟩
    rw [if_neg (Nat.not_lt.mpr small)]
    rfl

end Scan

/-! ## The words of a source -/

/-- The words that stand between two cursors of a source. -/
inductive Source.Words (source : Source) : Cursor → List String → Cursor → Prop
  | nil (cursor : Cursor) : Words source cursor [] cursor
  | cons {cursor between after : Cursor} {text : String} {texts : List String} :
      Scan.word source cursor = .ok (text, between) → Words source between texts after →
      Words source cursor (text :: texts) after

namespace Source

variable {source : Source} {cursor after : Cursor}

theorem words_nil_iff : source.Words cursor [] after ↔ after = cursor := by
  constructor
  · rintro ⟨⟩
    rfl
  · rintro rfl
    exact .nil after

theorem words_cons_iff {text : String} {texts : List String} :
    source.Words cursor (text :: texts) after ↔
      ∃ between, Scan.word source cursor = .ok (text, between) ∧
        source.Words between texts after := by
  constructor
  · rintro (_ | ⟨isWord, rest⟩)
    exact ⟨_, isWord, rest⟩
  · rintro ⟨between, isWord, rest⟩
    exact .cons isWord rest

theorem words_append_iff {front back : List String} :
    source.Words cursor (front ++ back) after ↔
      ∃ between, source.Words cursor front between ∧ source.Words between back after := by
  induction front generalizing cursor with
  | nil => simp [words_nil_iff]
  | cons text front ih =>
      simp only [List.cons_append, words_cons_iff, ih]
      constructor
      · rintro ⟨first, isWord, between, front, back⟩
        exact ⟨between, ⟨first, isWord, front⟩, back⟩
      · rintro ⟨between, ⟨first, isWord, front⟩, back⟩
        exact ⟨first, isWord, between, front, back⟩

end Source

theorem Scan.types_eq_ok_iff {source : Source} {keyword : String} {cursor after : Cursor}
    {count : Nat} {params : List DeclaredType} :
    types source keyword count cursor = .ok (params, after) ↔
      ∃ texts, source.Words cursor texts after ∧ texts.length = count ∧
        params = texts.map DeclaredType.ofWord := by
  induction count generalizing cursor after params with
  | zero =>
      simp only [types, pure_eq_ok_iff, List.length_eq_zero_iff]
      constructor
      · rintro ⟨rfl, rfl⟩
        exact ⟨[], .nil _, rfl, rfl⟩
      · rintro ⟨_, words, rfl, rfl⟩
        exact ⟨rfl, Source.words_nil_iff.mp words⟩
  | succ count ih =>
      simp only [types, bind_eq_ok_iff, operand_eq_ok_iff, ih, pure_eq_ok_iff]
      constructor
      · rintro ⟨text, between, isWord, rest, _, ⟨texts, words, rfl, rfl⟩, rfl, rfl⟩
        exact ⟨text :: texts, .cons isWord words, rfl, rfl⟩
      · rintro ⟨_, words, length, rfl⟩
        cases words with
        | nil => cases length
        | cons isWord words =>
            exact ⟨_, _, isWord, _, after, ⟨_, words, Nat.succ.inj length, rfl⟩, rfl, rfl⟩

/-! ## The token of some words -/

/-- The opcodes whose one operand is an index. -/
def Opcode.takesIndex : Opcode → Bool
  | .load | .store | .label | .goto | .branch => true
  | _ => false

/-- The opcodes without operands. -/
def Opcode.takesNothing : Opcode → Bool
  | .defun | .pushi | .pushf | .stores | .call => false
  | opcode => !opcode.takesIndex

/-- The token that an opcode makes with the words of its operands. -/
inductive Token.OfWords : Opcode → List String → Token → Prop
  | bare {opcode : Opcode} : opcode.takesNothing = true → OfWords opcode [] { opcode }
  | int {text : String} {int : Int32} :
      readInt32 text = .ok int → OfWords .pushi [text] { opcode := .pushi, int }
  | float {text : String} {float : Binary32} :
      Binary32.read? text = some float → OfWords .pushf [text] { opcode := .pushf, float }
  | index {opcode : Opcode} {text : String} {index : Int64} :
      opcode.takesIndex = true → readIndex text = .ok index →
      OfWords opcode [text] { opcode, index }
  | literal {first second name : String} {index size : Int64} :
      readIndex first = .ok index → readIndex second = .ok size →
      OfWords .stores [first, second, name] { opcode := .stores, index, size, name }
  | call {name : String} : OfWords .call [name] { opcode := .call, name }
  | header {name digits result : String} {count : Int64} {params : List String} :
      readIndex digits = .ok count → count.toInt.toNat = params.length →
      params.length ≤ maxArity →
      OfWords .defun (name :: digits :: (params ++ [result]))
        { opcode := .defun, name, params := params.map .ofWord, result := .ofWord result }

namespace Scan

variable {source : Source} {keyword : String} {cursor after : Cursor}

theorem header_eq_ok_iff {token : Token} :
    header source keyword cursor = .ok (token, after) ↔
      ∃ words, source.Words cursor words after ∧ Token.OfWords .defun words token := by
  simp only [header, bind_eq_ok_iff, operand_eq_ok_iff, arity_eq_ok_iff, types_eq_ok_iff,
    pure_eq_ok_iff]
  constructor
  · rintro ⟨name, _, isName, _, _, ⟨digits, count, isCount, read, rfl, small⟩, _, _,
      ⟨params, isParams, length, rfl⟩, result, _, isResult, rfl, rfl⟩
    refine ⟨name :: digits :: (params ++ [result]), ?_, .header read length.symm (length ▸ small)⟩
    have last : source.Words _ [result] _ := .cons isResult (.nil _)
    exact .cons isName (.cons isCount (Source.words_append_iff.mpr ⟨_, isParams, last⟩))
  · rintro ⟨_, words, spelled⟩
    cases spelled with
    | bare takesNothing => cases takesNothing
    | index takesIndex => cases takesIndex
    | @header name digits result count params read length small =>
        simp only [Source.words_cons_iff, Source.words_append_iff, Source.words_nil_iff] at words
        obtain ⟨afterName, isName, afterCount, isCount, afterParams, isParams, _, isResult, rfl⟩ :=
          words
        exact ⟨name, afterName, isName, params.length, afterCount,
          ⟨digits, count, isCount, read, length, small⟩, _, afterParams,
          ⟨params, isParams, rfl, rfl⟩, result, _, isResult, rfl, rfl⟩

/-- The operands of an opcode are scanned exactly if their words are there. -/
theorem operands_eq_ok_iff {opcode : Opcode} {token : Token} :
    operands source keyword opcode cursor = .ok (token, after) ↔
      ∃ words, source.Words cursor words after ∧ Token.OfWords opcode words token := by
  constructor
  · intro scanned
    unfold operands at scanned
    split at scanned
    · exact header_eq_ok_iff.mp scanned
    · simp only [bind_eq_ok_iff, number_eq_ok_iff, pure_eq_ok_iff] at scanned
      obtain ⟨int, _, ⟨text, isWord, read⟩, rfl, rfl⟩ := scanned
      exact ⟨[text], .cons isWord (.nil _), .int read⟩
    · simp only [bind_eq_ok_iff, float_eq_ok_iff, pure_eq_ok_iff] at scanned
      obtain ⟨float, _, ⟨text, isWord, read⟩, rfl, rfl⟩ := scanned
      exact ⟨[text], .cons isWord (.nil _), .float read⟩
    -- The five opcodes with one index.
    iterate 5
      simp only [index, bind_eq_ok_iff, number_eq_ok_iff, pure_eq_ok_iff] at scanned
      obtain ⟨index, _, ⟨text, isWord, read⟩, rfl, rfl⟩ := scanned
      exact ⟨[text], .cons isWord (.nil _), .index rfl read⟩
    · simp only [index, bind_eq_ok_iff, number_eq_ok_iff, operand_eq_ok_iff, pure_eq_ok_iff]
        at scanned
      obtain ⟨index, _, ⟨first, isFirst, readFirst⟩, size, _, ⟨second, isSecond, readSecond⟩,
        name, _, isName, rfl, rfl⟩ := scanned
      exact ⟨[first, second, name], .cons isFirst (.cons isSecond (.cons isName (.nil _))),
        .literal readFirst readSecond⟩
    · simp only [bind_eq_ok_iff, operand_eq_ok_iff, pure_eq_ok_iff] at scanned
      obtain ⟨name, _, isName, rfl, rfl⟩ := scanned
      exact ⟨[name], .cons isName (.nil _), .call⟩
    · obtain ⟨rfl, rfl⟩ := pure_eq_ok_iff.mp scanned
      refine ⟨[], .nil _, .bare ?_⟩
      cases opcode <;> first | rfl | contradiction
  · rintro ⟨_, words, spelled⟩
    cases spelled with
    | bare takesNothing =>
        obtain rfl := Source.words_nil_iff.mp words
        cases opcode <;> first | rfl | cases takesNothing
    | int read =>
        simp only [Source.words_cons_iff, Source.words_nil_iff] at words
        obtain ⟨_, isWord, rfl⟩ := words
        exact bind_eq_ok_iff.mpr ⟨_, _, number_eq_ok_iff.mpr ⟨_, isWord, read⟩, rfl⟩
    | float read =>
        simp only [Source.words_cons_iff, Source.words_nil_iff] at words
        obtain ⟨_, isWord, rfl⟩ := words
        exact bind_eq_ok_iff.mpr ⟨_, _, float_eq_ok_iff.mpr ⟨_, isWord, read⟩, rfl⟩
    | index takesIndex read =>
        simp only [Source.words_cons_iff, Source.words_nil_iff] at words
        obtain ⟨_, isWord, rfl⟩ := words
        have scanned : number source keyword readIndex cursor = .ok (_, _) :=
          number_eq_ok_iff.mpr ⟨_, isWord, read⟩
        cases opcode <;> first
          | exact bind_eq_ok_iff.mpr ⟨_, _, scanned, rfl⟩
          | cases takesIndex
    | literal readFirst readSecond =>
        simp only [Source.words_cons_iff, Source.words_nil_iff] at words
        obtain ⟨_, isFirst, _, isSecond, _, isName, rfl⟩ := words
        exact bind_eq_ok_iff.mpr ⟨_, _, number_eq_ok_iff.mpr ⟨_, isFirst, readFirst⟩,
          bind_eq_ok_iff.mpr ⟨_, _, number_eq_ok_iff.mpr ⟨_, isSecond, readSecond⟩,
            bind_eq_ok_iff.mpr ⟨_, _, operand_eq_ok_iff.mpr isName, rfl⟩⟩⟩
    | call =>
        simp only [Source.words_cons_iff, Source.words_nil_iff] at words
        obtain ⟨_, isName, rfl⟩ := words
        exact bind_eq_ok_iff.mpr ⟨_, _, operand_eq_ok_iff.mpr isName, rfl⟩
    | header read length small =>
        exact header_eq_ok_iff.mpr ⟨_, words, .header read length small⟩

/-- An instruction is scanned exactly if its keyword and operands are there; its row is the row of
the keyword. -/
theorem instruction_eq_ok_iff {found : Instruction} :
    instruction source cursor = .ok (found, after) ↔
      ∃ keyword opcode between words, word source cursor = .ok (keyword, between) ∧
        Opcode.ofKeyword? keyword = some opcode ∧ source.Words between words after ∧
        Token.OfWords opcode words found.token ∧ found.row = between.wordRow := by
  unfold instruction
  rw [bind_eq_ok_iff]
  constructor
  · rintro ⟨keyword, between, isKeyword, scanned⟩
    obtain ⟨here, _, got, scanned⟩ := bind_eq_ok_iff.mp scanned
    cases got
    cases found : Opcode.ofKeyword? keyword with
    | none =>
        rw [found] at scanned
        cases scanned
    | some opcode =>
        rw [found] at scanned
        obtain ⟨token, _, isToken, scanned⟩ := bind_eq_ok_iff.mp scanned
        obtain ⟨rfl, rfl⟩ := pure_eq_ok_iff.mp scanned
        obtain ⟨words, isWords, spelled⟩ := operands_eq_ok_iff.mp isToken
        exact ⟨keyword, opcode, between, words, isKeyword, found, isWords, spelled, rfl⟩
  · rintro ⟨keyword, opcode, between, words, isKeyword, isOpcode, isWords, spelled, isRow⟩
    refine ⟨keyword, between, isKeyword, bind_eq_ok_iff.mpr ⟨between, between, rfl, ?_⟩⟩
    rw [isOpcode]
    have scanned : operands source keyword opcode between = .ok (found.token, after) :=
      operands_eq_ok_iff.mpr ⟨words, isWords, spelled⟩
    refine bind_eq_ok_iff.mpr ⟨found.token, after, scanned, pure_eq_ok_iff.mpr ⟨?_, rfl⟩⟩
    rw [← isRow]

end Scan

/-! ## The instructions of a source -/

/-- The instructions that stand between two cursors of a source. -/
inductive Source.Scans (source : Source) : Cursor → List Instruction → Cursor → Prop
  | nil (cursor : Cursor) : Scans source cursor [] cursor
  | cons {cursor between after : Cursor} {found : Instruction} {rest : List Instruction} :
      Scan.instruction source cursor = .ok (found, between) → Scans source between rest after →
      Scans source cursor (found :: rest) after

namespace Tokenizer

variable {source : Source} {cursor after : Cursor}

theorem streamFrom_of_ok {found : Instruction}
    (scanned : Scan.instruction source cursor = .ok (found, after)) :
    streamFrom source cursor =
      ⟨found :: (streamFrom source after).instructions, (streamFrom source after).failure⟩ := by
  rw [streamFrom]
  split
  · next scanned' =>
      rw [scanned] at scanned'
      cases scanned'
      rfl
  · next scanned' =>
      rw [scanned] at scanned'
      cases scanned'

theorem streamFrom_of_error {stop : Option ScanError}
    (scanned : Scan.instruction source cursor = .error stop) :
    streamFrom source cursor = ⟨[], stop⟩ := by
  rw [streamFrom]
  split
  · next scanned' =>
      rw [scanned] at scanned'
      cases scanned'
  · next scanned' =>
      rw [scanned] at scanned'
      cases scanned'
      rfl

/-- The stream behind some instructions. -/
theorem streamFrom_of_scans {instructions : List Instruction}
    (scans : source.Scans cursor instructions after) :
    streamFrom source cursor = ⟨instructions ++ (streamFrom source after).instructions,
      (streamFrom source after).failure⟩ := by
  induction scans with
  | nil => rfl
  | cons scanned _ ih =>
      rw [streamFrom_of_ok scanned, ih]
      rfl

theorem exists_scans_streamFrom (source : Source) (cursor : Cursor) :
    ∃ last, source.Scans cursor (streamFrom source cursor).instructions last ∧
      Scan.instruction source last = .error (streamFrom source cursor).failure := by
  fun_induction streamFrom source cursor with
  | case1 cursor first after scanned rest ih =>
      obtain ⟨last, scans, stops⟩ := ih
      exact ⟨last, .cons scanned scans, stops⟩
  | case2 cursor stop scanned => exact ⟨cursor, .nil cursor, scanned⟩

/-- A stream is the instructions up to the first that cannot be scanned, and why. -/
theorem streamFrom_eq_iff {instructions : List Instruction} {stop : Option ScanError} :
    streamFrom source cursor = ⟨instructions, stop⟩ ↔
      ∃ last, source.Scans cursor instructions last ∧
        Scan.instruction source last = .error stop := by
  constructor
  · intro isStream
    have scans := exists_scans_streamFrom source cursor
    rw [isStream] at scans
    exact scans
  · rintro ⟨last, scans, stops⟩
    induction scans with
    | nil cursor => exact streamFrom_of_error stops
    | cons scanned scans ih => rw [streamFrom_of_ok scanned, ih stops]

end Tokenizer

end StackMachine
