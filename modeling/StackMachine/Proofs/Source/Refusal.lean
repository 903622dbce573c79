import Mathlib
import StackMachine.Proofs.Program.Loading
import StackMachine.Proofs.Source.Rows

/-!
# Why an instruction is not scanned

An instruction is scanned exactly if its words are there (`Scan.instruction_eq_ok_iff`).  This
module has the other half.  `Opcode.Wants` says behind which operands a further one is needed, and
`Opcode.Refuses` which word is no number where one is needed; neither mentions scanning.  Scanning
an instruction stops exactly if a word is needed that cannot be read, a word is refused, or a header
declares too many parameters (`Scan.instruction_eq_error_iff`).
-/

namespace StackMachine

namespace Opcode

/-- A further operand is needed behind these: they begin the operands of a token. -/
def Wants (opcode : Opcode) (operands : List String) : Prop :=
  ∃ more token, more ≠ [] ∧ Token.OfWords opcode (operands ++ more) token

/-- The word behind some operands ought to be a number and is none. -/
inductive Refuses : Opcode → List String → String → NumberFault → Prop
  | int {text : String} {fault : NumberFault} :
      readInt32 text = .error fault → Refuses .pushi [] text fault
  | float {text : String} :
      Binary32.read? text = none → Refuses .pushf [] text .syntactic
  | index {opcode : Opcode} {text : String} {fault : NumberFault} :
      opcode.takesIndex = true → readIndex text = .error fault → Refuses opcode [] text fault
  | address {text : String} {fault : NumberFault} :
      readIndex text = .error fault → Refuses .stores [] text fault
  | size {first text : String} {index : Int64} {fault : NumberFault} :
      readIndex first = .ok index → readIndex text = .error fault →
      Refuses .stores [first] text fault
  | arity {name text : String} {fault : NumberFault} :
      readIndex text = .error fault → Refuses .defun [name] text fault

/-! ## Which operands are needed -/

theorem Wants.of_append {opcode : Opcode} {front back : List String}
    (wants : opcode.Wants (front ++ back)) : opcode.Wants front := by
  obtain ⟨more, token, nonempty, made⟩ := wants
  rw [List.append_assoc] at made
  exact ⟨back ++ more, token, List.append_ne_nil_of_right_ne_nil back nonempty, made⟩

theorem readIndex_zero : readIndex "0" = .ok 0 := by decide

theorem takesNothing_of_takesIndex {opcode : Opcode} (takesIndex : opcode.takesIndex = true) :
    opcode.takesNothing = false := by
  cases opcode <;> first | rfl | cases takesIndex

theorem not_wants_of_takesNothing {opcode : Opcode} {operands : List String}
    (takesNothing : opcode.takesNothing = true) : ¬ opcode.Wants operands := by
  rintro ⟨more, token, nonempty, made⟩
  generalize isWords : operands ++ more = words at made
  cases made with
  | bare => exact nonempty (List.append_eq_nil_iff.mp isWords).2
  | index takesIndex =>
      rw [takesNothing_of_takesIndex takesIndex] at takesNothing
      cases takesNothing
  | _ => cases takesNothing

theorem eq_nil_of_append_singleton {operands more : List String} {word : String}
    (same : operands ++ more = [word]) (nonempty : more ≠ []) : operands = [] := by
  rcases List.append_eq_singleton_iff.mp same with ⟨isNil, -⟩ | ⟨-, isNil⟩
  · exact isNil
  · exact absurd isNil nonempty

/-- The opcodes with one operand need it behind no other. -/
theorem Wants.eq_nil {opcode : Opcode} {operands : List String} (wants : opcode.Wants operands)
    (notStores : opcode ≠ .stores) (notHeader : opcode ≠ .defun) : operands = [] := by
  obtain ⟨more, token, nonempty, made⟩ := wants
  generalize isWords : operands ++ more = words at made
  cases made with
  | bare => exact (List.append_eq_nil_iff.mp isWords).1
  | literal => exact absurd rfl notStores
  | header => exact absurd rfl notHeader
  | int | float | index | call => exact eq_nil_of_append_singleton isWords nonempty

theorem wants_stores_iff {operands : List String} :
    Wants .stores operands ↔
      operands = [] ∨
      (∃ first index, operands = [first] ∧ readIndex first = .ok index) ∨
      ∃ first second index size, operands = [first, second] ∧ readIndex first = .ok index ∧
        readIndex second = .ok size := by
  constructor
  · rintro ⟨more, token, nonempty, made⟩
    generalize isWords : operands ++ more = words at made
    cases made with
    | bare takesNothing => cases takesNothing
    | index takesIndex => cases takesIndex
    | @literal first second name index size readFirst readSecond =>
        match operands with
        | [] => exact .inl rfl
        | [_] =>
            cases isWords
            exact .inr (.inl ⟨first, index, rfl, readFirst⟩)
        | [_, _] =>
            cases isWords
            exact .inr (.inr ⟨first, second, index, size, rfl, readFirst, readSecond⟩)
        | _ :: _ :: _ :: _ =>
            have tooMany := (List.cons.inj (List.cons.inj (List.cons.inj isWords).2).2).2
            exact absurd (List.append_eq_nil_iff.mp tooMany).2 nonempty
  · rintro (rfl | ⟨first, index, rfl, readFirst⟩ |
      ⟨first, second, index, size, rfl, readFirst, readSecond⟩)
    · exact ⟨["0", "0", ""], _, List.cons_ne_nil _ _, .literal readIndex_zero readIndex_zero⟩
    · exact ⟨["0", ""], _, List.cons_ne_nil _ _, .literal readFirst readIndex_zero⟩
    · exact ⟨[""], _, List.cons_ne_nil _ _, .literal readFirst readSecond⟩

/-- Behind its arity a header needs as many types as it declares, and one more. -/
theorem wants_header (name : String) (types : List String) {digits : String} {count : Int64}
    (read : readIndex digits = .ok count) (small : count.toInt.toNat ≤ maxArity)
    (few : types.length ≤ count.toInt.toNat) : Wants .defun ([name] ++ (digits :: types)) := by
  let padding := List.replicate (count.toInt.toNat - types.length) "int"
  have length : (types ++ padding).length = count.toInt.toNat := by
    rw [List.length_append, List.length_replicate]
    omega
  have made : Token.OfWords .defun (name :: digits :: (types ++ padding ++ ["int"])) _ :=
    .header read length.symm (length.symm ▸ small)
  rw [List.append_assoc] at made
  exact ⟨padding ++ ["int"], _, by simp, made⟩

theorem wants_defun_iff {operands : List String} :
    Wants .defun operands ↔
      operands = [] ∨ (∃ name, operands = [name]) ∨
      ∃ name digits count types, operands = name :: digits :: types ∧
        readIndex digits = .ok count ∧ count.toInt.toNat ≤ maxArity ∧
        types.length ≤ count.toInt.toNat := by
  constructor
  · rintro ⟨more, token, nonempty, made⟩
    generalize isWords : operands ++ more = words at made
    cases made with
    | bare takesNothing => cases takesNothing
    | index takesIndex => cases takesIndex
    | @header name digits result count params read length small =>
        match operands with
        | [] => exact .inl rfl
        | [name] => exact .inr (.inl ⟨name, rfl⟩)
        | first :: second :: types =>
            obtain ⟨isDigits, isTypes⟩ := List.cons.inj (List.cons.inj isWords).2
            refine .inr (.inr
              ⟨first, second, count, types, rfl, isDigits ▸ read, length ▸ small, ?_⟩)
            have total : (types ++ more).length = (params ++ [result]).length :=
              congrArg List.length isTypes
            have further := List.length_pos_iff.mpr nonempty
            simp only [List.length_append, List.length_singleton] at total
            omega
  · rintro (rfl | ⟨name, rfl⟩ | ⟨name, digits, count, types, rfl, read, small, few⟩)
    · exact @Wants.of_append .defun [] _ (wants_header "" [] readIndex_zero (by decide) (by decide))
    · exact (wants_header name [] readIndex_zero (by decide) (by decide)).of_append
    · exact wants_header name types read small few

/-- An opcode that takes operands needs a first one. -/
theorem wants_nil {opcode : Opcode} (takes : opcode.takesNothing = false) : opcode.Wants [] := by
  have single {word : String} {token : Token} (made : Token.OfWords opcode [word] token) :
      opcode.Wants [] := ⟨[word], token, List.cons_ne_nil _ _, made⟩
  have readNaN : Binary32.read? "nan" = some .nan := rfl
  cases opcode with
  | defun => exact wants_defun_iff.mpr (.inl rfl)
  | pushi => exact single (.int (readInt32_toString 0))
  | pushf => exact single (.float readNaN)
  | stores => exact wants_stores_iff.mpr (.inl rfl)
  | call => exact single (@Token.OfWords.call "")
  | load | store | label | goto | branch => exact single (.index rfl readIndex_zero)
  | _ => cases takes

/-- A word is refused only where one is needed. -/
theorem Refuses.wants {opcode : Opcode} {operands : List String} {text : String}
    {fault : NumberFault} (refuses : opcode.Refuses operands text fault) :
    opcode.Wants operands := by
  cases refuses with
  | size read => exact wants_stores_iff.mpr (.inr (.inl ⟨_, _, rfl, read⟩))
  | arity => exact wants_defun_iff.mpr (.inr (.inl ⟨_, rfl⟩))
  | index takesIndex => exact wants_nil (takesNothing_of_takesIndex takesIndex)
  | int | float | address => exact wants_nil rfl

end Opcode

/-- Behind the words of a token none is needed. -/
theorem Token.OfWords.not_wants {opcode : Opcode} {words : List String} {token : Token}
    (made : OfWords opcode words token) (more : List String) :
    ¬ opcode.Wants (words ++ more) := by
  intro wants
  have wants := wants.of_append
  cases made with
  | bare takesNothing => exact Opcode.not_wants_of_takesNothing takesNothing wants
  | int | float | call => cases wants.eq_nil (by decide) (by decide)
  | index takesIndex =>
      cases wants.eq_nil (by rintro rfl; cases takesIndex) (by rintro rfl; cases takesIndex)
  | literal => simp [Opcode.wants_stores_iff] at wants
  | header read length =>
      rcases Opcode.wants_defun_iff.mp wants with isNil | ⟨_, isSingle⟩ |
        ⟨_, _, count, types, same, readAgain, -, few⟩
      · cases isNil
      · cases isSingle
      · obtain ⟨rfl, rfl⟩ := List.cons.inj (List.cons.inj same).2
        rw [read] at readAgain
        cases readAgain
        rw [List.length_append, List.length_singleton] at few
        omega

/-! ## Where scanning stops -/

theorem Source.words_singleton_iff {source : Source} {cursor last : Cursor} {text : String} :
    source.Words cursor [text] last ↔
      ∃ after, Scan.word source cursor = .ok (text, after) ∧ last = after := by
  simp only [words_cons_iff, words_nil_iff]

namespace Scan

variable {source : Source} {keyword : String} {cursor : Cursor} {stop : Option ScanError}

theorem not_pure_eq_error {α : Type} {a : α} : ¬ (pure a : Scan α) cursor = .error stop :=
  nofun

/-- An operand cannot be read if there is none, or for the reason that no word can. -/
theorem operand_eq_error_iff :
    operand source keyword cursor = .error stop ↔
      (word source cursor = .error none ∧
        stop = some (.malformed ⟨source.name, cursor.wordRow, keyword, .missingOperand⟩)) ∨
      ∃ error, word source cursor = .error (some error) ∧ stop = some error := by
  unfold operand
  split
  · next missing =>
      rw [missing, reject_apply]
      simp [eq_comm]
  · next read =>
      cases result : word source cursor with
      | ok pair => simp
      | error reason =>
          cases reason with
          | none => exact absurd result read
          | some error => simp [eq_comm]

theorem number_eq_error_iff {α : Type} {read : String → Except NumberFault α} :
    number source keyword read cursor = .error stop ↔
      operand source keyword cursor = .error stop ∨
      ∃ text after fault, word source cursor = .ok (text, after) ∧ read text = .error fault ∧
        stop = some (.malformed ⟨source.name, after.wordRow, text, .invalidNumber fault⟩) := by
  unfold number
  simp only [bind_eq_error_iff, operand_eq_ok_iff]
  refine or_congr_right ⟨?_, ?_⟩
  · rintro ⟨text, after, isWord, stopped⟩
    cases result : read text with
    | ok value =>
        rw [result] at stopped
        cases stopped
    | error fault =>
        rw [result] at stopped
        cases stopped
        exact ⟨text, after, fault, isWord, result, rfl⟩
  · rintro ⟨text, after, fault, isWord, result, rfl⟩
    refine ⟨text, after, isWord, ?_⟩
    rw [result]
    rfl

theorem float_eq_error_iff :
    float source keyword cursor = .error stop ↔
      operand source keyword cursor = .error stop ∨
      ∃ text after, word source cursor = .ok (text, after) ∧ Binary32.read? text = none ∧
        stop = some (.malformed ⟨source.name, after.wordRow, text, .invalidNumber .syntactic⟩) := by
  unfold float
  rw [number_eq_error_iff]
  refine or_congr_right (exists_congr fun text => exists_congr fun after => ?_)
  cases Binary32.read? text <;> simp

theorem types_eq_error_iff {count : Nat} :
    types source keyword count cursor = .error stop ↔
      ∃ texts last, source.Words cursor texts last ∧ texts.length < count ∧
        operand source keyword last = .error stop := by
  induction count generalizing cursor with
  | zero => simp [types, not_pure_eq_error]
  | succ count ih =>
      simp only [types, bind_eq_error_iff, operand_eq_ok_iff, ih, not_pure_eq_error, and_false,
        exists_false, or_false]
      constructor
      · rintro (stopped | ⟨text, between, isWord, texts, last, read, few, stopped⟩)
        · exact ⟨[], cursor, .nil cursor, Nat.succ_pos count, stopped⟩
        · exact ⟨text :: texts, last, .cons isWord read, Nat.succ_lt_succ few, stopped⟩
      · rintro ⟨texts, last, read, few, stopped⟩
        cases read with
        | nil => exact .inl stopped
        | cons isWord read =>
            exact .inr ⟨_, _, isWord, _, last, read, Nat.lt_of_succ_lt_succ few, stopped⟩

theorem arity_eq_error_iff :
    arity source keyword cursor = .error stop ↔
      operand source keyword cursor = .error stop ∨
      (∃ text after fault, word source cursor = .ok (text, after) ∧ readIndex text = .error fault ∧
        stop = some (.malformed ⟨source.name, after.wordRow, text, .invalidNumber fault⟩)) ∨
      ∃ text after count, word source cursor = .ok (text, after) ∧ readIndex text = .ok count ∧
        maxArity < count.toInt.toNat ∧ stop = some .oversized := by
  unfold arity index
  rw [bind_eq_error_iff, number_eq_error_iff, or_assoc]
  refine or_congr_right (or_congr_right ⟨?_, ?_⟩)
  · rintro ⟨count, after, isIndex, stopped⟩
    obtain ⟨text, isWord, read⟩ := number_eq_ok_iff.mp isIndex
    split at stopped
    · next large =>
        cases stopped
        exact ⟨text, after, count, isWord, read, large, rfl⟩
    · cases stopped
  · rintro ⟨text, after, count, isWord, read, large, rfl⟩
    refine ⟨count, after, number_eq_ok_iff.mpr ⟨text, isWord, read⟩, ?_⟩
    rw [if_pos large]
    rfl

end Scan

/-- Behind some operands a further one is needed, and it cannot be read. -/
def Source.Lacks (source : Source) (keyword : String) (opcode : Opcode) (cursor : Cursor)
    (stop : Option ScanError) : Prop :=
  ∃ operands last, source.Words cursor operands last ∧ opcode.Wants operands ∧
    Scan.operand source keyword last = .error stop

/-- Behind some operands a word is refused. -/
def Source.Rejects (source : Source) (opcode : Opcode) (cursor : Cursor)
    (stop : Option ScanError) : Prop :=
  ∃ operands text fault last, source.Words cursor (operands ++ [text]) last ∧
    opcode.Refuses operands text fault ∧
    stop = some (.malformed ⟨source.name, last.wordRow, text, .invalidNumber fault⟩)

namespace Scan

variable {source : Source} {keyword : String} {cursor : Cursor} {stop : Option ScanError}

/-- A single word that is refused. -/
theorem rejects_of_word {opcode : Opcode} {text : String} {after : Cursor} {fault : NumberFault}
    (isWord : word source cursor = .ok (text, after)) (refuses : opcode.Refuses [] text fault)
    (isStop : stop =
      some (.malformed ⟨source.name, after.wordRow, text, .invalidNumber fault⟩)) :
    source.Rejects opcode cursor stop :=
  ⟨[], text, fault, after, .cons isWord (.nil after), refuses, isStop⟩

/-- A header stops a scan exactly if an operand is lacking, the arity is refused or the arity is too
large. -/
theorem header_eq_error_iff :
    header source keyword cursor = .error stop ↔
      source.Lacks keyword .defun cursor stop ∨ source.Rejects .defun cursor stop ∨
      ∃ name digits after count, source.Words cursor [name, digits] after ∧
        readIndex digits = .ok count ∧ maxArity < count.toInt.toNat ∧
        stop = some .oversized := by
  simp only [header, bind_eq_error_iff, operand_eq_ok_iff, arity_eq_ok_iff, arity_eq_error_iff,
    types_eq_ok_iff, types_eq_error_iff, not_pure_eq_error, and_false, exists_false, or_false]
  constructor
  · rintro (stopped | ⟨name, between, isName, (stopped |
      ⟨text, after, fault, isWord, read, isStop⟩ |
      ⟨text, after, count, isWord, read, large, isStop⟩)
      | ⟨_, middle, ⟨digits, count, isDigits, read, rfl, small⟩, stopped⟩⟩)
    · exact .inl ⟨[], cursor, .nil cursor, Opcode.wants_defun_iff.mpr (.inl rfl), stopped⟩
    · exact .inl ⟨[name], between, .cons isName (.nil between),
        Opcode.wants_defun_iff.mpr (.inr (.inl ⟨name, rfl⟩)), stopped⟩
    · exact .inr (.inl ⟨[name], text, fault, after, .cons isName (.cons isWord (.nil after)),
        .arity read, isStop⟩)
    · exact .inr (.inr ⟨name, text, after, count, .cons isName (.cons isWord (.nil after)), read,
        large, isStop⟩)
    · left
      have wants {types : List String} (few : types.length ≤ count.toInt.toNat) :
          Opcode.Wants .defun (name :: digits :: types) :=
        Opcode.wants_header name types read small few
      rcases stopped with ⟨types, last, isTypes, few, stopped⟩ |
        ⟨_, last, ⟨types, isTypes, length, rfl⟩, stopped⟩
      · exact ⟨name :: digits :: types, last, .cons isName (.cons isDigits isTypes),
          wants few.le, stopped⟩
      · exact ⟨name :: digits :: types, last, .cons isName (.cons isDigits isTypes),
          wants length.le, stopped⟩
  · rintro (⟨operands, last, read, wants, stopped⟩ |
      ⟨operands, text, fault, last, read, refuses, isStop⟩ |
      ⟨name, digits, last, count, read, isCount, large, isStop⟩)
    · rcases Opcode.wants_defun_iff.mp wants with rfl | ⟨name, rfl⟩ |
        ⟨name, digits, count, types, rfl, isCount, small, few⟩
      · obtain rfl := Source.words_nil_iff.mp read
        exact .inl stopped
      · simp only [Source.words_cons_iff, Source.words_nil_iff] at read
        obtain ⟨_, isName, rfl⟩ := read
        exact .inr ⟨name, _, isName, .inl (.inl stopped)⟩
      · obtain ⟨between, isName, read⟩ := Source.words_cons_iff.mp read
        obtain ⟨middle, isDigits, read⟩ := Source.words_cons_iff.mp read
        refine .inr ⟨name, between, isName, .inr ⟨_, middle,
          ⟨digits, count, isDigits, isCount, rfl, small⟩, ?_⟩⟩
        rcases few.lt_or_eq with fewer | length
        · exact .inl ⟨types, last, read, fewer, stopped⟩
        · exact .inr ⟨_, last, ⟨types, read, length, rfl⟩, stopped⟩
    · cases refuses with
      | index takesIndex => cases takesIndex
      | @arity name _ _ isFault =>
          simp only [List.cons_append, List.nil_append, Source.words_cons_iff,
            Source.words_nil_iff] at read
          obtain ⟨between, isName, _, isWord, rfl⟩ := read
          exact .inr ⟨name, between, isName, .inl (.inr (.inl
            ⟨text, _, fault, isWord, isFault, isStop⟩))⟩
    · simp only [Source.words_cons_iff, Source.words_nil_iff] at read
      obtain ⟨between, isName, _, isDigits, rfl⟩ := read
      exact .inr ⟨name, between, isName, .inl (.inr (.inr
        ⟨digits, _, count, isDigits, isCount, large, isStop⟩))⟩

/-- Without its first operand no operands are scanned. -/
theorem operands_of_operand {opcode : Opcode} (takes : opcode.takesNothing = false)
    (stopped : operand source keyword cursor = .error stop) :
    operands source keyword opcode cursor = .error stop := by
  have number {α : Type} (read : String → Except NumberFault α) :
      number source keyword read cursor = .error stop := number_eq_error_iff.mpr (.inl stopped)
  cases opcode <;> first
    | exact bind_eq_error_iff.mpr (.inl stopped)
    | exact bind_eq_error_iff.mpr (.inl (number _))
    | cases takes

/-- Apart from headers, operands stop a scan only if one is lacking or refused. -/
theorem operands_eq_error {opcode : Opcode} (notHeader : opcode ≠ .defun)
    (stopped : operands source keyword opcode cursor = .error stop) :
    source.Lacks keyword opcode cursor stop ∨ source.Rejects opcode cursor stop := by
  have lacks {opcode : Opcode} (takes : opcode.takesNothing = false)
      (stopped : operand source keyword cursor = .error stop) :
      source.Lacks keyword opcode cursor stop :=
    ⟨[], cursor, .nil cursor, Opcode.wants_nil takes, stopped⟩
  unfold operands at stopped
  split at stopped
  · exact absurd rfl notHeader
  · simp only [bind_eq_error_iff, number_eq_error_iff, not_pure_eq_error, and_false,
      exists_false, or_false] at stopped
    rcases stopped with stopped | ⟨text, after, fault, isWord, read, isStop⟩
    · exact .inl (lacks rfl stopped)
    · exact .inr (rejects_of_word isWord (.int read) isStop)
  · simp only [bind_eq_error_iff, float_eq_error_iff, not_pure_eq_error, and_false,
      exists_false, or_false] at stopped
    rcases stopped with stopped | ⟨text, after, isWord, read, isStop⟩
    · exact .inl (lacks rfl stopped)
    · exact .inr (rejects_of_word isWord (.float read) isStop)
  -- The five opcodes with one index.
  iterate 5
    simp only [index, bind_eq_error_iff, number_eq_error_iff, not_pure_eq_error, and_false,
      exists_false, or_false] at stopped
    rcases stopped with stopped | ⟨text, after, fault, isWord, read, isStop⟩
    · exact .inl (lacks rfl stopped)
    · exact .inr (rejects_of_word isWord (.index rfl read) isStop)
  · simp only [index, bind_eq_error_iff, number_eq_error_iff, number_eq_ok_iff,
      operand_eq_ok_iff, not_pure_eq_error, and_false, exists_false, or_false] at stopped
    rcases stopped with (stopped | ⟨text, after, fault, isWord, read, isStop⟩) |
      ⟨index, between, ⟨first, isFirst, readFirst⟩,
        (stopped | ⟨text, after, fault, isWord, read, isStop⟩) |
        ⟨size, last, ⟨second, isSecond, readSecond⟩, stopped⟩⟩
    · exact .inl (lacks rfl stopped)
    · exact .inr (rejects_of_word isWord (.address read) isStop)
    · exact .inl ⟨[first], between, .cons isFirst (.nil between),
        Opcode.wants_stores_iff.mpr (.inr (.inl ⟨first, index, rfl, readFirst⟩)), stopped⟩
    · exact .inr ⟨[first], text, fault, after, .cons isFirst (.cons isWord (.nil after)),
        .size readFirst read, isStop⟩
    · exact .inl ⟨[first, second], last, .cons isFirst (.cons isSecond (.nil last)),
        Opcode.wants_stores_iff.mpr
          (.inr (.inr ⟨first, second, index, size, rfl, readFirst, readSecond⟩)), stopped⟩
  · simp only [bind_eq_error_iff, not_pure_eq_error, and_false, exists_false, or_false]
      at stopped
    exact .inl (lacks rfl stopped)
  · cases stopped

theorem operands_of_lacks {opcode : Opcode} (notHeader : opcode ≠ .defun)
    (lacks : source.Lacks keyword opcode cursor stop) :
    operands source keyword opcode cursor = .error stop := by
  obtain ⟨words, last, read, wants, stopped⟩ := lacks
  by_cases isStores : opcode = .stores
  · subst isStores
    rcases Opcode.wants_stores_iff.mp wants with rfl | ⟨first, index, rfl, readFirst⟩ |
      ⟨first, second, index, size, rfl, readFirst, readSecond⟩
    all_goals simp only [Source.words_cons_iff, Source.words_nil_iff] at read
    · subst read
      exact operands_of_operand rfl stopped
    · obtain ⟨_, isFirst, rfl⟩ := read
      exact bind_eq_error_iff.mpr (.inr ⟨index, _,
        number_eq_ok_iff.mpr ⟨first, isFirst, readFirst⟩,
        bind_eq_error_iff.mpr (.inl (number_eq_error_iff.mpr (.inl stopped)))⟩)
    · obtain ⟨_, isFirst, _, isSecond, rfl⟩ := read
      exact bind_eq_error_iff.mpr (.inr ⟨index, _,
        number_eq_ok_iff.mpr ⟨first, isFirst, readFirst⟩,
        bind_eq_error_iff.mpr (.inr ⟨size, _,
          number_eq_ok_iff.mpr ⟨second, isSecond, readSecond⟩,
          bind_eq_error_iff.mpr (.inl stopped)⟩)⟩)
  · obtain rfl := wants.eq_nil isStores notHeader
    obtain rfl := Source.words_nil_iff.mp read
    refine operands_of_operand ?_ stopped
    by_contra takes
    exact Opcode.not_wants_of_takesNothing (by simpa using takes) wants

theorem operands_of_rejects {opcode : Opcode} (notHeader : opcode ≠ .defun)
    (rejects : source.Rejects opcode cursor stop) :
    operands source keyword opcode cursor = .error stop := by
  obtain ⟨words, text, fault, last, read, refuses, rfl⟩ := rejects
  have refused {α : Type} {read : String → Except NumberFault α} {before after : Cursor}
      (isWord : word source before = .ok (text, after)) (isFault : read text = .error fault) :
      number source keyword read before = .error
        (some (.malformed ⟨source.name, after.wordRow, text, .invalidNumber fault⟩)) :=
    number_eq_error_iff.mpr (.inr ⟨text, after, fault, isWord, isFault, rfl⟩)
  cases refuses with
  | int isFault =>
      obtain ⟨_, isWord, rfl⟩ := Source.words_singleton_iff.mp read
      exact bind_eq_error_iff.mpr (.inl (refused isWord isFault))
  | float isNone =>
      obtain ⟨_, isWord, rfl⟩ := Source.words_singleton_iff.mp read
      exact bind_eq_error_iff.mpr
        (.inl (float_eq_error_iff.mpr (.inr ⟨text, _, isWord, isNone, rfl⟩)))
  | index takesIndex isFault =>
      obtain ⟨_, isWord, rfl⟩ := Source.words_singleton_iff.mp read
      have stopped := refused isWord isFault
      cases opcode <;> first
        | exact bind_eq_error_iff.mpr (.inl stopped)
        | cases takesIndex
  | address isFault =>
      obtain ⟨_, isWord, rfl⟩ := Source.words_singleton_iff.mp read
      exact bind_eq_error_iff.mpr (.inl (refused isWord isFault))
  | @size first _ index _ readFirst isFault =>
      obtain ⟨_, isFirst, read⟩ := Source.words_cons_iff.mp read
      obtain ⟨_, isWord, rfl⟩ := Source.words_singleton_iff.mp read
      exact bind_eq_error_iff.mpr (.inr ⟨index, _,
        number_eq_ok_iff.mpr ⟨first, isFirst, readFirst⟩,
        bind_eq_error_iff.mpr (.inl (refused isWord isFault))⟩)
  | arity => exact absurd rfl notHeader

end Scan

/-- The reasons why no instruction is scanned at a cursor. -/
inductive Source.Halts (source : Source) (cursor : Cursor) : Option ScanError → Prop
  /-- No keyword can be read. -/
  | keyword {stop : Option ScanError} :
      Scan.word source cursor = .error stop → Halts source cursor stop
  /-- The first word is no keyword. -/
  | unknown {text : String} {after : Cursor} :
      Scan.word source cursor = .ok (text, after) → Opcode.ofKeyword? text = none →
      Halts source cursor
        (some (.malformed ⟨source.name, after.wordRow, text, .unknownKeyword⟩))
  /-- An operand is needed and cannot be read. -/
  | operand {keyword : String} {opcode : Opcode} {after : Cursor} {stop : Option ScanError} :
      Scan.word source cursor = .ok (keyword, after) → Opcode.ofKeyword? keyword = some opcode →
      source.Lacks keyword opcode after stop → Halts source cursor stop
  /-- An operand ought to be a number. -/
  | number {keyword : String} {opcode : Opcode} {after : Cursor} {stop : Option ScanError} :
      Scan.word source cursor = .ok (keyword, after) → Opcode.ofKeyword? keyword = some opcode →
      source.Rejects opcode after stop → Halts source cursor stop
  | oversized : source.OversizedAt cursor → Halts source cursor (some .oversized)

namespace Scan

variable {source : Source} {cursor : Cursor} {stop : Option ScanError}

/-- The operands of an opcode stop the scan of an instruction. -/
theorem instruction_of_operands {keyword : String} {opcode : Opcode} {after : Cursor}
    (isKeyword : word source cursor = .ok (keyword, after))
    (isOpcode : Opcode.ofKeyword? keyword = some opcode)
    (stopped : operands source keyword opcode after = .error stop) :
    instruction source cursor = .error stop := by
  refine bind_eq_error_iff.mpr (.inr ⟨keyword, after, isKeyword, ?_⟩)
  refine bind_eq_error_iff.mpr (.inr ⟨after, after, rfl, ?_⟩)
  rw [isOpcode]
  exact bind_eq_error_iff.mpr (.inl stopped)

/-- Scanning an instruction stops exactly for these reasons. -/
theorem instruction_eq_error_iff :
    instruction source cursor = .error stop ↔ source.Halts cursor stop := by
  constructor
  · intro stopped
    rcases bind_eq_error_iff.mp stopped with stopped | ⟨keyword, after, isKeyword, stopped⟩
    · exact .keyword stopped
    rcases bind_eq_error_iff.mp stopped with stopped | ⟨here, _, got, stopped⟩
    · cases stopped
    cases got
    cases found : Opcode.ofKeyword? keyword with
    | none =>
        rw [found] at stopped
        cases stopped
        exact .unknown isKeyword found
    | some opcode =>
        rw [found] at stopped
        simp only [bind_eq_error_iff, not_pure_eq_error, and_false, exists_false, or_false]
          at stopped
        by_cases isHeader : opcode = .defun
        · subst isHeader
          obtain rfl := eq_defun_of_ofKeyword? found
          rcases header_eq_error_iff.mp stopped with lacks | rejects |
            ⟨name, digits, last, count, read, isCount, large, rfl⟩
          · exact .operand isKeyword found lacks
          · exact .number isKeyword found rejects
          · exact .oversized ⟨name, digits, last, count, .cons isKeyword read, isCount, large⟩
        · rcases operands_eq_error isHeader stopped with lacks | rejects
          · exact .operand isKeyword found lacks
          · exact .number isKeyword found rejects
  · intro halts
    cases halts with
    | keyword stopped => exact bind_eq_error_iff.mpr (.inl stopped)
    | @unknown text after isWord isUnknown =>
        refine bind_eq_error_iff.mpr (.inr ⟨text, after, isWord, ?_⟩)
        refine bind_eq_error_iff.mpr (.inr ⟨after, after, rfl, ?_⟩)
        rw [isUnknown]
        rfl
    | @operand keyword opcode after _ isKeyword isOpcode lacks =>
        refine instruction_of_operands isKeyword isOpcode ?_
        by_cases isHeader : opcode = .defun
        · subst isHeader
          exact header_eq_error_iff.mpr (.inl lacks)
        · exact operands_of_lacks isHeader lacks
    | @number keyword opcode after _ isKeyword isOpcode rejects =>
        refine instruction_of_operands isKeyword isOpcode ?_
        by_cases isHeader : opcode = .defun
        · subst isHeader
          exact header_eq_error_iff.mpr (.inr (.inl rejects))
        · exact operands_of_rejects isHeader rejects
    | oversized oversized => exact instruction_oversized_iff.mpr oversized

end Scan

end StackMachine
