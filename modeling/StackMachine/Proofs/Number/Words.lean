import Mathlib
import StackMachine.Number.Integer

/-!
# The words that are whole numbers

`SpellsNat` and `SpellsInt` say which words are numbers and which number a word is, for words and
numbers of any length; `IntegerWord` and `IndexWord` cut them to the range of a machine word.
Reading accepts exactly these words, with these values (`readInt32_eq_ok_iff`,
`readIndex_eq_ok_iff`).
-/

namespace StackMachine

/-- One or more ASCII digits, and the number that they spell in the decimal system. -/
structure SpellsNat (digits : List Char) (number : Nat) : Prop where
  nonempty : digits ≠ []
  areDigits : ∀ c ∈ digits, c.isDigit = true
  value : Nat.ofDigitChars 10 digits 0 = number

/-- Digits with or without a sign before them. -/
inductive SpellsInt : List Char → Int → Prop where
  | unsigned {digits : List Char} {number : Nat} :
      SpellsNat digits number → SpellsInt digits number
  | plus {digits : List Char} {number : Nat} :
      SpellsNat digits number → SpellsInt ('+' :: digits) number
  | minus {digits : List Char} {number : Nat} :
      SpellsNat digits number → SpellsInt ('-' :: digits) (-number)

/-- A word that spells a number of 32 bits. -/
def IntegerWord (word : String) (value : Int32) : Prop :=
  ∃ number : Int, SpellsInt word.toList number ∧ -2 ^ 31 ≤ number ∧ number < 2 ^ 31 ∧
    value.toInt = number

/-- A word of digits that spells a number below `2 ^ 63`. -/
def IndexWord (word : String) (index : Int64) : Prop :=
  ∃ number : Nat, SpellsNat word.toList number ∧ number < 2 ^ 63 ∧ index.toInt = number

/-! ## Digits -/

theorem ofDigitChars_cons_digitValue (c : Char) (digits : List Char) (value : Nat) :
    Nat.ofDigitChars 10 (c :: digits) value =
      Nat.ofDigitChars 10 digits (value * 10 + digitValue c) := by
  rw [Nat.ofDigitChars_cons, Nat.mul_comm 10, digitValue]

theorem le_ofDigitChars (digits : List Char) (value : Nat) :
    value ≤ Nat.ofDigitChars 10 digits value := by
  induction digits generalizing value with
  | nil => exact Nat.le_of_eq Nat.ofDigitChars_nil.symm
  | cons c digits ih =>
      rw [ofDigitChars_cons_digitValue]
      exact Nat.le_trans (by omega) (ih _)

/-- Digits are read to the end exactly if the number that they spell is in range: a number that has
left the range does not come back. -/
theorem readDigitsFrom_eq_ok_iff {largest value number : Nat} {digits : List Char}
    (small : value ≤ largest) :
    readDigitsFrom largest value digits = .ok number ↔
      (∀ c ∈ digits, c.isDigit = true) ∧ Nat.ofDigitChars 10 digits value = number ∧
        number ≤ largest := by
  induction digits generalizing value with
  | nil =>
      simp only [readDigitsFrom, Except.ok.injEq, Nat.ofDigitChars_nil]
      constructor
      · rintro rfl
        exact ⟨List.forall_mem_nil _, rfl, small⟩
      · exact fun spelled => spelled.2.1
  | cons c digits ih =>
      simp only [readDigitsFrom, List.forall_mem_cons, ofDigitChars_cons_digitValue]
      by_cases isDigit : c.isDigit = true
      · by_cases inRange : value * 10 + digitValue c ≤ largest
        · simp only [isDigit, inRange, if_true, true_and]
          exact ih inRange
        · simp only [isDigit, inRange, if_true, if_false, true_and, reduceCtorEq, false_iff]
          rintro ⟨-, rfl, bounded⟩
          exact inRange ((le_ofDigitChars digits _).trans bounded)
      · simp [isDigit]

theorem readDigits_eq_ok_iff {largest number : Nat} {digits : List Char} :
    readDigits largest digits = .ok number ↔ SpellsNat digits number ∧ number ≤ largest := by
  unfold readDigits
  cases digits with
  | nil =>
      simp only [List.isEmpty_nil, if_true, reduceCtorEq, false_iff]
      rintro ⟨spelled, -⟩
      exact spelled.nonempty rfl
  | cons c digits =>
      simp only [List.isEmpty_cons, Bool.false_eq_true, if_false]
      rw [readDigitsFrom_eq_ok_iff (Nat.zero_le largest)]
      constructor
      · rintro ⟨areDigits, value, bounded⟩
        exact ⟨⟨List.cons_ne_nil c digits, areDigits, value⟩, bounded⟩
      · rintro ⟨spelled, bounded⟩
        exact ⟨spelled.areDigits, spelled.value, bounded⟩

/-! ## Signs -/

/-- A number with its sign. -/
def withSign (negative : Bool) (size : Nat) : Int := if negative then -size else size

theorem readSigned_eq_ok_iff {width : Nat} (positive : 0 < width) {negative : Bool}
    {digits : List Char} {number : Int} :
    readSigned width negative digits = .ok number ↔
      ∃ size, SpellsNat digits size ∧ number = withSign negative size ∧
        -2 ^ (width - 1) ≤ number ∧ number < 2 ^ (width - 1) := by
  have whole : 2 ^ width = 2 * 2 ^ (width - 1) := by
    rw [← Nat.pow_succ', Nat.succ_eq_add_one, Nat.sub_add_cancel positive]
  have halfPos : 0 < 2 ^ (width - 1) := Nat.two_pow_pos _
  have cast : ((2 ^ (width - 1) : Nat) : Int) = 2 ^ (width - 1) := by norm_cast
  -- Every number in range is also within the first bound, that of the unsigned numbers.
  have sizes (size : Nat) : readDigits (Nat.pow 2 width - 1) digits = .ok size ↔
      SpellsNat digits size ∧ size ≤ 2 ^ width - 1 := readDigits_eq_ok_iff
  unfold readSigned
  constructor
  · intro read
    split at read
    · cases read
    · next size isSize =>
        have spelled := ((sizes size).mp isSize).1
        refine ⟨size, spelled, ?_⟩
        cases negative with
        | true =>
            simp only [if_true, Nat.pow_eq] at read
            split at read
            · cases read
              exact ⟨rfl, by omega, by omega⟩
            · cases read
        | false =>
            simp only [Bool.false_eq_true, if_false, Nat.pow_eq] at read
            split at read
            · cases read
              exact ⟨rfl, by omega, by omega⟩
            · cases read
  · rintro ⟨size, spelled, rfl, lower, upper⟩
    cases negative with
    | true =>
        simp only [withSign, if_true] at lower
        have bounded : size ≤ 2 ^ (width - 1) := by omega
        rw [(sizes size).mpr ⟨spelled, by omega⟩]
        simp only [if_true, Nat.pow_eq, if_pos bounded, withSign]
    | false =>
        simp only [withSign, Bool.false_eq_true, if_false] at upper
        have bounded : size < 2 ^ (width - 1) := by omega
        rw [(sizes size).mpr ⟨spelled, by omega⟩]
        simp only [Bool.false_eq_true, if_false, Nat.pow_eq, if_pos bounded, withSign]

/-- No sign is a digit. -/
theorem SpellsNat.head_ne {c : Char} {digits : List Char} {number : Nat}
    (spelled : SpellsNat (c :: digits) number) : c ≠ '+' ∧ c ≠ '-' := by
  have isDigit := spelled.areDigits c List.mem_cons_self
  constructor
  all_goals
    rintro rfl
    cases isDigit

theorem spellsInt_plus_iff {digits : List Char} {number : Int} :
    SpellsInt ('+' :: digits) number ↔
      ∃ size, SpellsNat digits size ∧ number = withSign false size := by
  constructor
  · rintro (spelled | spelled | spelled)
    · exact absurd rfl spelled.head_ne.1
    · exact ⟨_, spelled, rfl⟩
  · rintro ⟨size, spelled, rfl⟩
    exact .plus spelled

theorem spellsInt_minus_iff {digits : List Char} {number : Int} :
    SpellsInt ('-' :: digits) number ↔
      ∃ size, SpellsNat digits size ∧ number = withSign true size := by
  constructor
  · rintro (spelled | spelled | spelled)
    · exact absurd rfl spelled.head_ne.2
    · exact ⟨_, spelled, rfl⟩
  · rintro ⟨size, spelled, rfl⟩
    exact .minus spelled

theorem spellsInt_unsigned_iff {word : List Char} {number : Int}
    (noPlus : ∀ digits, word ≠ '+' :: digits) (noMinus : ∀ digits, word ≠ '-' :: digits) :
    SpellsInt word number ↔ ∃ size, SpellsNat word size ∧ number = withSign false size := by
  constructor
  · rintro (spelled | spelled | spelled)
    · exact ⟨_, spelled, rfl⟩
    · exact absurd rfl (noPlus _)
    · exact absurd rfl (noMinus _)
  · rintro ⟨size, spelled, rfl⟩
    exact .unsigned spelled

/-- Reading an integer accepts exactly the words that spell a number in range. -/
theorem readInteger_eq_ok_iff {width : Nat} (positive : 0 < width) {word : String} {number : Int} :
    readInteger width word = .ok number ↔
      SpellsInt word.toList number ∧ -2 ^ (width - 1) ≤ number ∧ number < 2 ^ (width - 1) := by
  have gather {spells : Nat → Prop} {negative : Bool} :
      (∃ size, spells size ∧ number = withSign negative size ∧
        -2 ^ (width - 1) ≤ number ∧ number < 2 ^ (width - 1)) ↔
      (∃ size, spells size ∧ number = withSign negative size) ∧
        -2 ^ (width - 1) ≤ number ∧ number < 2 ^ (width - 1) := by
    simp only [← and_assoc, exists_and_right]
  unfold readInteger
  split
  · next digits chars =>
      rw [chars, readSigned_eq_ok_iff positive, gather, spellsInt_plus_iff]
  · next digits chars =>
      rw [chars, readSigned_eq_ok_iff positive, gather, spellsInt_minus_iff]
  · next noPlus noMinus =>
      rw [readSigned_eq_ok_iff positive, gather, spellsInt_unsigned_iff noPlus noMinus]

/-! ## Machine words -/

/-- An integer is read exactly from the words that spell it. -/
theorem readInt32_eq_ok_iff {word : String} {value : Int32} :
    readInt32 word = .ok value ↔ IntegerWord word value := by
  unfold readInt32 IntegerWord
  constructor
  · intro read
    cases isNumber : readInteger 32 word with
    | error fault =>
        rw [isNumber] at read
        cases read
    | ok number =>
        rw [isNumber] at read
        cases read
        obtain ⟨spelled, lower, upper⟩ := (readInteger_eq_ok_iff (by decide)).mp isNumber
        exact ⟨number, spelled, lower, upper, Int32.toInt_ofInt_of_le lower upper⟩
  · rintro ⟨_, spelled, lower, upper, rfl⟩
    rw [(readInteger_eq_ok_iff (by decide)).mpr ⟨spelled, lower, upper⟩]
    exact congrArg Except.ok (Int32.ofInt_toInt value)

/-- An index is read exactly from the words that spell it. -/
theorem readIndex_eq_ok_iff {word : String} {index : Int64} :
    readIndex word = .ok index ↔ IndexWord word index := by
  unfold readIndex IndexWord
  constructor
  · intro read
    cases isNumber : readDigits 0x7FFFFFFFFFFFFFFF word.toList with
    | error fault =>
        rw [isNumber] at read
        cases read
    | ok number =>
        rw [isNumber] at read
        cases read
        obtain ⟨spelled, bounded⟩ := readDigits_eq_ok_iff.mp isNumber
        exact ⟨number, spelled, by omega, Int64.toInt_ofNat_of_lt (by omega)⟩
  · rintro ⟨number, spelled, bounded, isIndex⟩
    rw [readDigits_eq_ok_iff.mpr ⟨spelled, by omega⟩]
    refine congrArg Except.ok (Int64.toInt_inj.mp ?_)
    rw [isIndex, Int64.toInt_ofNat_of_lt bounded]

end StackMachine
