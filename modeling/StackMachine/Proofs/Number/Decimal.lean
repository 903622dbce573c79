import Mathlib
import StackMachine.Number.Integer

/-!
# Reading decimal numbers back

A number in range is read back from its decimal digits: indices from their digits
(`readIndex_toString`) and 32-bit integers from a sign and digits (`readInt32_toString`).
-/

namespace StackMachine

theorem readDigitsFrom_append (largest value : Nat) (front back : List Char) :
    readDigitsFrom largest value (front ++ back) =
      readDigitsFrom largest value front >>= fun value => readDigitsFrom largest value back := by
  induction front generalizing value with
  | nil => rfl
  | cons digit front ih =>
      simp only [List.cons_append, readDigitsFrom]
      split
      · split
        · exact ih _
        · rfl
      · rfl

/-- One more digit. -/
theorem readDigitsFrom_digitChar {largest value digit : Nat} (isDigit : digit < 10)
    (small : value * 10 + digit ≤ largest) :
    readDigitsFrom largest value [digit.digitChar] = .ok (value * 10 + digit) := by
  have accepted : digit.digitChar.isDigit = true := by
    rw [Nat.isDigit_digitChar]
    exact decide_eq_true isDigit
  have isValue : digitValue digit.digitChar = digit :=
    Nat.toNat_digitChar_sub_48_of_lt_ten isDigit
  simp only [readDigitsFrom, accepted, isValue, if_true, if_pos small]

theorem readDigitsFrom_toDigits {largest number : Nat} (small : number ≤ largest) :
    readDigitsFrom largest 0 (Nat.toDigits 10 number) = .ok number := by
  induction number using Nat.strongRecOn with
  | ind number ih =>
      rw [Nat.toDigits_eq_if (by decide)]
      by_cases short : number < 10
      · rw [if_pos short, readDigitsFrom_digitChar short (by omega), Nat.zero_mul, Nat.zero_add]
      · have front := ih (number / 10) (by omega) (by omega)
        have rebuilt : number / 10 * 10 + number % 10 = number := Nat.div_add_mod' number 10
        rw [if_neg short, readDigitsFrom_append, front]
        change readDigitsFrom largest (number / 10) [(number % 10).digitChar] = .ok number
        rw [readDigitsFrom_digitChar (by omega) (by omega), rebuilt]

theorem readDigits_toDigits {largest number : Nat} (small : number ≤ largest) :
    readDigits largest (Nat.toDigits 10 number) = .ok number := by
  have digits : (Nat.toDigits 10 number).isEmpty = false := by
    rw [List.isEmpty_eq_false_iff]
    exact Nat.toDigits_ne_nil
  rw [readDigits, digits]
  exact readDigitsFrom_toDigits small

/-- A number that fits an index is read back from its digits. -/
theorem readIndex_toString_nat {number : Nat} (small : number < 0x8000000000000000) :
    readIndex (toString number) = .ok (Int64.ofNat number) := by
  rw [readIndex, Nat.toString_eq_repr, Nat.toList_repr, readDigits_toDigits (by omega)]
  rfl

/-- An index is read back from its digits. -/
theorem readIndex_toString {index : Int64} (nonneg : 0 ≤ index) :
    readIndex (toString index.toInt) = .ok index := by
  have isNat : 0 ≤ index.toInt := Int64.le_iff_toInt_le.mp nonneg
  have bound : index.toInt < 2 ^ 63 := index.toInt_lt
  have digits : toString index.toInt = toString index.toInt.toNat := by
    rw [Int.toString_eq_repr, Int.repr_eq_if, if_pos isNat, Nat.toString_eq_repr]
  rw [digits, readIndex_toString_nat (by omega)]
  have back : Int64.ofNat index.toInt.toNat = index := by
    rw [← Int64.ofInt_eq_ofNat, Int.toNat_of_nonneg isNat, Int64.ofInt_toInt]
  rw [back]

/-- The text of an integer is its digits, behind a sign if it is negative. -/
theorem toList_toString_int (number : Int) :
    (toString number).toList =
      (if number < 0 then ['-'] else []) ++ Nat.toDigits 10 number.natAbs := by
  rw [Int.toString_eq_repr, Int.repr_eq_if]
  by_cases nonneg : 0 ≤ number
  · rw [if_pos nonneg, if_neg (by omega), Nat.toList_repr]
    congr 2
    omega
  · rw [if_neg nonneg, if_pos (by omega), String.toList_append, Nat.toList_repr]
    congr 2
    omega

/-- Digits are read as a number without a sign. -/
theorem readInteger_of_toDigits {width number : Nat} {word : String}
    (digits : word.toList = Nat.toDigits 10 number) :
    readInteger width word = readSigned width false (Nat.toDigits 10 number) := by
  have areDigits : ∀ c ∈ Nat.toDigits 10 number, c.isDigit = true :=
    fun c mem => Nat.isDigit_of_mem_toDigits (by decide) (by decide) mem
  rw [readInteger, digits]
  split
  · next plus =>
      rw [plus] at areDigits
      exact absurd (areDigits '+' List.mem_cons_self) (by decide)
  · next minus =>
      rw [minus] at areDigits
      exact absurd (areDigits '-' List.mem_cons_self) (by decide)
  · rfl

/-- A 32-bit integer is read back from its sign and digits. -/
theorem readInt32_toString (int : Int32) : readInt32 (toString int.toInt) = .ok int := by
  have lower : -2 ^ 31 ≤ int.toInt := int.le_toInt
  have upper : int.toInt < 2 ^ 31 := int.toInt_lt
  have read : readInteger 32 (toString int.toInt) = .ok int.toInt := by
    have digits := toList_toString_int int.toInt
    by_cases negative : int.toInt < 0
    · have small : int.toInt.natAbs ≤ Nat.pow 2 (32 - 1) := by
        change int.toInt.natAbs ≤ 2147483648
        omega
      have back : -(int.toInt.natAbs : Int) = int.toInt := by omega
      rw [readInteger, digits, if_pos negative]
      change readSigned 32 true (Nat.toDigits 10 int.toInt.natAbs) = _
      rw [readSigned, readDigits_toDigits (small.trans (by decide))]
      simp only [if_true, if_pos small, back]
    · have small : int.toInt.natAbs < Nat.pow 2 (32 - 1) := by
        change int.toInt.natAbs < 2147483648
        omega
      have back : (int.toInt.natAbs : Int) = int.toInt := by omega
      rw [if_neg negative, List.nil_append] at digits
      rw [readInteger_of_toDigits digits, readSigned,
        readDigits_toDigits (small.le.trans (by decide))]
      simp only [Bool.false_eq_true, if_false, if_pos small, back]
  rw [readInt32, read]
  exact congrArg Except.ok (Int32.ofInt_toInt int)

end StackMachine
