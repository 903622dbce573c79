import Mathlib
import StackMachine.Number.Literal

/-!
# The characters of numbers

A word that is read as a number, whole or floating-point, is made of digits, letters, signs, points
and underscores.  Any other character is foreign to numbers, and a word that has one is none.
-/

namespace StackMachine

/-- A character that stands in no number. -/
structure Foreign (c : Char) : Prop where
  value : alphanumericValue? c = none
  lower : c.toLower = c
  mark : c ∉ ['+', '-', '.', '_']

namespace Foreign

variable {c : Char} (foreign : Foreign c)

include foreign

theorem isDigit : c.isDigit = false := by
  have value := foreign.value
  unfold alphanumericValue? at value
  split at value
  · cases value
  · next other => simpa using other

theorem ne_of_mark {mark : Char} (isMark : mark ∈ ['+', '-', '.', '_']) : c ≠ mark := by
  rintro rfl
  exact foreign.mark isMark

theorem ne_of_value {letter : Char} (hasValue : (alphanumericValue? letter).isSome = true) :
    c ≠ letter := by
  rintro rfl
  rw [foreign.value] at hasValue
  cases hasValue

/-- A letter that may be written small or large. -/
theorem ne_of_either {letter low high : Char}
    (hasValues : (alphanumericValue? low).isSome = true ∧ (alphanumericValue? high).isSome = true)
    (isLetter : (letter == low || letter == high) = true) : c ≠ letter := by
  rw [Bool.or_eq_true, beq_iff_eq, beq_iff_eq] at isLetter
  rcases isLetter with rfl | rfl
  · exact foreign.ne_of_value hasValues.1
  · exact foreign.ne_of_value hasValues.2

/-! ## Whole numbers -/

theorem notMem_of_readDigitsFrom {largest value number : Nat} {digits : List Char}
    (read : readDigitsFrom largest value digits = .ok number) : c ∉ digits := by
  induction digits generalizing value with
  | nil => exact List.not_mem_nil
  | cons digit digits ih =>
      simp only [readDigitsFrom] at read
      split at read
      · next isDigit =>
          split at read
          · rw [List.mem_cons, not_or]
            refine ⟨?_, ih read⟩
            rintro rfl
            rw [foreign.isDigit] at isDigit
            cases isDigit
          · cases read
      · cases read

theorem notMem_of_readDigits {largest number : Nat} {digits : List Char}
    (read : readDigits largest digits = .ok number) : c ∉ digits := by
  unfold readDigits at read
  split at read
  · cases read
  · exact foreign.notMem_of_readDigitsFrom read

theorem notMem_of_readIndex {word : String} {index : Int64} (read : readIndex word = .ok index) :
    c ∉ word.toList := by
  unfold readIndex at read
  cases digits : readDigits 0x7FFFFFFFFFFFFFFF word.toList with
  | error fault =>
      rw [digits] at read
      cases read
  | ok number => exact foreign.notMem_of_readDigits digits

theorem notMem_of_readSigned {width : Nat} {negative : Bool} {digits : List Char} {number : Int}
    (read : readSigned width negative digits = .ok number) : c ∉ digits := by
  unfold readSigned at read
  split at read
  · cases read
  · next isSize => exact foreign.notMem_of_readDigits isSize

theorem notMem_of_readInt32 {word : String} {int : Int32} (read : readInt32 word = .ok int) :
    c ∉ word.toList := by
  unfold readInt32 at read
  cases isNumber : readInteger 32 word with
  | error fault =>
      rw [isNumber] at read
      cases read
  | ok number =>
      unfold readInteger at isNumber
      split at isNumber
      · next digits chars =>
          rw [chars, List.mem_cons, not_or]
          exact ⟨foreign.ne_of_mark (by decide), foreign.notMem_of_readSigned isNumber⟩
      · next digits chars =>
          rw [chars, List.mem_cons, not_or]
          exact ⟨foreign.ne_of_mark (by decide), foreign.notMem_of_readSigned isNumber⟩
      · exact foreign.notMem_of_readSigned isNumber

/-! ## Floating-point numbers -/

/-- What is passed over in reading the digits of a literal. -/
theorem exists_front_of_read (base : Nat) (significand : Significand) (text : List Char) :
    ∃ front, text = front ++ (Significand.read base significand text).2 ∧ c ∉ front := by
  fun_induction Significand.read base significand text with
  | case1 => exact ⟨[], rfl, List.not_mem_nil⟩
  | case2 significand char rest isUnderscore ih =>
      obtain ⟨front, isText, notMem⟩ := ih
      refine ⟨char :: front, congrArg (char :: ·) isText, ?_⟩
      rw [List.mem_cons, not_or, beq_iff_eq.mp isUnderscore]
      exact ⟨foreign.ne_of_mark (by decide), notMem⟩
  | case3 => exact ⟨[], rfl, List.not_mem_nil⟩
  | case4 significand char rest notUnderscore isPoint notSeen ih =>
      obtain ⟨front, isText, notMem⟩ := ih
      refine ⟨char :: front, congrArg (char :: ·) isText, ?_⟩
      rw [List.mem_cons, not_or, beq_iff_eq.mp isPoint]
      exact ⟨foreign.ne_of_mark (by decide), notMem⟩
  | case5 significand char rest notUnderscore notPoint digit isDigit small ih =>
      obtain ⟨front, isText, notMem⟩ := ih
      refine ⟨char :: front, congrArg (char :: ·) isText, ?_⟩
      rw [List.mem_cons, not_or]
      exact ⟨foreign.ne_of_value (by rw [isDigit]; rfl), notMem⟩
  | case6 => exact ⟨[], rfl, List.not_mem_nil⟩
  | case7 => exact ⟨[], rfl, List.not_mem_nil⟩

theorem notMem_of_readExponentDigits {size number : Nat} {digits : List Char}
    (read : Literal.readExponentDigits size digits = some number) : c ∉ digits := by
  induction digits generalizing size with
  | nil => exact List.not_mem_nil
  | cons digit digits ih =>
      simp only [Literal.readExponentDigits] at read
      rw [List.mem_cons, not_or]
      split at read
      · next isUnderscore =>
          rw [beq_iff_eq.mp isUnderscore]
          exact ⟨foreign.ne_of_mark (by decide), ih read⟩
      · split at read
        · next isDigit =>
            refine ⟨?_, ih read⟩
            rintro rfl
            rw [foreign.isDigit] at isDigit
            cases isDigit
        · cases read

theorem notMem_of_readExponent? {text : List Char} {exponent : Int}
    (read : Literal.readExponent? text = some exponent) : c ∉ text := by
  unfold Literal.readExponent? at read
  extract_lets magnitude? at read
  have magnitude {digits : List Char} {number : Nat}
      (read : magnitude? digits = some number) : c ∉ digits := by
    simp only [magnitude?] at read
    split at read
    · split at read
      · exact foreign.notMem_of_readExponentDigits read
      · cases read
    · cases read
  split at read
  · obtain ⟨number, read, -⟩ := Option.map_eq_some_iff.mp read
    obtain ⟨size, read, -⟩ := Option.bind_eq_some_iff.mp read
    rw [List.mem_cons, not_or]
    exact ⟨foreign.ne_of_mark (by decide), magnitude read⟩
  · obtain ⟨number, read, -⟩ := Option.map_eq_some_iff.mp read
    obtain ⟨size, read, -⟩ := Option.bind_eq_some_iff.mp read
    rw [List.mem_cons, not_or]
    exact ⟨foreign.ne_of_mark (by decide), magnitude read⟩
  · obtain ⟨number, read, -⟩ := Option.map_eq_some_iff.mp read
    obtain ⟨size, read, -⟩ := Option.bind_eq_some_iff.mp read
    exact magnitude read

theorem notMem_of_decimalParts? {text : List Char} {parts : Nat × Int}
    (read : Literal.decimalParts? text = some parts) : c ∉ text := by
  obtain ⟨front, isText, notMem⟩ := foreign.exists_front_of_read 10 {} text
  unfold Literal.decimalParts? at read
  generalize Significand.read 10 {} text = scanned at isText read
  obtain ⟨significand, rest⟩ := scanned
  obtain ⟨-, -, read⟩ := Option.bind_eq_some_iff.mp read
  rw [isText, List.mem_append, not_or]
  refine ⟨notMem, ?_⟩
  dsimp only at read ⊢
  split at read
  · exact List.not_mem_nil
  · next mark digits =>
      split at read
      · next isMark =>
          obtain ⟨exponent, read, -⟩ := Option.bind_eq_some_iff.mp read
          rw [List.mem_cons, not_or]
          exact ⟨foreign.ne_of_either ⟨rfl, rfl⟩ isMark, foreign.notMem_of_readExponent? read⟩
      · cases read

theorem notMem_of_readHexadecimal? {negative : Bool} {text : List Char} {float : Binary32}
    (read : Binary32.readHexadecimal? negative text = some float) : c ∉ text := by
  obtain ⟨front, isText, notMem⟩ := foreign.exists_front_of_read 16 {} text
  unfold Binary32.readHexadecimal? at read
  generalize Significand.read 16 {} text = scanned at isText read
  obtain ⟨significand, rest⟩ := scanned
  obtain ⟨-, -, read⟩ := Option.bind_eq_some_iff.mp read
  rw [isText, List.mem_append, not_or]
  refine ⟨notMem, ?_⟩
  dsimp only at read ⊢
  split at read
  · cases read
  · next mark digits =>
      split at read
      · next isMark =>
          obtain ⟨exponent, read, -⟩ := Option.bind_eq_some_iff.mp read
          rw [List.mem_cons, not_or]
          exact ⟨foreign.ne_of_either ⟨rfl, rfl⟩ isMark, foreign.notMem_of_readExponent? read⟩
      · cases read

theorem notMem_of_readUnsigned? {negative : Bool} {text : List Char} {float : Binary32}
    (read : Binary32.readUnsigned? negative text = some float) : c ∉ text := by
  have decimal {text : List Char} (read : Binary32.readDecimal? negative text = some float) :
      c ∉ text := by
    obtain ⟨parts, isParts, -⟩ := Option.map_eq_some_iff.mp read
    exact foreign.notMem_of_decimalParts? isParts
  unfold Binary32.readUnsigned? at read
  split at read
  · next mark digit rest =>
      split at read
      · next isMark =>
          rw [List.mem_cons, List.mem_cons, not_or, not_or]
          exact ⟨foreign.ne_of_value rfl, foreign.ne_of_either ⟨rfl, rfl⟩ isMark,
            foreign.notMem_of_readHexadecimal? read⟩
      · exact decimal read
  · exact decimal read

/-- A word of letters in any case. -/
theorem notMem_of_lower {text letters : List Char}
    (values : letters.all (fun letter => (alphanumericValue? letter).isSome) = true)
    (isLower : (text.map Char.toLower == letters) = true) : c ∉ text := by
  intro isMem
  have lowered : c.toLower ∈ text.map Char.toLower := List.mem_map_of_mem isMem
  rw [beq_iff_eq.mp isLower, foreign.lower] at lowered
  exact foreign.ne_of_value (List.all_eq_true.mp values c lowered) rfl

theorem notMem_of_readMagnitude? {negative : Bool} {text : List Char} {float : Binary32}
    (read : Binary32.readMagnitude? negative text = some float) : c ∉ text := by
  unfold Binary32.readMagnitude? at read
  split at read
  · next isInfinity =>
      unfold Binary32.isInfinityWord at isInfinity
      rw [Bool.or_eq_true] at isInfinity
      rcases isInfinity with isLower | isLower <;>
        exact foreign.notMem_of_lower (by decide) isLower
  · exact foreign.notMem_of_readUnsigned? read

theorem notMem_of_read? {word : String} {float : Binary32}
    (read : Binary32.read? word = some float) : c ∉ word.toList := by
  unfold Binary32.read? at read
  dsimp only at read
  split at read
  · next isLower => exact foreign.notMem_of_lower (by decide) isLower
  · split at read
    · cases read
    · split at read
      · next chars =>
          rw [chars, List.mem_cons, not_or]
          exact ⟨foreign.ne_of_mark (by decide), foreign.notMem_of_readMagnitude? read⟩
      · next chars =>
          rw [chars, List.mem_cons, not_or]
          exact ⟨foreign.ne_of_mark (by decide), foreign.notMem_of_readMagnitude? read⟩
      · exact foreign.notMem_of_readMagnitude? read

end Foreign

end StackMachine
