import Mathlib
import StackMachine.Number.Literal
import StackMachine.Proofs.Number.Shortest
import StackMachine.Proofs.Number.Words

/-!
# Written numbers read back

Both layouts of a decimal are literals of its exact value (`Literal.Writes`), and the literal of a
shortest decimal is rounded back to the number that it was made of.  So every number is read back
from either of its texts, and a NaN from its word (`Binary32.read?_instructionText`,
`Binary32.read?_printedText`).
-/

namespace StackMachine

/-! ## Reading digits -/

theorem alphanumericValue?_of_isDigit {c : Char} (isDigit : c.isDigit = true) :
    alphanumericValue? c = some (digitValue c) := by
  rw [alphanumericValue?, if_pos isDigit]

theorem digitValue_lt_ten {c : Char} (isDigit : c.isDigit = true) : digitValue c < 10 := by
  simp only [Char.isDigit, Bool.and_eq_true, decide_eq_true_eq, UInt32.le_iff_toNat_le] at isDigit
  simp only [digitValue, Char.toNat]
  have upper : c.val.toNat ≤ 57 := isDigit.2
  have zero : '0'.val.toNat = 48 := rfl
  omega

theorem not_isAlpha_of_isDigit {c : Char} (isDigit : c.isDigit = true) : c.isAlpha = false := by
  simp only [Char.isDigit, Bool.and_eq_true, decide_eq_true_eq, UInt32.le_iff_toNat_le] at isDigit
  have upper : c.val.toNat ≤ 57 := isDigit.2
  simp only [Char.isAlpha, Char.isUpper, Char.isLower, Bool.or_eq_false_iff, Bool.and_eq_false_iff,
    decide_eq_false_iff_not, UInt32.le_iff_toNat_le, ge_iff_le]
  have large : 'A'.val.toNat = 65 := rfl
  have small : 'a'.val.toNat = 97 := rfl
  omega

/-- A character that is no digit is not equal to one that is. -/
theorem ne_of_isDigit {c mark : Char} (isDigit : c.isDigit = true)
    (noDigit : mark.isDigit = false) : c ≠ mark := by
  rintro rfl
  rw [isDigit] at noDigit
  cases noDigit

theorem isDigit_of_mem_zeros {count : Nat} {c : Char} (isMem : c ∈ List.replicate count '0') :
    c.isDigit = true := by
  rw [List.eq_of_mem_replicate isMem]
  rfl

/-- The digits of a number, with or without zeros before them, spell it. -/
theorem spellsNat_padded (zeros number : Nat) :
    SpellsNat (List.replicate zeros '0' ++ Nat.toDigits 10 number) number where
  nonempty := List.append_ne_nil_of_right_ne_nil _ Nat.toDigits_ne_nil
  areDigits := List.forall_mem_append.mpr
    ⟨fun _ => isDigit_of_mem_zeros, fun _ => Nat.isDigit_of_mem_toDigits (by decide) (by decide)⟩
  value := by
    rw [Nat.ofDigitChars_append, Nat.ofDigitChars_replicate_zero, Nat.mul_zero,
      Nat.ofDigitChars_ten_toDigits]

/-- The digits of a literal extend its value, and its places once the point is seen. -/
theorem Significand.read_digits {digits : List Char} (areDigits : ∀ c ∈ digits, c.isDigit = true)
    (significand : Significand) (rest : List Char) :
    Significand.read 10 significand (digits ++ rest) =
      Significand.read 10
        { significand with
          value := Nat.ofDigitChars 10 digits significand.value
          places := if significand.pointSeen then significand.places + digits.length
            else significand.places
          digitSeen := significand.digitSeen || !digits.isEmpty } rest := by
  induction digits generalizing significand with
  | nil => simp
  | cons c digits ih =>
      obtain ⟨isDigit, areDigits⟩ := List.forall_mem_cons.mp areDigits
      have noUnderscore : (c == '_') = false := beq_false_of_ne (ne_of_isDigit isDigit rfl)
      have noPoint : (c == '.') = false := beq_false_of_ne (ne_of_isDigit isDigit rfl)
      rw [List.cons_append, Significand.read]
      simp only [noUnderscore, noPoint, alphanumericValue?_of_isDigit isDigit,
        digitValue_lt_ten isDigit, Bool.false_eq_true, if_false, if_true]
      rw [ih areDigits]
      simp only [Significand.push, ofDigitChars_cons_digitValue]
      obtain ⟨value, places, pointSeen, digitSeen⟩ := significand
      cases pointSeen <;> simp [Nat.add_assoc, Nat.add_comm 1]

/-- The first point is passed over. -/
theorem Significand.read_point {significand : Significand} (fresh : significand.pointSeen = false)
    (rest : List Char) :
    Significand.read 10 significand ('.' :: rest) =
      Significand.read 10 { significand with pointSeen := true } rest := by
  rw [Significand.read]
  simp [fresh]

/-- Exponent digits within the range that counts. -/
theorem Literal.readExponentDigits_eq {digits : List Char} {size : Nat}
    (areDigits : ∀ c ∈ digits, c.isDigit = true)
    (small : Nat.ofDigitChars 10 digits size < 100000) :
    Literal.readExponentDigits size digits = some (Nat.ofDigitChars 10 digits size) := by
  induction digits generalizing size with
  | nil => rfl
  | cons c digits ih =>
      obtain ⟨isDigit, areDigits⟩ := List.forall_mem_cons.mp areDigits
      have noUnderscore : (c == '_') = false := beq_false_of_ne (ne_of_isDigit isDigit rfl)
      rw [ofDigitChars_cons_digitValue] at small ⊢
      have counts : size < 10000 := by
        have := le_ofDigitChars digits (size * 10 + digitValue c)
        omega
      simp only [Literal.readExponentDigits, noUnderscore, isDigit, Bool.false_eq_true, if_false,
        if_true, if_pos counts]
      exact ih areDigits small

/-! ## Literals -/

/-- A signed exponent padded with zeros. -/
theorem Literal.readExponent?_signed {exponent : Int} (small : exponent.natAbs < 100000)
    (zeros : Nat) :
    Literal.readExponent? ((if exponent < 0 then '-' else '+') ::
      (List.replicate zeros '0' ++ Nat.toDigits 10 exponent.natAbs)) = some exponent := by
  obtain ⟨nonempty, areDigits, value⟩ := spellsNat_padded zeros exponent.natAbs
  generalize List.replicate zeros '0' ++ Nat.toDigits 10 exponent.natAbs = digits
    at areDigits value nonempty ⊢
  obtain ⟨c, rest, rfl⟩ := List.exists_cons_of_ne_nil nonempty
  have read := @Literal.readExponentDigits_eq _ 0 areDigits (by rwa [value])
  rw [value] at read
  by_cases negative : exponent < 0
  · simp only [Literal.readExponent?, if_pos negative, areDigits c List.mem_cons_self, if_true,
      read, Option.pure_def, Option.bind_some, Option.bind_eq_bind, Option.map_some,
      Option.some.injEq]
    omega
  · simp only [Literal.readExponent?, if_neg negative, areDigits c List.mem_cons_self, if_true,
      read, Option.pure_def, Option.bind_some, Option.bind_eq_bind, Option.map_some,
      Option.some.injEq]
    omega

/-- A literal of an exact value that begins with a digit and has the characters of a decimal
number only. -/
structure Literal.Writes (text : List Char) (value : ℚ) : Prop where
  starts : ∃ first rest, text = first :: rest ∧ first.isDigit = true
  chars : ∀ c ∈ text, c.isDigit = true ∨ c ∈ ['.', 'e', '+', '-']
  denotes : ∃ whole exponent, Literal.decimalParts? text = some (whole, exponent) ∧
    (whole * 10 ^ exponent : ℚ) = value

/-- Digits before a point and after it; no point is written where no digit follows. -/
def Decimal.pointed (whole fraction : List Char) : List Char :=
  whole ++ if fraction.isEmpty then [] else '.' :: fraction

open Decimal (pointed)

section pointed

variable {whole fraction : List Char} (nonempty : whole ≠ [])
  (wholeDigits : ∀ c ∈ whole, c.isDigit = true) (fractionDigits : ∀ c ∈ fraction, c.isDigit = true)

include wholeDigits

theorem starts_pointed (nonempty : whole ≠ []) (rest : List Char) :
    ∃ first tail, pointed whole fraction ++ rest = first :: tail ∧ first.isDigit = true := by
  obtain ⟨first, whole, rfl⟩ := List.exists_cons_of_ne_nil nonempty
  exact ⟨first, _, rfl, wholeDigits first List.mem_cons_self⟩

include fractionDigits

theorem chars_pointed : ∀ c ∈ pointed whole fraction, c.isDigit = true ∨ c = '.' := by
  intro c isMem
  rcases List.mem_append.mp isMem with inWhole | inFraction
  · exact .inl (wholeDigits c inWhole)
  · split at inFraction
    · cases inFraction
    · rcases List.mem_cons.mp inFraction with isPoint | inFraction
      · exact .inr isPoint
      · exact .inl (fractionDigits c inFraction)

include nonempty

/-- Digits with a point are read as one number and the digits after the point counted. -/
theorem Significand.read_pointed {rest : List Char}
    (stops : ∀ significand, Significand.read 10 significand rest = (significand, rest)) :
    Significand.read 10 {} (pointed whole fraction ++ rest) =
      (⟨Nat.ofDigitChars 10 (whole ++ fraction) 0, fraction.length, !fraction.isEmpty, true⟩,
        rest) := by
  have hasWhole : whole.isEmpty = false := List.isEmpty_eq_false_iff.mpr nonempty
  rw [pointed, List.append_assoc, Significand.read_digits wholeDigits]
  cases fraction with
  | nil => simp [stops, hasWhole]
  | cons c fraction =>
      simp only [List.isEmpty_cons, Bool.false_eq_true, if_false, List.cons_append]
      rw [Significand.read_point rfl, ← List.cons_append, Significand.read_digits fractionDigits,
        stops]
      simp [Nat.ofDigitChars_append]

theorem Literal.decimalParts?_pointed :
    Literal.decimalParts? (pointed whole fraction) =
      some (Nat.ofDigitChars 10 (whole ++ fraction) 0, -(fraction.length : Int)) := by
  have read := @Significand.read_pointed _ _ nonempty wholeDigits fractionDigits [] fun _ => rfl
  rw [List.append_nil] at read
  simp [Literal.decimalParts?, read]

theorem Literal.decimalParts?_exponent {digits : List Char} {exponent : Int}
    (isExponent : Literal.readExponent? digits = some exponent) :
    Literal.decimalParts? (pointed whole fraction ++ 'e' :: digits) =
      some (Nat.ofDigitChars 10 (whole ++ fraction) 0, exponent - fraction.length) := by
  have read := @Significand.read_pointed _ _ nonempty wholeDigits fractionDigits ('e' :: digits)
    fun _ => rfl
  simp [Literal.decimalParts?, read, isExponent]

theorem Literal.writes_pointed :
    Literal.Writes (pointed whole fraction)
      (Nat.ofDigitChars 10 (whole ++ fraction) 0 * 10 ^ (-(fraction.length : Int))) where
  starts := by simpa using @starts_pointed _ fraction wholeDigits nonempty []
  chars c isMem := (chars_pointed wholeDigits fractionDigits c isMem).imp_right fun isPoint => by
    simp [isPoint]
  denotes := ⟨_, _, decimalParts?_pointed nonempty wholeDigits fractionDigits, rfl⟩

/-- A literal with an exponent. -/
theorem Literal.writes_exponent {exponent : Int} (small : exponent.natAbs < 100000) (zeros : Nat) :
    Literal.Writes (pointed whole fraction ++ 'e' :: (if exponent < 0 then '-' else '+') ::
        (List.replicate zeros '0' ++ Nat.toDigits 10 exponent.natAbs))
      (Nat.ofDigitChars 10 (whole ++ fraction) 0 * 10 ^ (exponent - fraction.length)) where
  starts := starts_pointed wholeDigits nonempty _
  chars c isMem := by
    rcases List.mem_append.mp isMem with isMem | isMem
    · refine (chars_pointed wholeDigits fractionDigits c isMem).imp_right fun isPoint => ?_
      simp [isPoint]
    · rw [List.mem_cons, List.mem_cons] at isMem
      rcases isMem with rfl | rfl | digit
      · exact .inr (by decide)
      · exact .inr (by split <;> decide)
      · exact .inl ((spellsNat_padded zeros exponent.natAbs).areDigits c digit)
  denotes := ⟨_, _, decimalParts?_exponent nonempty wholeDigits fractionDigits
    (readExponent?_signed small zeros), rfl⟩

end pointed

/-! ## Layouts -/

namespace Decimal

section layouts

variable {digits : List Char} {number : Nat} (spelled : SpellsNat digits number)

include spelled

/-- Plain notation is exact. -/
theorem writes_positional (point : Int) :
    Literal.Writes (positional digits point) (number * 10 ^ (point - digits.length)) := by
  obtain ⟨nonempty, areDigits, value⟩ := spelled
  by_cases small : point ≤ 0
  · -- Zeros between the point and the digits.
    have layout : positional digits point =
        pointed ['0'] (List.replicate (-point).toNat '0' ++ digits) := by
      simp [positional, pointed, small, nonempty]
    have written := @Literal.writes_pointed ['0'] (List.replicate (-point).toNat '0' ++ digits)
      (List.cons_ne_nil _ _) (by simp) (List.forall_mem_append.mpr
        ⟨fun _ => isDigit_of_mem_zeros, areDigits⟩)
    have number_eq : Nat.ofDigitChars 10
        (['0'] ++ (List.replicate (-point).toNat '0' ++ digits)) 0 = number := by
      simp [Nat.ofDigitChars_append, Nat.ofDigitChars_replicate_zero, Nat.ofDigitChars_cons, value]
    have exponent_eq : -((List.replicate (-point).toNat '0' ++ digits).length : Int) =
        point - digits.length := by
      rw [List.length_append, List.length_replicate]
      omega
    rwa [layout, ← exponent_eq, ← number_eq]
  · have layout : positional digits point =
        pointed (digits.take point.toNat ++ List.replicate (point.toNat - digits.length) '0')
          (digits.drop point.toNat) := by
      simp [positional, pointed, small]
    have written := @Literal.writes_pointed
      (digits.take point.toNat ++ List.replicate (point.toNat - digits.length) '0')
      (digits.drop point.toNat)
      (List.append_ne_nil_of_left_ne_nil (by simp [nonempty]; omega) _)
      (List.forall_mem_append.mpr
        ⟨fun c isMem => areDigits c (List.mem_of_mem_take isMem), fun _ => isDigit_of_mem_zeros⟩)
      (fun c isMem => areDigits c (List.mem_of_mem_drop isMem))
    rw [layout]
    by_cases inside : point.toNat ≤ digits.length
    · have noZeros : point.toNat - digits.length = 0 := by omega
      have exponent_eq : -((digits.drop point.toNat).length : Int) = point - digits.length := by
        rw [List.length_drop]
        omega
      rw [noZeros, List.replicate_zero, List.append_nil, List.take_append_drop, value,
        exponent_eq] at written
      rwa [noZeros, List.replicate_zero, List.append_nil]
    · -- Zeros between the digits and the point.
      have all : digits.take point.toNat = digits := List.take_of_length_le (by omega)
      have none : digits.drop point.toNat = [] := List.drop_of_length_le (by omega)
      have power : point - (digits.length : Int) = ((point.toNat - digits.length : Nat) : Int) := by
        omega
      rw [all, none, List.append_nil, Nat.ofDigitChars_append, value,
        Nat.ofDigitChars_replicate_zero, List.length_nil, Nat.cast_zero, neg_zero, zpow_zero,
        mul_one] at written
      rw [all, none, power, zpow_natCast]
      convert written using 1
      push_cast
      ring

/-- Exponent notation is exact. -/
theorem writes_scientific {point : Int} (small : (point - 1).natAbs < 100000) :
    Literal.Writes (scientific digits point) (number * 10 ^ (point - digits.length)) := by
  obtain ⟨nonempty, areDigits, value⟩ := spelled
  have layout : scientific digits point = pointed (digits.take 1) (digits.drop 1) ++
      'e' :: (if point - 1 < 0 then '-' else '+') ::
        (List.replicate (2 - (Nat.toDigits 10 (point - 1).natAbs).length) '0' ++
          Nat.toDigits 10 (point - 1).natAbs) := by
    simp [scientific, pointed]
  have written := @Literal.writes_exponent (digits.take 1) (digits.drop 1) (by simpa using nonempty)
    (fun c isMem => areDigits c (List.mem_of_mem_take isMem))
    (fun c isMem => areDigits c (List.mem_of_mem_drop isMem)) _ small
    (2 - (Nat.toDigits 10 (point - 1).natAbs).length)
  have some : 0 < digits.length := List.length_pos_iff.mpr nonempty
  have exponent_eq : point - 1 - ((digits.drop 1).length : Int) = point - digits.length := by
    rw [List.length_drop]
    omega
  rw [List.take_append_drop, value, exponent_eq] at written
  rwa [layout]

end layouts

/-! ## Significant digits -/

/-- Only zeros are dropped from the end. -/
theorem exists_zeros (digits : List Char) :
    ∃ count, digits =
      (digits.reverse.dropWhile (· == '0')).reverse ++ List.replicate count '0' := by
  have parts := List.takeWhile_append_dropWhile (p := (· == '0')) (l := digits.reverse)
  have zeros : digits.reverse.takeWhile (· == '0') =
      List.replicate (digits.reverse.takeWhile (· == '0')).length '0' := by
    rw [List.eq_replicate_iff]
    exact ⟨rfl, fun c isMem => beq_iff_eq.mp (List.mem_takeWhile_imp (p := (· == '0')) isMem)⟩
  refine ⟨(digits.reverse.takeWhile (· == '0')).length, ?_⟩
  conv_lhs => rw [← List.reverse_reverse digits, ← parts, List.reverse_append, zeros]
  rw [List.reverse_replicate]

/-- The significant digits and the place of their point are the decimal. -/
theorem spells_significant (decimal : Decimal) :
    ∃ number, SpellsNat decimal.significant.1 number ∧
      (number * 10 ^ (decimal.significant.2 - decimal.significant.1.length) : ℚ) =
        decimal.digits * 10 ^ decimal.exponent := by
  obtain ⟨count, parts⟩ := exists_zeros (Nat.toDigits 10 decimal.digits)
  have areDigits : ∀ c ∈ Nat.toDigits 10 decimal.digits, c.isDigit = true :=
    fun c isMem => Nat.isDigit_of_mem_toDigits (by decide) (by decide) isMem
  have value : Nat.ofDigitChars 10 (Nat.toDigits 10 decimal.digits) 0 = decimal.digits :=
    Nat.ofDigitChars_ten_toDigits
  simp only [significant]
  generalize ((Nat.toDigits 10 decimal.digits).reverse.dropWhile (· == '0')).reverse = kept
    at parts ⊢
  generalize Nat.toDigits 10 decimal.digits = digits at parts areDigits value ⊢
  subst parts
  rw [Nat.ofDigitChars_append, Nat.ofDigitChars_replicate_zero] at value
  split
  · next isEmpty =>
      rw [List.isEmpty_iff] at isEmpty
      subst isEmpty
      refine ⟨0, ⟨by simp, by simp, rfl⟩, ?_⟩
      rw [← value]
      simp
  · next isKept =>
      refine ⟨Nat.ofDigitChars 10 kept 0, ⟨?_, ?_, rfl⟩, ?_⟩
      · simpa using isKept
      · exact fun c isMem => areDigits c (List.mem_append_left _ isMem)
      · have exponent_eq : ((kept ++ List.replicate count '0').length : Int) + decimal.exponent -
            kept.length = count + decimal.exponent := by
          rw [List.length_append, List.length_replicate]
          omega
        rw [exponent_eq, zpow_add₀ (by norm_num), zpow_natCast, ← value]
        push_cast
        ring

/-- The point of a shortest decimal is not far from its digits. -/
theorem significant_point {pattern : Nat} (finite : pattern < BinaryFormat.single.infinity) :
    ((shortest pattern).significant.2 - 1).natAbs < 100000 := by
  have exponent := exponent_shortest finite
  have short : (Nat.toDigits 10 (shortest pattern).digits).length ≤ 92 := by
    rw [Nat.length_toDigits_le_iff (by decide) (by decide)]
    exact digits_shortest finite
  simp only [significant]
  split
  · decide
  · dsimp only
    omega

end Decimal

/-! ## Reading back -/

namespace Binary32

open BinaryFormat (single)

/-- A literal of a value between the midpoints around a pattern is rounded to the pattern. -/
theorem readDecimal?_of_writes {text : List Char} {value : ℚ} (written : Literal.Writes text value)
    {pattern : Nat} (finite : pattern < single.infinity)
    (around : single.Surrounds pattern (value * 2 ^ single.unitExponent)) (negative : Bool) :
    readDecimal? negative text = some (ofPattern negative pattern) := by
  obtain ⟨whole, exponent, parts, rfl⟩ := written.denotes
  have ratio : ((whole * 10 ^ exponent.toNat * 2 ^ single.unitExponent : ℕ) : ℚ) /
      (10 ^ (-exponent).toNat : ℕ) = whole * 10 ^ exponent * 2 ^ single.unitExponent := by
    rw [← Decimal.pow_div_pow exponent]
    push_cast
    ring
  rw [← ratio] at around
  have rounded := BinaryFormat.nearest_of_surrounds (by decide) (Nat.pow_pos (by decide)) around
  rw [Nat.min_eq_left finite.le] at rounded
  simp only [readDecimal?, parts, Option.map_some, ofScaled, nearest, Nat.pow_eq, rounded]

/-- A text that begins with no letter is no word of letters. -/
theorem lower_ne_letters {first letter : Char} {rest letters : List Char}
    (noLetter : first.isAlpha = false) (isLetter : letter.isAlpha = true) :
    ((first :: rest).map Char.toLower == letter :: letters) = false := by
  refine beq_false_of_ne fun same => ?_
  rw [List.map_cons, List.cons.injEq] at same
  rw [← Char.isAlpha_toLower_eq_isAlpha, same.1, isLetter] at noLetter
  cases noLetter

/-- A literal of a decimal number has no base mark. -/
theorem readUnsigned?_of_writes {text : List Char} {value : ℚ}
    (written : Literal.Writes text value) (negative : Bool) :
    readUnsigned? negative text = readDecimal? negative text := by
  unfold readUnsigned?
  split
  · next c d rest =>
      have noMark : (c == 'x' || c == 'X') = false := by
        have isChar := written.chars c (by simp)
        rw [Bool.or_eq_false_iff]
        refine ⟨beq_false_of_ne ?_, beq_false_of_ne ?_⟩ <;>
          · rintro rfl
            revert isChar
            decide
      rw [noMark, if_neg Bool.false_ne_true]
  · rfl

/-- A literal of a decimal number is read as one, after its sign. -/
theorem read?_of_writes {text : List Char} {value : ℚ} (written : Literal.Writes text value)
    (negative : Bool) :
    read? (String.ofList ((if negative then ['-'] else []) ++ text)) =
      readDecimal? negative text := by
  have unsigned := readUnsigned?_of_writes written negative
  have noUnderscore : '_' ∉ text := by
    intro isMem
    have isChar := written.chars '_' isMem
    revert isChar
    decide
  obtain ⟨first, rest, rfl, isDigit⟩ := written.starts
  have noLetter : first.isAlpha = false := not_isAlpha_of_isDigit isDigit
  have finite : isInfinityWord (first :: rest) = false := by
    rw [isInfinityWord, Bool.or_eq_false_iff]
    exact ⟨lower_ne_letters noLetter rfl, lower_ne_letters noLetter rfl⟩
  have plain : readMagnitude? negative (first :: rest) = readDecimal? negative (first :: rest) := by
    rw [readMagnitude?, finite, if_neg Bool.false_ne_true, unsigned]
  cases negative with
  | false =>
      have isNumber : ((first :: rest).map Char.toLower == "nan".toList) = false :=
        lower_ne_letters noLetter rfl
      simp only [read?, Bool.false_eq_true, if_false, List.nil_append, String.toList_ofList,
        isNumber, List.contains_eq_mem, noUnderscore, decide_false, Bool.false_and]
      split
      · next same =>
          rw [List.cons.injEq] at same
          exact absurd same.1 (ne_of_isDigit isDigit rfl)
      · next same =>
          rw [List.cons.injEq] at same
          exact absurd same.1 (ne_of_isDigit isDigit rfl)
      · exact plain
  | true =>
      have isNumber : (('-' :: first :: rest).map Char.toLower == "nan".toList) = false :=
        lower_ne_letters rfl rfl
      have noUnderscore : '_' ∉ '-' :: first :: rest := by
        rw [List.mem_cons, not_or]
        exact ⟨by decide, noUnderscore⟩
      simp only [read?, if_true, List.cons_append, List.nil_append, String.toList_ofList,
        isNumber, List.contains_eq_mem, noUnderscore, decide_false, Bool.false_and,
        Bool.false_eq_true, if_false]
      exact plain

/-- A finite number is read back from its shortest decimal in any exact layout. -/
theorem read?_finiteText {x : Binary32} (finite : x.pattern < single.infinity)
    {layout : List Char → Int → List Char}
    (exact : ∀ {digits number point}, SpellsNat digits number → (point - 1).natAbs < 100000 →
      Literal.Writes (layout digits point) (number * 10 ^ (point - digits.length))) :
    read? (x.finiteText layout) = some x := by
  obtain ⟨number, spelled, value⟩ := Decimal.spells_significant (Decimal.shortest x.pattern)
  have written := exact spelled (Decimal.significant_point finite)
  have around := Decimal.surrounds_shortest x.pattern
  rw [value] at written
  have back := readDecimal?_of_writes written finite around x.isNegative
  rw [ofPattern_pattern] at back
  exact (read?_of_writes written x.isNegative).trans back

theorem pattern_lt_infinity {x : Binary32} (notNaN : x.isNaN = false)
    (notInfinite : x.isInfinite = false) : x.pattern < single.infinity := by
  rw [isNaN, decide_eq_false_iff_not] at notNaN
  rw [isInfinite, beq_eq_false_iff_ne] at notInfinite
  omega

theorem infinity_of_isInfinite {x : Binary32} (isInfinite : x.isInfinite = true) :
    infinity x.isNegative = x := by
  rw [Binary32.isInfinite, beq_iff_eq] at isInfinite
  rw [infinity, ← isInfinite, ofPattern_pattern]

/-- An infinity is read back from a word for it. -/
theorem read?_of_isInfinite {x : Binary32} (isInfinite : x.isInfinite = true) {minus plus : String}
    (below : read? minus = some (infinity true)) (above : read? plus = some (infinity false)) :
    read? (if x.isNegative then minus else plus) = some x := by
  have back := infinity_of_isInfinite isInfinite
  cases negative : x.isNegative with
  | false =>
      rw [negative] at back
      rw [if_neg Bool.false_ne_true, above, back]
  | true =>
      rw [negative] at back
      rw [if_pos rfl, below, back]

/-- A number is read back from the text that instructions show. -/
theorem read?_instructionText {x : Binary32} (notNaN : x.isNaN = false) :
    read? x.instructionText = some x := by
  rw [instructionText, notNaN, if_neg Bool.false_ne_true]
  split
  · next isInfinite => exact read?_of_isInfinite isInfinite (by decide +kernel) (by decide +kernel)
  · next notInfinite =>
      refine read?_finiteText (pattern_lt_infinity notNaN (Bool.not_eq_true _ ▸ notInfinite)) ?_
      intro digits number point spelled small
      split
      · exact Decimal.writes_scientific spelled small
      · exact Decimal.writes_positional spelled point

/-- A number is read back from the text that is printed. -/
theorem read?_printedText {x : Binary32} (notNaN : x.isNaN = false) :
    read? x.printedText = some x := by
  rw [printedText, notNaN, if_neg Bool.false_ne_true]
  split
  · next isInfinite => exact read?_of_isInfinite isInfinite (by decide +kernel) (by decide +kernel)
  · next notInfinite =>
      exact read?_finiteText (pattern_lt_infinity notNaN (Bool.not_eq_true _ ▸ notInfinite))
        fun spelled _ => Decimal.writes_positional spelled _

/-- Both texts of a NaN are one word, which is read as the NaN of the machine. -/
theorem text_of_isNaN {x : Binary32} (isNaN : x.isNaN = true) :
    x.instructionText = "NaN" ∧ x.printedText = "NaN" := by
  rw [instructionText, printedText, isNaN]
  exact ⟨rfl, rfl⟩

theorem read?_nan : read? "NaN" = some nan := by
  decide +kernel

end Binary32

end StackMachine
