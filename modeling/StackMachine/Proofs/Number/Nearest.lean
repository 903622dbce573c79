import Mathlib
import StackMachine.Number.Binary32

/-!
# Rounding what needs no rounding

The pattern nearest to the magnitude of a finite pattern is that pattern, whatever denominator the
magnitude is written over.  So a single-precision number survives every way through an exact form
of its value.
-/

namespace StackMachine

theorem divNearestEven_mul_left {den : Nat} (positive : 0 < den) (quotient : Nat) :
    divNearestEven (quotient * den) den = quotient := by
  simp [divNearestEven, Nat.mul_div_cancel _ positive, positive]

namespace BinaryFormat

variable (format : BinaryFormat)

theorem binade_pos : 0 < format.binade :=
  Nat.pow_pos (by decide)

theorem infinity_lt_signBit : format.infinity < format.signBit :=
  Nat.mul_lt_mul_of_pos_right (Nat.sub_lt (Nat.two_pow_pos _) Nat.one_pos) format.binade_pos

theorem nearest_le_infinity (num den : Nat) : format.nearest num den ≤ format.infinity :=
  Nat.min_le_right _ _

/-- The magnitude of a pattern below the first full binade is the pattern itself. -/
theorem magnitude_of_lt {pattern : Nat} (small : pattern < format.binade) :
    format.magnitude pattern = pattern := by
  simp [magnitude, Nat.div_eq_of_lt small, Nat.mod_eq_of_lt small]

/-- A pattern in a full binade is a fraction and a power of two. -/
theorem magnitude_of_exponent {exponent fraction : Nat} (small : fraction < format.binade) :
    format.magnitude ((exponent + 1) * format.binade + fraction) =
      (format.binade + fraction) * 2 ^ exponent := by
  have positive := format.binade_pos
  have quotient : ((exponent + 1) * format.binade + fraction) / format.binade = exponent + 1 := by
    rw [Nat.mul_comm, Nat.mul_add_div positive, Nat.div_eq_of_lt small, Nat.add_zero]
  have remainder : ((exponent + 1) * format.binade + fraction) % format.binade = fraction := by
    rw [Nat.mul_comm, Nat.mul_add_mod, Nat.mod_eq_of_lt small]
  simp only [magnitude, quotient, remainder, Nat.add_sub_cancel, if_neg (Nat.succ_ne_zero exponent),
    Nat.pow_eq]

/-- The next pattern has a larger magnitude. -/
theorem magnitude_lt_succ (pattern : Nat) :
    format.magnitude pattern < format.magnitude (pattern + 1) := by
  have parts : pattern / format.binade * format.binade + pattern % format.binade = pattern := by
    rw [Nat.mul_comm, Nat.div_add_mod]
  have fraction := Nat.mod_lt pattern format.binade_pos
  have binadePos := format.binade_pos
  generalize pattern / format.binade = exponent at parts
  generalize pattern % format.binade = offset at parts fraction
  -- The next pattern is in the same binade, or it is the first of the next one.
  have next : offset + 1 < format.binade ∨ offset + 1 = format.binade := by omega
  cases exponent with
  | zero =>
      rw [Nat.zero_mul, Nat.zero_add] at parts
      rw [← parts, format.magnitude_of_lt fraction]
      rcases next with inside | last
      · rw [format.magnitude_of_lt inside]
        exact Nat.lt_succ_self offset
      · have first := @magnitude_of_exponent format 0 0 binadePos
        rw [last]
        simp only [Nat.zero_add, Nat.one_mul, Nat.add_zero, pow_zero, Nat.mul_one] at first
        omega
  | succ exponent =>
      rw [← parts, format.magnitude_of_exponent fraction]
      rcases next with inside | last
      · rw [Nat.add_assoc, format.magnitude_of_exponent inside]
        exact Nat.mul_lt_mul_of_pos_right (by omega) (Nat.two_pow_pos exponent)
      · have first : (exponent + 1) * format.binade + offset + 1 =
            (exponent + 1 + 1) * format.binade + 0 := by
          rw [Nat.add_assoc, last]
          ring
        rw [first, format.magnitude_of_exponent binadePos, Nat.pow_succ,
          Nat.mul_comm (2 ^ exponent), ← Nat.mul_assoc]
        exact Nat.mul_lt_mul_of_pos_right (by omega) (Nat.two_pow_pos exponent)

/-- Larger patterns have larger magnitudes. -/
theorem magnitude_strictMono : StrictMono format.magnitude :=
  strictMono_nat_of_lt_succ format.magnitude_lt_succ

/-- The significand of a full binade has all its bits. -/
theorem log2_significand {exponent fraction : Nat} (small : fraction < format.binade) :
    Nat.log2 ((format.binade + fraction) * 2 ^ exponent) = format.precision - 1 + exponent := by
  have positive := format.binade_pos
  have power : format.binade = 2 ^ (format.precision - 1) := rfl
  have nonzero : (format.binade + fraction) * 2 ^ exponent ≠ 0 :=
    Nat.mul_ne_zero (by omega) (Nat.two_pow_pos exponent).ne'
  rw [Nat.log2_eq_iff nonzero]
  constructor
  · rw [Nat.pow_add]
    exact Nat.mul_le_mul_right _ (by omega)
  · calc
      (format.binade + fraction) * 2 ^ exponent < (2 * format.binade) * 2 ^ exponent :=
        Nat.mul_lt_mul_of_pos_right (by omega) (Nat.two_pow_pos exponent)
      _ = 2 ^ (format.precision - 1 + exponent + 1) := by
        rw [power, Nat.pow_add, Nat.pow_add, pow_one]
        ring

/-- A magnitude over any denominator is rounded by its own bits. -/
theorem nearest_mul (num : Nat) {den : Nat} (positive : 0 < den) :
    format.nearest (num * den) den =
      min ((Nat.log2 num + 1 - format.precision) * format.binade +
        divNearestEven (num * den) (den * 2 ^ (Nat.log2 num + 1 - format.precision)))
        format.infinity := by
  unfold nearest
  rw [Nat.mul_div_cancel _ positive]
  rfl

/-- Rounding gives back a finite pattern from its magnitude. -/
theorem nearest_magnitude (hasBits : 0 < format.precision) {pattern den : Nat}
    (finite : pattern < format.infinity) (positive : 0 < den) :
    format.nearest (format.magnitude pattern * den) den = pattern := by
  have binadePos := format.binade_pos
  rw [format.nearest_mul _ positive]
  by_cases small : pattern < format.binade
  · rw [format.magnitude_of_lt small]
    have excess : Nat.log2 pattern + 1 - format.precision = 0 := by
      by_cases zero : pattern = 0
      · subst zero
        rw [Nat.log2_zero]
        omega
      · have := (Nat.log2_lt zero).mpr small
        omega
    rw [excess, pow_zero, Nat.zero_mul, Nat.zero_add, Nat.mul_one,
      divNearestEven_mul_left positive]
    exact Nat.min_eq_left finite.le
  · obtain ⟨exponent, exponent_eq⟩ : ∃ exponent, pattern / format.binade = exponent + 1 :=
      Nat.exists_eq_succ_of_ne_zero (Nat.div_pos (Nat.not_lt.mp small) binadePos).ne'
    have parts : (exponent + 1) * format.binade + pattern % format.binade = pattern := by
      rw [← exponent_eq, Nat.mul_comm, Nat.div_add_mod]
    have fraction := Nat.mod_lt pattern binadePos
    have excess : format.precision - 1 + exponent + 1 - format.precision = exponent := by omega
    rw [← parts, format.magnitude_of_exponent fraction, format.log2_significand fraction, excess,
      Nat.mul_assoc, Nat.mul_comm (2 ^ exponent) den,
      divNearestEven_mul_left (Nat.mul_pos positive (Nat.two_pow_pos exponent))]
    have whole : exponent * format.binade + (format.binade + pattern % format.binade) =
        (exponent + 1) * format.binade + pattern % format.binade := by ring
    rw [whole, parts]
    exact Nat.min_eq_left finite.le

end BinaryFormat

namespace Binary32

theorem pattern_lt (x : Binary32) : x.pattern < BinaryFormat.single.signBit :=
  Nat.mod_lt _ (by decide)

theorem isNegative_iff (x : Binary32) :
    x.isNegative = true ↔ BinaryFormat.single.signBit ≤ x.bits.toNat := by
  simp only [isNegative, decide_eq_true_eq, UInt32.le_iff_toNat_le]
  rfl

section ofPattern

variable {pattern : Nat} (small : pattern < BinaryFormat.single.signBit) (negative : Bool)

include small

theorem bits_ofPattern : (ofPattern negative pattern).bits.toNat =
    if negative then BinaryFormat.single.signBit + pattern else pattern := by
  have limit : BinaryFormat.single.signBit = 0x80000000 := by decide
  rw [ofPattern, UInt32.toNat_ofNat_of_lt']
  rw [limit] at small ⊢
  split <;> (simp only [UInt32.size]; omega)

@[simp]
theorem pattern_ofPattern : (ofPattern negative pattern).pattern = pattern := by
  rw [Binary32.pattern, bits_ofPattern small]
  cases negative with
  | false => exact Nat.mod_eq_of_lt small
  | true =>
      rw [if_pos rfl, Nat.add_mod_left]
      exact Nat.mod_eq_of_lt small

end ofPattern

theorem eq_of_bits {x y : Binary32} (same : x.bits.toNat = y.bits.toNat) : x = y := by
  cases x
  cases y
  simpa only [Binary32.mk.injEq, UInt32.toNat_inj] using same

/-- A number is its sign and its pattern. -/
theorem ofPattern_pattern (x : Binary32) : ofPattern x.isNegative x.pattern = x := by
  have limit : BinaryFormat.single.signBit = 0x80000000 := by decide
  have range := x.bits.toNat_lt
  have sign := x.isNegative_iff
  apply eq_of_bits
  rw [bits_ofPattern x.pattern_lt, Binary32.pattern]
  rw [limit] at sign ⊢
  cases negative : x.isNegative with
  | false =>
      have below : x.bits.toNat < 0x80000000 := by
        rw [negative] at sign
        simpa using sign
      exact Nat.mod_eq_of_lt below
  | true =>
      have above : 0x80000000 ≤ x.bits.toNat := sign.mp negative
      rw [if_pos rfl, Nat.mod_eq_sub_mod above, Nat.mod_eq_of_lt (by omega)]
      omega

/-- Rounding gives a number or an infinity. -/
theorem isNaN_nearest (negative : Bool) (num den : Nat) :
    (nearest negative num den).isNaN = false := by
  have bound := BinaryFormat.single.nearest_le_infinity num den
  rw [isNaN, nearest, pattern_ofPattern (bound.trans_lt (BinaryFormat.infinity_lt_signBit _))]
  simpa using bound

theorem isNaN_infinity (negative : Bool) : (infinity negative).isNaN = false := by
  rw [isNaN, infinity, pattern_ofPattern (BinaryFormat.infinity_lt_signBit _)]
  simp

/-- A finite number is the nearest one to its own value. -/
theorem nearest_units {x : Binary32} (finite : x.pattern < BinaryFormat.single.infinity)
    {den : Nat} (positive : 0 < den) : nearest x.isNegative (x.units * den) den = x := by
  rw [nearest, units, BinaryFormat.single.nearest_magnitude (by decide) finite positive,
    ofPattern_pattern]

end Binary32

end StackMachine
