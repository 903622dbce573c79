import Mathlib
import StackMachine.Proofs.Number.Nearest

/-!
# Rounding between midpoints

The numbers that round to a pattern are those between the midpoints to its two neighbours, the
midpoints themselves belonging to the even pattern.  No number has two such patterns, and the
pattern that `nearest` computes from a ratio is one, so `nearest` is known from the midpoints alone
(`nearest_of_surrounds`).
-/

namespace StackMachine

/-! ## The nearest integer -/

/-- Twice the distance to the nearest integer is at most one step. -/
theorem divNearestEven_bounds (num : Nat) {den : Nat} (positive : 0 < den) :
    (2 * divNearestEven num den) * den ≤ 2 * num + den ∧
      2 * num ≤ (2 * divNearestEven num den + 1) * den := by
  have parts : num / den * den + num % den = num := Nat.div_add_mod' num den
  have small : num % den < den := Nat.mod_lt num positive
  simp only [divNearestEven]
  generalize num / den = quotient at parts ⊢
  generalize num % den = remainder at parts small ⊢
  subst parts
  have parity : quotient % 2 = 0 ∨ quotient % 2 = 1 := Nat.mod_two_eq_zero_or_one quotient
  split
  · constructor <;> nlinarith
  · split
    · constructor <;> nlinarith
    · rcases parity with even | odd
      · rw [even]
        constructor <;> nlinarith
      · rw [odd]
        constructor <;> nlinarith

/-- The step is not reached by an odd integer. -/
theorem divNearestEven_bounds_of_odd {num den : Nat} (positive : 0 < den)
    (odd : divNearestEven num den % 2 = 1) :
    (2 * divNearestEven num den) * den < 2 * num + den ∧
      2 * num < (2 * divNearestEven num den + 1) * den := by
  have parts : num / den * den + num % den = num := Nat.div_add_mod' num den
  have small : num % den < den := Nat.mod_lt num positive
  simp only [divNearestEven] at odd ⊢
  generalize num / den = quotient at parts odd ⊢
  generalize num % den = remainder at parts small odd ⊢
  subst parts
  split at odd
  · next below =>
      rw [if_pos below]
      constructor <;> nlinarith
  · next notBelow =>
      rw [if_neg notBelow]
      split at odd
      · next above =>
          rw [if_pos above]
          constructor <;> nlinarith
      · omega

namespace BinaryFormat

variable (format : BinaryFormat)

/-- A number of units lies between the midpoints around a pattern; an odd pattern has neither of
them. -/
structure Surrounds (pattern : Nat) (units : ℚ) : Prop where
  below : (format.magnitude pattern + format.magnitude (pattern - 1) : ℚ) ≤ 2 * units
  above : 2 * units ≤ (format.magnitude pattern + format.magnitude (pattern + 1) : ℚ)
  odd : pattern % 2 = 1 →
    (format.magnitude pattern + format.magnitude (pattern - 1) : ℚ) < 2 * units ∧
      2 * units < (format.magnitude pattern + format.magnitude (pattern + 1) : ℚ)

variable {format}

/-- The midpoints around a ratio, in natural numbers. -/
theorem surrounds_div_iff {pattern num den : Nat} (positive : 0 < den) :
    format.Surrounds pattern (num / den) ↔
      (format.magnitude pattern + format.magnitude (pattern - 1)) * den ≤ 2 * num ∧
      2 * num ≤ (format.magnitude pattern + format.magnitude (pattern + 1)) * den ∧
      (pattern % 2 = 1 →
        (format.magnitude pattern + format.magnitude (pattern - 1)) * den < 2 * num ∧
        2 * num < (format.magnitude pattern + format.magnitude (pattern + 1)) * den) := by
  have den_pos : (0 : ℚ) < den := Nat.cast_pos.mpr positive
  have twice : (2 * (num / den) : ℚ) = (2 * num : ℕ) / den := by
    push_cast
    ring
  have le_iff (size : Nat) : (size : ℚ) ≤ 2 * (num / den) ↔ size * den ≤ 2 * num := by
    rw [twice, le_div_iff₀ den_pos]
    norm_cast
  have ge_iff (size : Nat) : (2 * (num / den) : ℚ) ≤ size ↔ 2 * num ≤ size * den := by
    rw [twice, div_le_iff₀ den_pos]
    norm_cast
  have lt_iff (size : Nat) : (size : ℚ) < 2 * (num / den) ↔ size * den < 2 * num := by
    rw [← not_le, ge_iff, not_le]
  have gt_iff (size : Nat) : (2 * (num / den) : ℚ) < size ↔ 2 * num < size * den := by
    rw [← not_le, le_iff, not_le]
  constructor
  · rintro ⟨below, above, odd⟩
    simp only [← Nat.cast_add, le_iff, ge_iff, lt_iff, gt_iff] at below above odd
    exact ⟨below, above, odd⟩
  · rintro ⟨below, above, odd⟩
    simp only [← le_iff, ← ge_iff, ← lt_iff, ← gt_iff, Nat.cast_add] at below above odd
    exact ⟨below, above, odd⟩

theorem magnitude_le_of_le {low high : Nat} (le : low ≤ high) :
    (format.magnitude low : ℚ) ≤ format.magnitude high :=
  Nat.cast_le.mpr (format.magnitude_strictMono.monotone le)

theorem magnitude_lt_of_lt {low high : Nat} (lt : low < high) :
    (format.magnitude low : ℚ) < format.magnitude high :=
  Nat.cast_lt.mpr (format.magnitude_strictMono lt)

/-- Of two patterns around one number the first is not smaller. -/
theorem Surrounds.not_lt {low high : Nat} {units : ℚ} (first : format.Surrounds low units)
    (second : format.Surrounds high units) : ¬low < high := by
  intro less
  have start : (format.magnitude low : ℚ) ≤ format.magnitude (high - 1) :=
    magnitude_le_of_le (by omega)
  have finish : (format.magnitude (low + 1) : ℚ) ≤ format.magnitude high :=
    magnitude_le_of_le less
  have above := first.above
  have below := second.below
  -- The number can only be the midpoint of two neighbours, and one of them is odd.
  by_cases adjacent : low + 1 = high
  · rcases Nat.mod_two_eq_zero_or_one low with even | odd
    · have strict := (second.odd (by omega)).1
      linarith
    · have strict := (first.odd odd).2
      linarith
  · have gap : (format.magnitude (low + 1) : ℚ) < format.magnitude high :=
      magnitude_lt_of_lt (by omega)
    linarith

/-- A number lies around one pattern only. -/
theorem Surrounds.unique {first second : Nat} {units : ℚ} (one : format.Surrounds first units)
    (other : format.Surrounds second units) : first = second :=
  Nat.le_antisymm (Nat.not_lt.mp (other.not_lt one)) (Nat.not_lt.mp (one.not_lt other))

/-! ## The rounded pattern -/

section rounded

variable (format) (num den : Nat)

/-- The bits of a ratio's whole part beyond the precision. -/
def excess : Nat := Nat.log2 (num / den) + 1 - format.precision

/-- The significand that rounding gives, in units of the last bit kept. -/
def roundedSignificand : Nat := divNearestEven num (den * 2 ^ format.excess num den)

/-- The nearest pattern before it is cut off at infinity. -/
def unbounded : Nat :=
  format.excess num den * format.binade + format.roundedSignificand num den

theorem nearest_eq_min : format.nearest num den = min (format.unbounded num den) format.infinity :=
  rfl

variable {format} {num den}

/-- A significand of at most one bit too many stands in its own binade or begins the next. -/
theorem magnitude_of_significand {excess significand : Nat}
    (small : significand ≤ 2 * format.binade) (full : excess = 0 ∨ format.binade ≤ significand) :
    format.magnitude (excess * format.binade + significand) = significand * 2 ^ excess := by
  have binadePos := format.binade_pos
  by_cases normal : format.binade ≤ significand
  · obtain ⟨fraction, rfl⟩ := Nat.exists_eq_add_of_le normal
    by_cases next : fraction = format.binade
    · have first : excess * format.binade + (format.binade + fraction) =
          (excess + 1 + 1) * format.binade + 0 := by
        rw [next]
        ring
      rw [first, format.magnitude_of_exponent binadePos, next, Nat.pow_succ]
      ring
    · have own : excess * format.binade + (format.binade + fraction) =
          (excess + 1) * format.binade + fraction := by ring
      rw [own, format.magnitude_of_exponent (by omega)]
  · obtain rfl : excess = 0 := full.resolve_right normal
    rw [Nat.zero_mul, Nat.zero_add, format.magnitude_of_lt (by omega), pow_zero, Nat.mul_one]

section bounds

variable (num) (hasBits : 0 < format.precision)

include hasBits

theorem num_lt_excess (positive : 0 < den) :
    num < 2 * format.binade * (den * 2 ^ format.excess num den) := by
  have whole : num / den < 2 * format.binade * 2 ^ format.excess num den := by
    calc
      num / den < 2 ^ (Nat.log2 (num / den) + 1) := Nat.lt_log2_self
      _ ≤ 2 ^ (1 + (format.precision - 1) + format.excess num den) :=
        Nat.pow_le_pow_right (by decide) (by unfold excess; omega)
      _ = 2 * format.binade * 2 ^ format.excess num den := by
        rw [Nat.pow_add, Nat.pow_add, pow_one]
        rfl
  calc
    num < 2 * format.binade * 2 ^ format.excess num den * den :=
      (Nat.div_lt_iff_lt_mul positive).mp whole
    _ = 2 * format.binade * (den * 2 ^ format.excess num den) := by ring

theorem excess_le_num (isExcess : 0 < format.excess num den) :
    format.binade * (den * 2 ^ format.excess num den) ≤ num := by
  have bits : Nat.log2 (num / den) = format.precision - 1 + format.excess num den := by
    unfold excess at isExcess ⊢
    omega
  have nonzero : num / den ≠ 0 := by
    intro zero
    rw [zero, Nat.log2_zero] at bits
    omega
  have whole : format.binade * 2 ^ format.excess num den ≤ num / den := by
    calc
      format.binade * 2 ^ format.excess num den = 2 ^ Nat.log2 (num / den) := by
        rw [bits, Nat.pow_add]
        rfl
      _ ≤ num / den := Nat.log2_self_le nonzero
  calc
    format.binade * (den * 2 ^ format.excess num den) =
        format.binade * 2 ^ format.excess num den * den := by ring
    _ ≤ num / den * den := Nat.mul_le_mul_right den whole
    _ ≤ num := Nat.div_mul_le_self num den

variable (positive : 0 < den)

include positive

theorem roundedSignificand_le : format.roundedSignificand num den ≤ 2 * format.binade := by
  have step : 0 < den * 2 ^ format.excess num den := Nat.mul_pos positive (Nat.two_pow_pos _)
  have upper := num_lt_excess num hasBits positive
  have close := (divNearestEven_bounds num step).1
  by_contra large
  have more : (2 * (2 * format.binade) + 2) * (den * 2 ^ format.excess num den) ≤
      (2 * format.roundedSignificand num den) * (den * 2 ^ format.excess num den) :=
    Nat.mul_le_mul_right _ (by omega)
  unfold roundedSignificand at more
  linarith

theorem excess_zero_or_le :
    format.excess num den = 0 ∨ format.binade ≤ format.roundedSignificand num den := by
  have step : 0 < den * 2 ^ format.excess num den := Nat.mul_pos positive (Nat.two_pow_pos _)
  refine (Nat.eq_zero_or_pos (format.excess num den)).imp_right fun isExcess => ?_
  have lower := excess_le_num num hasBits isExcess
  have close := (divNearestEven_bounds num step).2
  by_contra less
  have fewer : (2 * format.roundedSignificand num den + 2) * (den * 2 ^ format.excess num den) ≤
      (2 * format.binade) * (den * 2 ^ format.excess num den) :=
    Nat.mul_le_mul_right _ (by omega)
  unfold roundedSignificand at fewer
  linarith

theorem magnitude_unbounded : format.magnitude (format.unbounded num den) =
    format.roundedSignificand num den * 2 ^ format.excess num den :=
  magnitude_of_significand (roundedSignificand_le num hasBits positive)
    (excess_zero_or_le num hasBits positive)

/-- The midpoint below the rounded pattern is half a step away, or below the whole binade. -/
theorem midpoint_below :
    (format.magnitude (format.unbounded num den) +
        format.magnitude (format.unbounded num den - 1)) * den ≤ 2 * num ∧
    (format.roundedSignificand num den % 2 = 1 →
      (format.magnitude (format.unbounded num den) +
        format.magnitude (format.unbounded num den - 1)) * den < 2 * num) := by
  have step : 0 < den * 2 ^ format.excess num den := Nat.mul_pos positive (Nat.two_pow_pos _)
  have small := roundedSignificand_le num hasBits positive
  have full := excess_zero_or_le num hasBits positive
  have here := magnitude_unbounded num hasBits positive
  have binadePos := format.binade_pos
  by_cases zero : format.roundedSignificand num den = 0
  · have none : format.unbounded num den = 0 := by
      have noExcess := full.resolve_right (by omega)
      rw [unbounded, noExcess, zero, Nat.zero_mul]
    rw [zero, Nat.zero_mul] at here
    rw [here, none, Nat.zero_sub, format.magnitude_of_lt binadePos, zero]
    omega
  · by_cases inside : format.excess num den = 0 ∨
        format.binade ≤ format.roundedSignificand num den - 1
    · have half : (format.magnitude (format.unbounded num den) +
          format.magnitude (format.unbounded num den - 1)) * den +
            den * 2 ^ format.excess num den =
          2 * format.roundedSignificand num den * (den * 2 ^ format.excess num den) := by
        have before : format.magnitude (format.unbounded num den - 1) =
            (format.roundedSignificand num den - 1) * 2 ^ format.excess num den := by
          rw [unbounded, Nat.add_sub_assoc (by omega)]
          exact magnitude_of_significand (by omega) inside
        obtain ⟨previous, isSucc⟩ := Nat.exists_eq_succ_of_ne_zero zero
        rw [here, before, isSucc, Nat.succ_sub_one, Nat.succ_eq_add_one]
        ring
      constructor
      · have close := (divNearestEven_bounds num step).1
        unfold roundedSignificand at half
        omega
      · intro odd
        have close := (divNearestEven_bounds_of_odd step odd).1
        unfold roundedSignificand at half
        omega
    · have lower := excess_le_num num hasBits (Nat.pos_of_ne_zero fun none => inside (.inl none))
      have least : format.roundedSignificand num den = format.binade := by omega
      have before : format.magnitude (format.unbounded num den - 1) <
          format.magnitude (format.unbounded num den) := by
        refine format.magnitude_strictMono (Nat.sub_lt ?_ Nat.one_pos)
        unfold unbounded
        omega
      rw [here, least] at before ⊢
      have less : (format.binade * 2 ^ format.excess num den +
          format.magnitude (format.unbounded num den - 1)) * den < 2 * num := by nlinarith
      exact ⟨less.le, fun _ => less⟩

/-- The midpoint above the rounded pattern is half a step away, or above the whole binade. -/
theorem midpoint_above :
    2 * num ≤ (format.magnitude (format.unbounded num den) +
        format.magnitude (format.unbounded num den + 1)) * den ∧
    (format.roundedSignificand num den % 2 = 1 →
      2 * num < (format.magnitude (format.unbounded num den) +
        format.magnitude (format.unbounded num den + 1)) * den) := by
  have step : 0 < den * 2 ^ format.excess num den := Nat.mul_pos positive (Nat.two_pow_pos _)
  have small := roundedSignificand_le num hasBits positive
  have full := excess_zero_or_le num hasBits positive
  have here := magnitude_unbounded num hasBits positive
  rcases Nat.lt_or_eq_of_le small with inside | last
  · have half : (format.magnitude (format.unbounded num den) +
        format.magnitude (format.unbounded num den + 1)) * den =
        (2 * format.roundedSignificand num den + 1) * (den * 2 ^ format.excess num den) := by
      have after : format.magnitude (format.unbounded num den + 1) =
          (format.roundedSignificand num den + 1) * 2 ^ format.excess num den := by
        rw [unbounded, Nat.add_assoc]
        exact magnitude_of_significand inside (full.imp_right fun le => by omega)
      rw [here, after]
      ring
    rw [half]
    exact ⟨(divNearestEven_bounds num step).2, fun odd => (divNearestEven_bounds_of_odd step odd).2⟩
  · have upper := num_lt_excess num hasBits positive
    have after := format.magnitude_lt_succ (format.unbounded num den)
    rw [here, last] at after ⊢
    have less : 2 * num < (2 * format.binade * 2 ^ format.excess num den +
        format.magnitude (format.unbounded num den + 1)) * den := by nlinarith
    exact ⟨less.le, fun _ => less⟩

end bounds

/-- With an even binade a pattern and its significand have one parity. -/
theorem unbounded_mod_two (hasBits : 1 < format.precision) (num den : Nat) :
    format.unbounded num den % 2 = format.roundedSignificand num den % 2 := by
  have even : format.binade % 2 = 0 := by
    obtain ⟨bits, isSucc⟩ := Nat.exists_eq_add_of_lt hasBits
    rw [binade, isSucc, Nat.add_sub_cancel, Nat.add_comm]
    exact Nat.mul_mod_left _ _
  rw [unbounded, Nat.add_mod, Nat.mul_mod, even, Nat.mul_zero, Nat.zero_mod, Nat.zero_add,
    Nat.mod_mod]

/-- The rounded pattern lies around the ratio. -/
theorem surrounds_unbounded (hasBits : 1 < format.precision) (num : Nat) {den : Nat}
    (positive : 0 < den) : format.Surrounds (format.unbounded num den) (num / den) := by
  have someBits : 0 < format.precision := by omega
  have below := midpoint_below num someBits positive
  have above := midpoint_above num someBits positive
  rw [surrounds_div_iff positive, unbounded_mod_two hasBits]
  exact ⟨below.1, above.1, fun odd => ⟨below.2 odd, above.2 odd⟩⟩

/-- Rounding gives the pattern around the ratio, or infinity if that is smaller. -/
theorem nearest_of_surrounds (hasBits : 1 < format.precision) {pattern num den : Nat}
    (positive : 0 < den) (around : format.Surrounds pattern (num / den)) :
    format.nearest num den = min pattern format.infinity := by
  rw [nearest_eq_min, (surrounds_unbounded hasBits num positive).unique around]

end rounded

end BinaryFormat

end StackMachine
