import Mathlib
import StackMachine.Number.Decimal
import StackMachine.Proofs.Number.Midpoints

/-!
# The shortest decimal reads back

The decimal chosen for a finite pattern lies between the midpoints around it
(`surrounds_shortest`).  The search ends, because the ninth grid has a step of less than the mean
of the two gaps around the pattern, and of two neighbours on such a grid one is close enough.
-/

namespace StackMachine

namespace BinaryFormat

/-- Every pattern is a significand and the binade it stands in. -/
theorem exists_significand (format : BinaryFormat) (pattern : Nat) :
    ∃ excess significand, pattern = excess * format.binade + significand ∧
      significand < 2 * format.binade ∧ (excess = 0 ∨ format.binade ≤ significand) := by
  have binadePos := format.binade_pos
  by_cases small : pattern < format.binade
  · exact ⟨0, pattern, by omega, by omega, .inl rfl⟩
  · obtain ⟨exponent, isExponent⟩ : ∃ exponent, pattern / format.binade = exponent + 1 :=
      Nat.exists_eq_succ_of_ne_zero (Nat.div_pos (Nat.not_lt.mp small) binadePos).ne'
    have fraction := Nat.mod_lt pattern binadePos
    refine ⟨exponent, format.binade + pattern % format.binade, ?_, by omega, .inr (by omega)⟩
    calc
      pattern = pattern / format.binade * format.binade + pattern % format.binade :=
        (Nat.div_add_mod' _ _).symm
      _ = exponent * format.binade + (format.binade + pattern % format.binade) := by
        rw [isExponent]
        ring

/-- A magnitude is less than `2 * binade` times the gap after it. -/
theorem magnitude_lt_gap (format : BinaryFormat) (pattern : Nat) :
    (2 * format.binade + 1) * format.magnitude pattern <
      2 * format.binade * format.magnitude (pattern + 1) := by
  obtain ⟨excess, significand, rfl, small, full⟩ := format.exists_significand pattern
  rw [magnitude_of_significand small.le full, Nat.add_assoc,
    magnitude_of_significand small (full.imp_right fun le => by omega)]
  have lastPlace : 0 < 2 ^ excess := Nat.two_pow_pos excess
  nlinarith

theorem magnitude_zero (format : BinaryFormat) : format.magnitude 0 = 0 :=
  format.magnitude_of_lt format.binade_pos

end BinaryFormat

namespace Decimal

open BinaryFormat (single)

theorem unitExponent_single : single.unitExponent = 149 := rfl

theorem magnitude_infinity : single.magnitude single.infinity = 2 ^ 23 * 2 ^ 254 :=
  @BinaryFormat.magnitude_of_exponent single 254 0 single.binade_pos

/-- A decimal in single-precision units. -/
def inUnits (decimal : Decimal) : ℚ :=
  decimal.digits * 10 ^ decimal.exponent * 2 ^ single.unitExponent

/-! ## Grids -/

/-- A power of ten as a ratio. -/
theorem pow_div_pow (exponent : Int) :
    (10 ^ exponent.toNat / 10 ^ (-exponent).toNat : ℚ) = 10 ^ exponent := by
  rcases Int.le_total 0 exponent with nonneg | nonpos
  · obtain ⟨size, rfl⟩ := Int.eq_ofNat_of_zero_le nonneg
    simp
  · obtain ⟨size, isSize⟩ := Int.exists_eq_neg_ofNat nonpos
    subst isSize
    simp

theorem gridStep_den_pos (exponent : Int) : 0 < (gridStep exponent).2 :=
  Nat.pow_pos (by decide)

theorem gridStep_num_pos (exponent : Int) : 0 < (gridStep exponent).1 :=
  Nat.mul_pos (Nat.pow_pos (by decide)) (Nat.two_pow_pos _)

/-- A decimal is a multiple of the step of its grid. -/
theorem inUnits_eq_div (digits : Nat) (exponent : Int) :
    inUnits ⟨digits, exponent⟩ =
      ((digits * (gridStep exponent).1 : ℕ) : ℚ) / (gridStep exponent).2 := by
  simp only [inUnits, gridStep, Nat.pow_eq, Nat.cast_mul, Nat.cast_pow, Nat.cast_ofNat,
    ← pow_div_pow exponent]
  ring

theorem readsBackAs_iff (pattern : Nat) (decimal : Decimal) :
    readsBackAs pattern decimal = true ↔ single.Surrounds pattern decimal.inUnits := by
  obtain ⟨digits, exponent⟩ := decimal
  rw [inUnits_eq_div, BinaryFormat.surrounds_div_iff (gridStep_den_pos exponent)]
  simp only [readsBackAs, Nat.mul_assoc]
  split
  · next even => simp [even]
  · next odd =>
      have isOdd : pattern % 2 = 1 := by omega
      simp only [isOdd, Bool.and_eq_true, decide_eq_true_eq, true_implies]
      constructor
      · rintro ⟨below, above⟩
        exact ⟨below.le, above.le, below, above⟩
      · exact fun around => around.2.2

/-- What is found on a grid is on the grid and reads back. -/
theorem onGrid?_eq_some {pattern : Nat} {exponent : Int} {decimal : Decimal}
    (found : onGrid? pattern exponent = some decimal) :
    readsBackAs pattern decimal = true ∧ decimal.exponent = exponent := by
  unfold onGrid? at found
  generalize gridStep exponent = step at found
  obtain ⟨num, den⟩ := step
  dsimp only at found
  split at found
  · cases found
  · next low _ =>
      cases found
      exact ⟨low, rfl⟩
  · next _ high =>
      cases found
      exact ⟨high, rfl⟩
  · next low high =>
      split at found
      · cases found
        exact ⟨low, rfl⟩
      · cases found
        exact ⟨high, rfl⟩
      · cases found
        split
        · exact ⟨low, rfl⟩
        · exact ⟨high, rfl⟩

/-- Nothing is found on a grid only if both neighbours of the value fail to read back. -/
theorem onGrid?_isSome {pattern : Nat} {exponent : Int}
    (close : readsBackAs pattern ⟨single.magnitude pattern * (gridStep exponent).2 /
        (gridStep exponent).1, exponent⟩ = true ∨
      readsBackAs pattern ⟨single.magnitude pattern * (gridStep exponent).2 /
        (gridStep exponent).1 + 1, exponent⟩ = true) :
    (onGrid? pattern exponent).isSome = true := by
  unfold onGrid?
  generalize gridStep exponent = step at close ⊢
  obtain ⟨num, den⟩ := step
  dsimp only at close ⊢
  split
  · next low high => simp [low, high] at close
  · rfl
  · rfl
  · split <;> rfl

/-- A value lies between its two neighbours on a grid. -/
theorem inUnits_floor (units : Nat) (exponent : Int) :
    inUnits ⟨units * (gridStep exponent).2 / (gridStep exponent).1, exponent⟩ ≤ units ∧
      units < inUnits ⟨units * (gridStep exponent).2 / (gridStep exponent).1 + 1, exponent⟩ := by
  have den_pos : (0 : ℚ) < (gridStep exponent).2 := Nat.cast_pos.mpr (gridStep_den_pos exponent)
  rw [inUnits_eq_div, inUnits_eq_div, div_le_iff₀ den_pos, lt_div_iff₀ den_pos]
  norm_cast
  refine ⟨Nat.div_mul_le_self _ _, ?_⟩
  rw [Nat.mul_comm (_ + 1)]
  exact Nat.lt_mul_div_succ _ (gridStep_num_pos exponent)

/-- On a grid finer than the mean of the gaps around a pattern one neighbour reads back. -/
theorem onGrid?_isSome_of_fine {pattern : Nat} {exponent : Int}
    (fine : 2 * (10 ^ exponent * 2 ^ single.unitExponent : ℚ) <
      single.magnitude (pattern + 1) - single.magnitude (pattern - 1)) :
    (onGrid? pattern exponent).isSome = true := by
  have floor := inUnits_floor (single.magnitude pattern) exponent
  have before : (single.magnitude (pattern - 1) : ℚ) ≤ single.magnitude pattern :=
    BinaryFormat.magnitude_le_of_le (Nat.sub_le pattern 1)
  have after : (single.magnitude pattern : ℚ) < single.magnitude (pattern + 1) :=
    BinaryFormat.magnitude_lt_of_lt (Nat.lt_succ_self pattern)
  refine onGrid?_isSome ?_
  rw [readsBackAs_iff, readsBackAs_iff]
  generalize single.magnitude pattern * (gridStep exponent).2 / (gridStep exponent).1 = low
    at floor ⊢
  have step : inUnits ⟨low + 1, exponent⟩ =
      inUnits ⟨low, exponent⟩ + 10 ^ exponent * 2 ^ single.unitExponent := by
    simp only [inUnits]
    push_cast
    ring
  rw [step] at floor ⊢
  by_cases far : (2 * inUnits ⟨low, exponent⟩ : ℚ) ≤
      single.magnitude pattern + single.magnitude (pattern - 1)
  · exact .inr ⟨by linarith, by linarith, fun _ => ⟨by linarith, by linarith⟩⟩
  · rw [not_le] at far
    exact .inl ⟨far.le, by linarith, fun _ => ⟨far, by linarith⟩⟩

/-! ## The search -/

/-- What is found reads back, on one of the grids tried. -/
theorem search_eq_some {pattern count : Nat} {exponent : Int} {decimal : Decimal}
    (found : search pattern count exponent = some decimal) :
    readsBackAs pattern decimal = true ∧ exponent - count < decimal.exponent ∧
      decimal.exponent ≤ exponent := by
  induction count generalizing exponent with
  | zero => cases found
  | succ count ih =>
      simp only [search] at found
      split at found
      · next here =>
          cases found
          obtain ⟨reads, isExponent⟩ := onGrid?_eq_some here
          exact ⟨reads, by omega, by omega⟩
      · obtain ⟨reads, above, below⟩ := ih found
        exact ⟨reads, by omega, by omega⟩

/-- The search finds something if there is something on one of the grids. -/
theorem search_isSome {pattern count skipped : Nat} {exponent : Int} (within : skipped < count)
    (there : (onGrid? pattern (exponent - skipped)).isSome = true) :
    (search pattern count exponent).isSome = true := by
  induction count generalizing exponent skipped with
  | zero => omega
  | succ count ih =>
      simp only [search]
      split
      · rfl
      · next nothing =>
          cases skipped with
          | zero =>
              rw [Nat.cast_zero, Int.sub_zero, nothing] at there
              cases there
          | succ skipped =>
              refine ih (Nat.lt_of_succ_lt_succ within) ?_
              have shifted : exponent - 1 - (skipped : Int) = exponent - (skipped + 1 : Nat) := by
                omega
              rwa [shifted]

/-! ## The leading digit -/

/-- A positive number has its leading digit at the place that its length says. -/
theorem pow_length_le {number : Nat} (nonzero : number ≠ 0) :
    10 ^ ((Nat.toDigits 10 number).length - 1) ≤ number := by
  rcases Nat.eq_zero_or_pos ((Nat.toDigits 10 number).length - 1) with single | several
  · rw [single, pow_zero]
    omega
  · have longer : ¬(Nat.toDigits 10 number).length ≤ (Nat.toDigits 10 number).length - 1 := by
      omega
    rw [Nat.length_toDigits_le_iff (by decide) several] at longer
    exact Nat.not_lt.mp longer

section leadingExponent

variable {pattern : Nat}

/-- The digits of a pattern behind the leading one, down to the place of `10 ^ (-45)`. -/
def placesBehind (pattern : Nat) : Nat :=
  (Nat.toDigits 10 (single.magnitude pattern * 10 ^ 45 / 2 ^ 149)).length - 1

theorem leadingExponent_eq (pattern : Nat) :
    leadingExponent pattern = (placesBehind pattern : Int) - (45 : Nat) := by
  have hasDigits : 0 < (Nat.toDigits 10 (single.magnitude pattern * 10 ^ 45 / 2 ^ 149)).length :=
    List.length_pos_iff.mpr Nat.toDigits_ne_nil
  have isLeading : leadingExponent pattern =
      ((Nat.toDigits 10 (single.magnitude pattern * 10 ^ 45 / 2 ^ 149)).length : Int) - 46 := rfl
  unfold placesBehind
  omega

/-- The leading digit of a pattern stands at its leading exponent. -/
theorem pow_leadingExponent_le (positive : 0 < pattern) :
    (10 ^ leadingExponent pattern * 2 ^ single.unitExponent : ℚ) ≤ single.magnitude pattern := by
  have some : 1 ≤ single.magnitude pattern := by
    have above := single.magnitude_strictMono positive
    omega
  have nonzero : single.magnitude pattern * 10 ^ 45 / 2 ^ 149 ≠ 0 := by
    have scaled : 2 ^ 149 ≤ single.magnitude pattern * 10 ^ 45 := by
      calc
        2 ^ 149 ≤ 1 * 10 ^ 45 := by norm_num
        _ ≤ single.magnitude pattern * 10 ^ 45 := Nat.mul_le_mul_right _ some
    exact (Nat.div_pos scaled (by norm_num)).ne'
  have product : 10 ^ placesBehind pattern * 2 ^ 149 ≤ single.magnitude pattern * 10 ^ 45 :=
    (Nat.mul_le_mul_right _ (pow_length_le nonzero)).trans (Nat.div_mul_le_self _ _)
  rw [leadingExponent_eq, zpow_sub₀ (by norm_num), zpow_natCast, zpow_natCast, div_mul_eq_mul_div,
    div_le_iff₀ (by positivity), unitExponent_single]
  exact mod_cast product

theorem leadingExponent_ge (pattern : Nat) : -45 ≤ leadingExponent pattern := by
  rw [leadingExponent_eq]
  omega

theorem leadingExponent_le (finite : pattern < single.infinity) :
    leadingExponent pattern ≤ 38 := by
  have bounded : single.magnitude pattern < 2 ^ 23 * 2 ^ 254 := by
    rw [← magnitude_infinity]
    exact single.magnitude_strictMono finite
  have short : (Nat.toDigits 10 (single.magnitude pattern * 10 ^ 45 / 2 ^ 149)).length ≤ 84 := by
    rw [Nat.length_toDigits_le_iff (by decide) (by decide),
      Nat.div_lt_iff_lt_mul (by norm_num)]
    calc
      single.magnitude pattern * 10 ^ 45 < 2 ^ 23 * 2 ^ 254 * 10 ^ 45 :=
        Nat.mul_lt_mul_of_pos_right bounded (by norm_num)
      _ ≤ 10 ^ 84 * 2 ^ 149 := by norm_num
  rw [leadingExponent_eq, placesBehind]
  omega

/-- Eight digits after the leading one are enough. -/
theorem search_leadingExponent_isSome (positive : 0 < pattern) :
    (search pattern 9 (leadingExponent pattern)).isSome = true := by
  refine @search_isSome pattern 9 8 _ (by decide) (onGrid?_isSome_of_fine ?_)
  have leading := pow_leadingExponent_le positive
  have gap : ((2 * 2 ^ 23 + 1 : ℚ) * single.magnitude pattern) <
      2 * 2 ^ 23 * single.magnitude (pattern + 1) := by
    exact mod_cast single.magnitude_lt_gap pattern
  have before : (single.magnitude (pattern - 1) : ℚ) < single.magnitude pattern :=
    BinaryFormat.magnitude_lt_of_lt (by omega)
  have finer : (10 ^ (leadingExponent pattern - (8 : Nat)) * 2 ^ single.unitExponent : ℚ) * 10 ^ 8 =
      10 ^ leadingExponent pattern * 2 ^ single.unitExponent := by
    rw [zpow_sub₀ (by norm_num), zpow_natCast]
    field_simp
  linarith

end leadingExponent

/-! ## The shortest decimal -/

/-- The shortest decimal of a positive pattern is what the search finds. -/
theorem search_eq_shortest {pattern : Nat} (positive : 0 < pattern) :
    search pattern 9 (leadingExponent pattern) = some (shortest pattern) := by
  obtain ⟨decimal, found⟩ := Option.isSome_iff_exists.mp (search_leadingExponent_isSome positive)
  rw [shortest, if_neg positive.ne', found]
  rfl

/-- The shortest decimal lies between the midpoints around its pattern. -/
theorem surrounds_shortest (pattern : Nat) :
    single.Surrounds pattern (shortest pattern).inUnits := by
  rcases Nat.eq_zero_or_pos pattern with rfl | positive
  · have units : (shortest 0).inUnits = 0 := by simp [shortest, inUnits]
    rw [units]
    refine ⟨by simp [BinaryFormat.magnitude_zero], by simp [BinaryFormat.magnitude_zero], ?_⟩
    intro odd
    cases odd
  · exact (readsBackAs_iff _ _).mp (search_eq_some (search_eq_shortest positive)).1

/-- The exponent of a shortest decimal. -/
theorem exponent_shortest {pattern : Nat} (finite : pattern < single.infinity) :
    -53 ≤ (shortest pattern).exponent ∧ (shortest pattern).exponent ≤ 38 := by
  rcases Nat.eq_zero_or_pos pattern with rfl | positive
  · decide
  · have range := (search_eq_some (search_eq_shortest positive)).2
    have low := leadingExponent_ge pattern
    have high := leadingExponent_le finite
    omega

/-- The digits of a shortest decimal are few. -/
theorem digits_shortest {pattern : Nat} (finite : pattern < single.infinity) :
    (shortest pattern).digits < 10 ^ 92 := by
  have exponent := (exponent_shortest finite).1
  have above := (surrounds_shortest pattern).above
  have here : (single.magnitude pattern : ℚ) ≤ 2 ^ 23 * 2 ^ 254 := by
    exact mod_cast magnitude_infinity ▸ single.magnitude_strictMono.monotone finite.le
  have next : (single.magnitude (pattern + 1) : ℚ) ≤ 2 ^ 23 * 2 ^ 254 := by
    exact mod_cast magnitude_infinity ▸ single.magnitude_strictMono.monotone finite
  have power : (10 ^ (-53 : Int) : ℚ) ≤ 10 ^ (shortest pattern).exponent :=
    zpow_le_zpow_right₀ (by norm_num) exponent
  have bounded : ((shortest pattern).digits : ℚ) * 10 ^ (-53 : Int) * 2 ^ 149 ≤
      2 ^ 23 * 2 ^ 254 := by
    calc
      ((shortest pattern).digits : ℚ) * 10 ^ (-53 : Int) * 2 ^ 149 ≤
          (shortest pattern).inUnits := by
        rw [inUnits, unitExponent_single]
        gcongr
      _ ≤ 2 ^ 23 * 2 ^ 254 := by linarith
  have small : ((shortest pattern).digits : ℚ) < 10 ^ 92 := by
    norm_num only at bounded ⊢
    linarith
  exact mod_cast small

end Decimal

end StackMachine
