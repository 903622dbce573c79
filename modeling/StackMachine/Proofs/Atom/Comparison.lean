import Mathlib
import StackMachine.Atom.Arithmetic
import StackMachine.Proofs.Number.Nearest

/-!
# The laws of comparison

Integers are ordered by their values.  Single-precision numbers are ordered by their signed
patterns: of two numbers of one sign the larger pattern has the larger magnitude, and the patterns
of the two zeros are the same (`Binary32.value_lt_value_iff`).  Both orders are thus orders of whole
numbers, here called ranks, and on operands that have ranks the six comparisons are the comparisons
of these (`BinaryOperator.confirms_iff`).  The laws of an order follow for integers and numbers
alike; a NaN has no rank, and every comparison with it is false but `ne`.
-/

namespace StackMachine

/-! ## The order of single-precision numbers -/

namespace Binary32

/-- The pattern of a number with its sign. -/
def rank (x : Binary32) : Int := if x.isNegative then -(x.pattern : Int) else x.pattern

theorem units_lt_units_iff (x y : Binary32) : x.units < y.units ↔ x.pattern < y.pattern :=
  BinaryFormat.single.magnitude_strictMono.lt_iff_lt

theorem units_pos_iff (x : Binary32) : 0 < x.units ↔ 0 < x.pattern := by
  have zero : BinaryFormat.single.magnitude 0 = 0 := by decide
  have order : BinaryFormat.single.magnitude 0 < x.units ↔ 0 < x.pattern :=
    BinaryFormat.single.magnitude_strictMono.lt_iff_lt
  rwa [zero] at order

/-- Values are ordered as their signed patterns are. -/
theorem value_lt_value_iff (x y : Binary32) : x.value < y.value ↔ x.rank < y.rank := by
  have above := units_lt_units_iff x y
  have below := units_lt_units_iff y x
  have left := units_pos_iff x
  have right := units_pos_iff y
  unfold value rank
  cases x.isNegative <;> cases y.isNegative <;>
    simp only [Bool.false_eq_true, if_true, if_false] <;> omega

theorem compare_value (x y : Binary32) : compare x.value y.value = compare x.rank y.rank := by
  have above := value_lt_value_iff x y
  have below := value_lt_value_iff y x
  rcases lt_trichotomy x.rank y.rank with less | same | greater
  · rw [compare_lt_iff_lt.mpr less, compare_lt_iff_lt, above]
    exact less
  · have equal : x.value = y.value := by omega
    rw [same, equal, compare_eq_iff_eq.mpr rfl, compare_eq_iff_eq.mpr rfl]
  · rw [compare_gt_iff_gt.mpr greater, compare_gt_iff_gt]
    exact below.mpr greater

/-- Only the two zeros are different numbers of one rank. -/
theorem rank_eq_rank_iff (x y : Binary32) :
    x.rank = y.rank ↔ x = y ∨ x.isZero = true ∧ y.isZero = true := by
  simp only [isZero, beq_iff_eq]
  constructor
  · intro same
    unfold rank at same
    by_cases sign : x.isNegative = y.isNegative
    · have pattern : x.pattern = y.pattern := by
        rw [sign] at same
        split at same <;> omega
      left
      rw [← x.ofPattern_pattern, sign, pattern, y.ofPattern_pattern]
    · rw [Bool.eq_not.mpr sign] at same
      right
      cases negative : y.isNegative <;> simp [negative] at same <;> omega
  · rintro (rfl | ⟨zeroX, zeroY⟩)
    · rfl
    · simp [rank, zeroX, zeroY]

end Binary32

/-- Integers are compared by their values. -/
theorem compare_toInt (l r : Int32) : compare l r = compare l.toInt r.toInt := by
  change compareOfLessAndEq l r = compareOfLessAndEq l.toInt r.toInt
  simp only [compareOfLessAndEq, Int32.lt_iff_toInt_lt, ← Int32.toInt_inj]

namespace Atom

/-- Two integers, or two numbers neither of which is a NaN. -/
inductive Ordered : Atom → Atom → Prop where
  | ints (l r : Int32) : Ordered (.int l) (.int r)
  | floats {x y : Binary32} (left : x.isNaN = false) (right : y.isNaN = false) :
      Ordered (.float x) (.float y)

/-- The place of an integer or a number among those of its kind. -/
def rank : Atom → Int
  | .int value => value.toInt
  | .float value => value.rank
  | _ => 0

theorem Ordered.symm {l r : Atom} (ordered : Ordered l r) : Ordered r l := by
  cases ordered with
  | ints l r => exact .ints r l
  | floats left right => exact .floats right left

theorem Ordered.trans {l m r : Atom} (first : Ordered l m) (second : Ordered m r) :
    Ordered l r := by
  cases first with
  | ints l m =>
      cases second with
      | ints _ r => exact .ints l r
  | floats left _ =>
      cases second with
      | floats _ right => exact .floats left right

end Atom

namespace BinaryOperator

/-- The six comparisons. -/
def isComparison : BinaryOperator → Bool
  | .eq | .ne | .lt | .le | .gt | .ge => true
  | _ => false

/-- The operands that a comparison takes: two integers or two numbers, and `eq` and `ne` also two
texts. -/
inductive Takes (operator : BinaryOperator) : Atom → Atom → Prop where
  | ints (l r : Int32) : Takes operator (.int l) (.int r)
  | floats (x y : Binary32) : Takes operator (.float x) (.float y)
  | texts (l r : String) (equality : operator = .eq ∨ operator = .ne) :
      Takes operator (.str l) (.str r)

/-- A comparison answers yes. -/
def Confirms (operator : BinaryOperator) (l r : Atom) : Prop :=
  operator.apply l r = .ok (.int 1)

theorem ofBool_eq_one_iff (truth : Bool) : Atom.ofBool truth = .int 1 ↔ truth = true := by
  cases truth <;> decide

theorem ofBool_eq_or (truth : Bool) : Atom.ofBool truth = .int 0 ∨ Atom.ofBool truth = .int 1 := by
  cases truth <;> decide

variable {operator : BinaryOperator} {l m r : Atom}

theorem apply_ints (compares : operator.isComparison = true) (l r : Int32) :
    operator.apply (.int l) (.int r) = .ok (.ofBool (operator.holds (compare l r))) := by
  cases operator with
  | eq | ne | lt | le | gt | ge => rfl
  | add | sub | mul | div | rem => cases compares

theorem apply_floats (compares : operator.isComparison = true) (x y : Binary32) :
    operator.apply (.float x) (.float y) =
      .ok (.ofBool (((x.compare? y).map operator.holds).getD (operator == .ne))) := by
  cases operator with
  | eq | ne | lt | le | gt | ge =>
      simp only [apply, onFloats]
      cases x.compare? y <;> rfl
  | add | sub | mul | div | rem => cases compares

/-- Operands in order are compared by their ranks. -/
theorem apply_of_ordered (compares : operator.isComparison = true) (ordered : Atom.Ordered l r) :
    operator.apply l r = .ok (.ofBool (operator.holds (compare l.rank r.rank))) := by
  cases ordered with
  | ints l r => rw [apply_ints compares, compare_toInt, Atom.rank, Atom.rank]
  | @floats x y left right =>
      rw [apply_floats compares, Binary32.compare?, left, right, Bool.or_false,
        if_neg Bool.false_ne_true, Binary32.compare_value, Atom.rank, Atom.rank]
      rfl

/-- The comparisons of operands in order are those of their ranks. -/
theorem confirms_iff (ordered : Atom.Ordered l r) :
    (lt.Confirms l r ↔ l.rank < r.rank) ∧ (eq.Confirms l r ↔ l.rank = r.rank) ∧
      (gt.Confirms l r ↔ r.rank < l.rank) ∧ (le.Confirms l r ↔ l.rank ≤ r.rank) ∧
      (ge.Confirms l r ↔ r.rank ≤ l.rank) := by
  have confirms {operator : BinaryOperator} (compares : operator.isComparison = true) :
      operator.Confirms l r ↔ operator.holds (compare l.rank r.rank) = true := by
    rw [Confirms, apply_of_ordered compares ordered, Except.ok.injEq, ofBool_eq_one_iff]
  rw [confirms rfl, confirms rfl, confirms rfl, confirms rfl, confirms rfl]
  rcases lt_trichotomy l.rank r.rank with less | same | greater
  · simp [holds, compare_lt_iff_lt.mpr less, less, less.le, less.ne, less.not_gt]
  · simp [holds, same]
  · simp [holds, compare_gt_iff_gt.mpr greater, greater, greater.le, greater.ne', greater.not_gt]

theorem lt_eq_gt_swap (ordered : Atom.Ordered l r) : lt.apply l r = gt.apply r l := by
  rw [apply_of_ordered rfl ordered, apply_of_ordered rfl ordered.symm]
  rcases lt_trichotomy l.rank r.rank with less | same | greater
  · rw [compare_lt_iff_lt.mpr less, compare_gt_iff_gt.mpr less]
    rfl
  · rw [same, compare_eq_iff_eq.mpr rfl]
    rfl
  · rw [compare_gt_iff_gt.mpr greater, compare_lt_iff_lt.mpr greater]
    rfl

/-- A comparison with a NaN fails to hold, except `ne`. -/
theorem apply_of_isNaN (compares : operator.isComparison = true) {x y : Binary32}
    (nan : x.isNaN = true ∨ y.isNaN = true) :
    operator.apply (.float x) (.float y) = .ok (.int (if operator = .ne then 1 else 0)) := by
  have unordered : x.compare? y = none := if_pos (by simpa using nan)
  rw [apply_floats compares, unordered]
  cases operator <;> rfl

theorem apply_texts (l r : String) :
    eq.apply (.str l) (.str r) = .ok (.ofBool (l == r)) ∧
      ne.apply (.str l) (.str r) = .ok (.ofBool (l != r)) :=
  ⟨rfl, rfl⟩

/-- A comparison answers zero or one where it takes the operands. -/
theorem apply_of_takes (compares : operator.isComparison = true) (takes : operator.Takes l r) :
    operator.apply l r = .ok (.int 0) ∨ operator.apply l r = .ok (.int 1) := by
  obtain ⟨truth, applied⟩ : ∃ truth, operator.apply l r = .ok (.ofBool truth) := by
    cases takes with
    | ints l r => exact ⟨_, apply_ints compares l r⟩
    | floats x y => exact ⟨_, apply_floats compares x y⟩
    | texts l r equality =>
        rcases equality with rfl | rfl
        · exact ⟨_, (apply_texts l r).1⟩
        · exact ⟨_, (apply_texts l r).2⟩
  rw [applied, Except.ok.injEq, Except.ok.injEq]
  exact ofBool_eq_or truth

/-- A comparison that does not take its operands tells them, in order. -/
theorem apply_of_not_takes (compares : operator.isComparison = true)
    (refuses : ¬ operator.Takes l r) : operator.apply l r = .error (.mismatch operator l r) := by
  unfold apply
  split
  · exact absurd (.ints _ _) refuses
  · exact absurd (.floats _ _) refuses
  · cases operator with
    | eq => exact absurd (.texts _ _ (.inl rfl)) refuses
    | ne => exact absurd (.texts _ _ (.inr rfl)) refuses
    | lt | le | gt | ge => rfl
    | add | sub | mul | div | rem => cases compares
  · rfl

/-- The answer of `ne` is the opposite of that of `eq`. -/
theorem ne_of_eq {a b : Atom} (equal : eq.apply l r = .ok a) (unequal : ne.apply l r = .ok b) :
    a = .int 0 ∧ b = .int 1 ∨ a = .int 1 ∧ b = .int 0 := by
  obtain ⟨truth, isEqual, isUnequal⟩ : ∃ truth, eq.apply l r = .ok (.ofBool truth) ∧
      ne.apply l r = .ok (.ofBool !truth) := by
    by_cases takes : eq.Takes l r
    · cases takes with
      | ints l r =>
          refine ⟨_, apply_ints rfl l r, ?_⟩
          rw [apply_ints rfl]
          cases compare l r <;> rfl
      | floats x y =>
          refine ⟨_, apply_floats rfl x y, ?_⟩
          rw [apply_floats rfl]
          rcases x.compare? y with _ | _ | _ | _ <;> rfl
      | texts l r => exact ⟨_, apply_texts l r⟩
    · rw [apply_of_not_takes rfl takes] at equal
      cases equal
  rw [isEqual] at equal
  rw [isUnequal] at unequal
  cases equal
  cases unequal
  cases truth with
  | false => exact .inl ⟨rfl, rfl⟩
  | true => exact .inr ⟨rfl, rfl⟩

end BinaryOperator

open BinaryOperator

/-- Comparisons are coherent.  Each of the six takes two integers or two numbers, `eq` and `ne` also
two texts, and answers zero or one; it refuses all other operands and tells them in order.  On
integers and on numbers that are no NaN the comparisons are those of a total order, in which the two
zeros, and no other two numbers, are equal.  Every comparison with a NaN is false but `ne`, and `ne`
is the opposite of `eq` wherever both answer. -/
theorem comparisons_coherent :
    (∀ operator : BinaryOperator, operator.isComparison = true → ∀ l r : Atom,
      (operator.Takes l r →
        operator.apply l r = .ok (.int 0) ∨ operator.apply l r = .ok (.int 1)) ∧
      (¬ operator.Takes l r → operator.apply l r = .error (.mismatch operator l r))) ∧
    (∀ l r : Atom, Atom.Ordered l r →
      (lt.Confirms l r ∧ ¬ eq.Confirms l r ∧ ¬ gt.Confirms l r ∨
        ¬ lt.Confirms l r ∧ eq.Confirms l r ∧ ¬ gt.Confirms l r ∨
        ¬ lt.Confirms l r ∧ ¬ eq.Confirms l r ∧ gt.Confirms l r) ∧
      (le.Confirms l r ↔ lt.Confirms l r ∨ eq.Confirms l r) ∧
      (ge.Confirms l r ↔ gt.Confirms l r ∨ eq.Confirms l r) ∧
      lt.apply l r = gt.apply r l ∧
      (lt.Confirms l r ↔ l.rank < r.rank)) ∧
    (∀ l m r : Atom, Atom.Ordered l m → Atom.Ordered m r →
      (lt.Confirms l m → lt.Confirms m r → lt.Confirms l r) ∧
      (eq.Confirms l m → eq.Confirms m r → eq.Confirms l r)) ∧
    (∀ a : Atom, Atom.Ordered a a → eq.Confirms a a) ∧
    (∀ l r : Atom, Atom.Ordered l r → eq.Confirms l r → eq.Confirms r l) ∧
    (∀ l r : Int32, eq.Confirms (.int l) (.int r) ↔ l = r) ∧
    (∀ x y : Binary32, x.isNaN = false → y.isNaN = false →
      (eq.Confirms (.float x) (.float y) ↔ x = y ∨ x.isZero = true ∧ y.isZero = true)) ∧
    eq.Confirms (.float ⟨0x80000000⟩) (.float ⟨0⟩) ∧
    (∀ x y : Binary32, x.isNaN = true ∨ y.isNaN = true →
      ∀ operator : BinaryOperator, operator.isComparison = true →
        operator.apply (.float x) (.float y) = .ok (.int (if operator = .ne then 1 else 0))) ∧
    (∀ l r a b : Atom, eq.apply l r = .ok a → ne.apply l r = .ok b →
      a = .int 0 ∧ b = .int 1 ∨ a = .int 1 ∧ b = .int 0) := by
  refine ⟨fun operator compares l r => ⟨apply_of_takes compares, apply_of_not_takes compares⟩,
    fun l r ordered => ?_, fun l m r first second => ?_, fun a ordered => ?_,
    fun l r ordered equal => ?_, fun l r => ?_, fun x y left right => ?_, ?_,
    fun x y nan operator compares => apply_of_isNaN compares nan,
    fun l r a b equal unequal => ne_of_eq equal unequal⟩
  · obtain ⟨isLess, isEqual, isGreater, isLessEqual, isGreaterEqual⟩ := confirms_iff ordered
    refine ⟨?_, ?_, ?_, lt_eq_gt_swap ordered, isLess⟩
    · rw [isLess, isEqual, isGreater]
      omega
    · rw [isLess, isEqual, isLessEqual, le_iff_lt_or_eq]
    · rw [isGreater, isEqual, isGreaterEqual, le_iff_lt_or_eq, eq_comm]
  · rw [(confirms_iff first).1, (confirms_iff second).1, (confirms_iff (first.trans second)).1,
      (confirms_iff first).2.1, (confirms_iff second).2.1, (confirms_iff (first.trans second)).2.1]
    exact ⟨lt_trans, Eq.trans⟩
  · exact (confirms_iff ordered).2.1.mpr rfl
  · exact (confirms_iff ordered.symm).2.1.mpr ((confirms_iff ordered).2.1.mp equal).symm
  · rw [(confirms_iff (.ints l r)).2.1, Atom.rank, Atom.rank, Int32.toInt_inj]
  · rw [(confirms_iff (.floats left right)).2.1, Atom.rank, Atom.rank, Binary32.rank_eq_rank_iff]
  · exact (confirms_iff (.floats rfl rfl)).2.1.mpr rfl

end StackMachine
