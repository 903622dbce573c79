import Mathlib
import StackMachine.Program.Assemble
import StackMachine.Proofs.Machine.Step

/-!
# The arithmetic of integers

Sums, differences and products of integers are exact up to a multiple of `2 ^ 32`.  Division goes
toward zero and never wraps around: it is refused together with the remainder, for a zero divisor
and for the one quotient that is out of range.  In a run the operand that is popped first is the
left one (`RunState.step_of_operands`).
-/

namespace StackMachine

/-- A division toward zero: the remainder is smaller than the divisor, and zero or of the sign of
the dividend. -/
structure TruncatedDivision (dividend divisor quotient remainder : Int) : Prop where
  whole : dividend = quotient * divisor + remainder
  small : |remainder| < |divisor|
  sign : remainder = 0 ∨ remainder.sign = dividend.sign

theorem truncatedDivision_tdiv (dividend : Int) {divisor : Int} (nonzero : divisor ≠ 0) :
    TruncatedDivision dividend divisor (dividend.tdiv divisor) (dividend.tmod divisor) := by
  constructor
  · rw [Int.mul_comm, Int.add_comm, Int.tmod_add_mul_tdiv]
  · rw [Int.abs_eq_natAbs, Int.abs_eq_natAbs, Int.natAbs_tmod, Int.ofNat_lt]
    exact Nat.mod_lt _ (Int.natAbs_pos.mpr nonzero)
  · by_cases divides : divisor ∣ dividend
    · exact .inl (Int.tmod_eq_zero_of_dvd divides)
    · exact .inr ((Int.sign_tmod dividend divisor).trans (if_neg divides))

/-- A result is the integer that a number wraps around to. -/
def WrapsTo (number : Int) (result : Except OperandError Atom) : Prop :=
  ∃ value : Int32, result = .ok (.int value) ∧ value.toInt ≡ number [ZMOD 2 ^ 32]

theorem wrapsTo_of_toInt {value : Int32} {number : Int}
    (same : value.toInt = number.bmod (2 ^ 32)) :
    WrapsTo number (.ok (.int value)) := by
  refine ⟨value, rfl, ?_⟩
  rw [same]
  exact Int.bmod_emod

section Division

variable (l r : Int32)

theorem toInt_eq_zero_iff : r.toInt = 0 ↔ r = 0 := by
  rw [← Int32.toInt_inj]
  rfl

/-- The pair whose quotient is out of range. -/
theorem toInt_extreme_iff : l.toInt = -2 ^ 31 ∧ r.toInt = -1 ↔ l = Int32.minValue ∧ r = -1 := by
  rw [← Int32.toInt_inj, ← Int32.toInt_inj, Int32.toInt_minValue]
  rfl

namespace BinaryOperator

/-- Quotient and remainder are refused for the same pairs and the same reasons. -/
theorem apply_eq_error_iff {operator : BinaryOperator} (divides : operator = .div ∨ operator = .rem)
    (error : OperandError) :
    operator.apply (.int l) (.int r) = .error error ↔
      error = .divisionByZero ∧ r.toInt = 0 ∨
        error = .overflow ∧ l.toInt = -2 ^ 31 ∧ r.toInt = -1 := by
  rw [toInt_eq_zero_iff, toInt_extreme_iff]
  rcases divides with rfl | rfl
  all_goals
    simp only [apply, onInts]
    by_cases zero : r = 0
    · simp [zero, eq_comm]
    · by_cases extreme : l = Int32.minValue ∧ r = -1
      · simp [extreme, eq_comm]
      · simp [zero, extreme]

/-- Where they are not refused, quotient and remainder are those of a division toward zero. -/
theorem apply_eq_ok_of_division (nonzero : r.toInt ≠ 0)
    (inRange : ¬ (l.toInt = -2 ^ 31 ∧ r.toInt = -1)) :
    ∃ quotient remainder : Int32,
      apply .div (.int l) (.int r) = .ok (.int quotient) ∧
      apply .rem (.int l) (.int r) = .ok (.int remainder) ∧
      TruncatedDivision l.toInt r.toInt quotient.toInt remainder.toInt := by
  have toQuotient : (l / r).toInt = l.toInt.tdiv r.toInt := by
    rw [toInt_extreme_iff, Decidable.not_and_iff_not_or_not] at inRange
    rcases inRange with notLeast | notMinusOne
    · exact Int32.toInt_div_of_ne_left l r notLeast
    · exact Int32.toInt_div_of_ne_right l r notMinusOne
  have notZero := (toInt_eq_zero_iff r).not.mp nonzero
  rw [toInt_extreme_iff] at inRange
  refine ⟨l / r, l % r, ?_, ?_, ?_⟩
  · simp only [apply, onInts, if_neg notZero, if_neg inRange]
  · simp only [apply, onInts, if_neg notZero, if_neg inRange]
  · rw [toQuotient, Int32.toInt_mod]
    exact truncatedDivision_tdiv l.toInt nonzero

end BinaryOperator

end Division

namespace RunState

variable {setup : RunSetup} {frame : Frame} {token : Token} {world : World} {trace logged : Trace}
  (taken : trace.log setup.tracer "exec" (frame.executeMessage token world) = (logged, false))
include taken

/-- An operator takes two atoms from the stack, the first one as its left operand.  Its value takes
their place, or the run halts for its error. -/
theorem step_of_operands {operator : BinaryOperator} (opcode : token.opcode = .binary operator)
    {first second : Atom} {below : List Atom}
    (stack : world.memory.stack = first :: second :: below) (rest : List Frame) :
    (∀ a, operator.apply first second = .ok a →
      step setup frame rest token world trace =
        (⟨{ frame with position := frame.position + 1 } :: rest, world.withStack (a :: below),
          logged⟩, none)) ∧
    ∀ error, operator.apply first second = .error error →
      (step setup frame rest token world trace).2 = some (.failed
        ⟨frame.function.name, frame.position.toNat, token, .operands error⟩) := by
  constructor
  · intro a applied
    have executed : setup.execute frame.function.body frame.depth token world =
        (world.withStack (a :: below), .ok .next) := by
      simp only [Setup.execute, opcode, stack, applied]
    exact step_of_stay taken executed (by rintro callee ⟨⟩) rest
  · intro error applied
    have executed : setup.execute frame.function.body frame.depth token world =
        (world.withStack below, .error (.operands error)) := by
      simp only [Setup.execute, opcode, stack, applied]
    rw [step_of_error taken executed]
    rfl

end RunState

/-- The arithmetic of integers.  For all pairs of them, sum, difference and product are the integers
congruent to the exact ones modulo `2 ^ 32`.  Quotient and remainder are refused for the same pairs,
namely because of a zero divisor or because the quotient of the least integer by minus one is out of
range; for all others they are exactly those of the division toward zero.  Wherever a run executes
an operator, and the log takes its line, the atom on top of the stack is the left operand and the
one below it the right one. -/
theorem integer_arithmetic :
    (∀ l r : Int32,
      WrapsTo (l.toInt + r.toInt) (BinaryOperator.add.apply (.int l) (.int r)) ∧
      WrapsTo (l.toInt - r.toInt) (BinaryOperator.sub.apply (.int l) (.int r)) ∧
      WrapsTo (l.toInt * r.toInt) (BinaryOperator.mul.apply (.int l) (.int r)) ∧
      (∀ error, BinaryOperator.div.apply (.int l) (.int r) = .error error ↔
        BinaryOperator.rem.apply (.int l) (.int r) = .error error) ∧
      (∀ error, BinaryOperator.div.apply (.int l) (.int r) = .error error ↔
        error = .divisionByZero ∧ r.toInt = 0 ∨
          error = .overflow ∧ l.toInt = -2 ^ 31 ∧ r.toInt = -1) ∧
      (r.toInt ≠ 0 → ¬ (l.toInt = -2 ^ 31 ∧ r.toInt = -1) →
        ∃ quotient remainder : Int32,
          BinaryOperator.div.apply (.int l) (.int r) = .ok (.int quotient) ∧
          BinaryOperator.rem.apply (.int l) (.int r) = .ok (.int remainder) ∧
          TruncatedDivision l.toInt r.toInt quotient.toInt remainder.toInt)) ∧
    ∀ (setup : RunSetup) (s : RunState) (frame : Frame) (rest : List Frame) (token : Token)
      (world : World) (trace : Trace),
      s.settle setup = .ready frame rest token world trace →
      (trace.log setup.tracer "exec" (frame.executeMessage token world)).2 = false →
      ∀ (operator : BinaryOperator) (first second : Atom) (below : List Atom),
        token.opcode = .binary operator → world.memory.stack = first :: second :: below →
        (∀ a, operator.apply first second = .ok a →
          ∃ next, s.advance? setup = some next ∧
            next.frames = { frame with position := frame.position + 1 } :: rest ∧
            next.world = world.withStack (a :: below)) ∧
        ∀ error, operator.apply first second = .error error →
          (RunState.step setup frame rest token world trace).2 = some (.failed
            ⟨frame.function.name, frame.position.toNat, token, .operands error⟩) := by
  constructor
  · intro l r
    refine ⟨wrapsTo_of_toInt (Int32.toInt_add l r), wrapsTo_of_toInt (Int32.toInt_sub l r),
      wrapsTo_of_toInt (Int32.toInt_mul l r), fun error => ?_,
      BinaryOperator.apply_eq_error_iff l r (.inl rfl),
      BinaryOperator.apply_eq_ok_of_division l r⟩
    rw [BinaryOperator.apply_eq_error_iff l r (.inl rfl),
      BinaryOperator.apply_eq_error_iff l r (.inr rfl)]
  · intro setup s frame rest token world trace due logged operator first second below opcode stack
    have taken : trace.log setup.tracer "exec" (frame.executeMessage token world) =
        ((trace.log setup.tracer "exec" (frame.executeMessage token world)).1, false) :=
      Prod.ext rfl logged
    obtain ⟨applies, fails⟩ := RunState.step_of_operands taken opcode stack rest
    refine ⟨fun a applied => ?_, fails⟩
    exact ⟨_, (RunState.advance?_eq_some_iff setup s _).mpr
      ⟨frame, rest, token, world, trace, due, applies a applied⟩, rfl, rfl⟩

/-- A function that divides minus seven, pushed last, by two. -/
def dividing : Function :=
  Assembly.function { opcode := .defun, name := "main" }
    [{ opcode := .pushi, int := 2 }, { opcode := .pushi, int := -7 }, { opcode := .binary .div }]

/-- The state of a run of `dividing` in which the division is due. -/
def dividingState : RunState where
  frames := [⟨dividing, 2, 1⟩]
  world := { memory := { stack := [.int (-7), .int 2] } }

/-- The quotient is minus three: the operand popped first is divided, toward zero. -/
theorem integer_arithmetic_dividing :
    let machine := Machine.new { functions? := some [dividing] } #[] []
    machine.Visits dividingState ∧
      ∃ next, dividingState.advance? machine.setup = some next ∧
        next.world.memory.stack = [.int (-3)] := by
  intro machine
  have visited : machine.Visits dividingState := by
    refine ⟨{ frames := [⟨dividing, 0, 1⟩] }, 2, ?_, ?_⟩
    · cbv
    · cbv
  have due : dividingState.settle machine.setup =
      .ready ⟨dividing, 2, 1⟩ [] { opcode := .binary .div } dividingState.world {} := by
    cbv
  have divided : BinaryOperator.div.apply (.int (-7)) (.int 2) = .ok (.int (-3)) := by decide
  obtain ⟨applies, -⟩ := integer_arithmetic.2 machine.setup dividingState _ _ _ _ _ due rfl .div
    (.int (-7)) (.int 2) [] rfl rfl
  obtain ⟨next, advanced, -, world⟩ := applies _ divided
  exact ⟨visited, next, advanced, congrArg (·.memory.stack) world⟩

end StackMachine
