import Mathlib
import StackMachine.Machine.Execute

/-!
# Why instructions fail

Which causes a failed primitive, a failed call and a failed token can have.  The causes of a
primitive are those of its parts: what follows references, reads, writes and flushes.
-/

namespace StackMachine

/-- The causes of failures of primitives. -/
def Cause.isOfPrimitive : Cause → Bool
  | .stackUnderflow | .heapBounds _ | .referenceCycle | .inputEnded | .inputFault _
  | .notInteger _ | .outputFault _ => true
  | _ => false

/-- An action that fails only for certain causes. -/
def FailsOnly {α : Type} (allowed : Cause → Bool) (result : World × Except Cause α) : Prop :=
  ∀ cause, result.2 = .error cause → allowed cause = true

theorem FailsOnly.andThen {α β : Type} {allowed : Cause → Bool}
    {result : World × Except Cause α} {next : α → World → World × Except Cause β}
    (first : FailsOnly allowed result) (second : ∀ a w, FailsOnly allowed (next a w)) :
    FailsOnly allowed (andThen result next) := by
  rcases result with ⟨world, cause | value⟩
  · intro failed same
    cases same
    exact first cause rfl
  · exact second value world

theorem Memory.followFrom_cause {m : Memory} {hops : Nat} {a : Atom} {cause : Cause}
    (followed : m.followFrom hops a = .error cause) : cause.isOfPrimitive = true := by
  induction hops generalizing a with
  | zero =>
      cases a <;> cases followed
      rfl
  | succ hops ih =>
      cases a with
      | ref address =>
          simp only [Memory.followFrom] at followed
          split at followed
          · exact ih followed
          · cases followed
            rfl
      | null | int | float | str | unknown => cases followed

namespace Setup

end Setup

end StackMachine
