import Mathlib
import StackMachine.Proofs.Machine.Step

/-!
# Runs without a log

A log that takes every line changes nothing but the trace: the run without it goes through the same
activations and worlds and ends in the same way (`run_untraced`).  A run without a log obeys one
equation for each thing that its innermost activation can be about to do.  Proofs about whole runs
use these equations, and go by induction on the fuel and, where activations end, on their number
(`run_induction`).
-/

namespace StackMachine

/-- The error at an instruction of an activation. -/
def Frame.error (frame : Frame) (token : Token) (cause : Cause) : RunError :=
  ⟨frame.function.name, frame.position.toNat, token, cause⟩

/-- The settings of a run that keeps no log. -/
def RunSetup.untraced (setup : RunSetup) : RunSetup := { setup with tracer := none }

namespace RunState

/-- A run in progress, without its trace. -/
def untraced (s : RunState) : RunState := { s with trace := {} }

/-- The end of a run, without its trace. -/
def Ending.untraced (ending : Ending) : Ending := { ending with state := ending.state.untraced }

/-- What is due after finished activations have been ended, without the trace. -/
def Settled.untraced : Settled → Settled
  | .halted state halt => .halted state.untraced halt
  | .ready frame rest token world _ => .ready frame rest token world {}

/-! ## A log that takes every line -/

section

variable {setup : RunSetup} (accepts : setup.LogAccepts)
include accepts

theorem settleFrom_untraced (world : World) (frames : List Frame) (trace : Trace) :
    settleFrom setup.untraced world frames {} = (settleFrom setup world frames trace).untraced := by
  induction frames generalizing trace with
  | nil => rfl
  | cons frame rest ih =>
      rw [settleFrom, settleFrom]
      cases frame.fetch with
      | instruction token => rfl
      | crash crash => rfl
      | bodyEnd =>
          dsimp only
          rw [Trace.log_accepted accepts]
          exact ih _

theorem step_untraced (frame : Frame) (rest : List Frame) (token : Token) (world : World)
    (trace : Trace) :
    step setup.untraced frame rest token world {} =
      ((step setup frame rest token world trace).1.untraced,
        (step setup frame rest token world trace).2) := by
  have same : setup.untraced.execute frame.function.body frame.depth token world =
      setup.execute frame.function.body frame.depth token world := rfl
  unfold step
  dsimp only
  rw [Trace.log_accepted accepts, same]
  rcases setup.execute frame.function.body frame.depth token world with ⟨after, cause | control⟩
  · rfl
  · cases control with
    | next => rfl
    | jump position => rfl
    | enter callee =>
        dsimp only
        rw [if_neg Bool.false_ne_true]
        refine Prod.ext rfl ?_
        exact (enter_accepted accepts callee (frame.depth + 1) _).symm

/-- A log that takes every line changes nothing but the trace. -/
theorem run_untraced (fuel : Nat) (s : RunState) :
    (s.run setup fuel).untraced = s.untraced.run setup.untraced fuel := by
  induction fuel generalizing s with
  | zero =>
      have settled : s.untraced.settle setup.untraced = (s.settle setup).untraced :=
        settleFrom_untraced accepts s.world s.frames s.trace
      rw [run, run, settled]
      cases s.settle setup <;> rfl
  | succ fuel ih =>
      have settled : s.untraced.settle setup.untraced = (s.settle setup).untraced :=
        settleFrom_untraced accepts s.world s.frames s.trace
      rw [run, run, settled]
      cases s.settle setup with
      | halted state halt => rfl
      | ready frame rest token world trace =>
          simp only [Settled.untraced, step_untraced accepts frame rest token world trace]
          rcases step setup frame rest token world trace with ⟨next, _ | halt⟩
          · exact ih next
          · rfl

end

/-! ## The equations of a run -/

section

variable {setup : RunSetup} {frame : Frame} {token : Token} {world after : World}

theorem run_nil (fuel : Nat) (world : World) (trace : Trace) :
    run setup fuel ⟨[], world, trace⟩ = ⟨⟨[], world, trace⟩, .finished, fuel⟩ := by
  cases fuel <;> rfl

/-- A crash ends the run where it happens. -/
theorem run_of_crash {crash : Crash} (fetched : frame.fetch = .crash crash) (fuel : Nat)
    (rest : List Frame) (trace : Trace) :
    run setup fuel ⟨frame :: rest, world, trace⟩ =
      ⟨⟨frame :: rest, world, trace⟩, .crashed crash, fuel⟩ := by
  cases fuel <;> simp only [run, settle, settleFrom, fetched]

variable (silent : setup.tracer = none)
include silent

/-- An activation that has reached the end of its body is left, at no cost. -/
theorem run_of_bodyEnd (fetched : frame.fetch = .bodyEnd) (fuel : Nat) (rest : List Frame)
    (trace : Trace) :
    run setup fuel ⟨frame :: rest, world, trace⟩ = run setup fuel ⟨rest, world, trace⟩ := by
  have settled : settle setup ⟨frame :: rest, world, trace⟩ =
      settle setup ⟨rest, world, trace⟩ := by
    simp only [settle, settleFrom, fetched, Trace.log, silent, Bool.false_eq_true, if_false]
  cases fuel <;> simp only [run, settled]

/-- Without fuel the instruction that is due is the place of the interruption. -/
theorem run_zero_of_instruction (fetched : frame.fetch = .instruction token) (rest : List Frame)
    (trace : Trace) :
    run setup 0 ⟨frame :: rest, world, trace⟩ =
      ⟨⟨frame :: rest, world, trace⟩,
        .failed (frame.error token (.interrupted setup.interruption)), 0⟩ := by
  simp only [run, settle, settleFrom, fetched, fail, Trace.log, silent, Frame.error]

/-- A failed instruction ends the run and keeps what it has done to the world. -/
theorem run_succ_of_error (fetched : frame.fetch = .instruction token) {cause : Cause}
    (executed : setup.execute frame.function.body frame.depth token world = (after, .error cause))
    (fuel : Nat) (rest : List Frame) (trace : Trace) :
    run setup (fuel + 1) ⟨frame :: rest, world, trace⟩ =
      ⟨⟨frame :: rest, after, trace⟩, .failed (frame.error token cause), fuel⟩ := by
  simp only [run, settle, settleFrom, fetched, step, executed, fail, Trace.log, silent,
    Bool.false_eq_true, if_false, Frame.error]

/-- After an instruction the run goes on where control has gone. -/
theorem run_succ_of_ok (fetched : frame.fetch = .instruction token) {control : Control}
    (executed : setup.execute frame.function.body frame.depth token world = (after, .ok control))
    (fuel : Nat) (rest : List Frame) (trace : Trace) :
    run setup (fuel + 1) ⟨frame :: rest, world, trace⟩ =
      run setup fuel ⟨control.frames frame rest, after, trace⟩ := by
  cases control <;>
    simp only [run, settle, settleFrom, fetched, step, executed, enter, Trace.log, silent,
      Bool.false_eq_true, if_false, Control.frames]

end

/-- Induction along a run: an activation that ends leaves those below it, and an instruction that
succeeds leaves less fuel. -/
theorem run_induction (setup : RunSetup) {motive : Nat → List Frame → World → Prop}
    (nil : ∀ fuel world, motive fuel [] world)
    (bodyEnd : ∀ fuel frame rest world, frame.fetch = .bodyEnd → motive fuel rest world →
      motive fuel (frame :: rest) world)
    (crash : ∀ fuel frame rest world crash, frame.fetch = .crash crash →
      motive fuel (frame :: rest) world)
    (spent : ∀ frame rest world token, frame.fetch = .instruction token →
      motive 0 (frame :: rest) world)
    (failed : ∀ fuel frame rest world token after cause, frame.fetch = .instruction token →
      setup.execute frame.function.body frame.depth token world = (after, .error cause) →
      motive (fuel + 1) (frame :: rest) world)
    (executed : ∀ fuel frame rest world token after control, frame.fetch = .instruction token →
      setup.execute frame.function.body frame.depth token world = (after, .ok control) →
      motive fuel (control.frames frame rest) after → motive (fuel + 1) (frame :: rest) world)
    (fuel : Nat) (frames : List Frame) (world : World) : motive fuel frames world := by
  induction fuel generalizing frames world with
  | zero =>
      induction frames with
      | nil => exact nil 0 world
      | cons frame rest shorter =>
          cases fetched : frame.fetch with
          | instruction token => exact spent frame rest world token fetched
          | crash found => exact crash 0 frame rest world found fetched
          | bodyEnd => exact bodyEnd 0 frame rest world fetched shorter
  | succ fuel less =>
      induction frames with
      | nil => exact nil (fuel + 1) world
      | cons frame rest shorter =>
          cases fetched : frame.fetch with
          | crash found => exact crash (fuel + 1) frame rest world found fetched
          | bodyEnd => exact bodyEnd (fuel + 1) frame rest world fetched shorter
          | instruction token =>
              rcases done : setup.execute frame.function.body frame.depth token world with
                ⟨after, cause | control⟩
              · exact failed fuel frame rest world token after cause fetched done
              · exact executed fuel frame rest world token after control fetched done
                  (less (control.frames frame rest) after)

end RunState

end StackMachine
