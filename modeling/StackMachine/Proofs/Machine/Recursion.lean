import Mathlib
import StackMachine.Proofs.Machine.Untraced

/-!
# Running by recursion

A program can also be run by recursion.  The interpreter of an activation executes its body from
instruction to instruction; a call is carried out by an interpreter of its own, which hands back the
world when the callee has ended, and a failure leaves all interpreters at once.  This comes to the
same as a run on an explicit stack of activations: the innermost activation is executed to its end,
and then the run goes on with those below it (`outcome_run_cons`).  The run of a machine is the
activation of its `main`.
-/

namespace StackMachine

/-- How the execution of an activation ends that was given some fuel. -/
structure Exit (fuel : Nat) where
  world : World
  /-- Why the whole run stops; `none` if the activation has ended and its caller goes on. -/
  halt : Option Halt
  /-- The fuel that was not used. -/
  left : Nat
  left_le : left ≤ fuel

/-- An exit, seen from where there was more fuel. -/
def Exit.widen {fuel more : Nat} (le : fuel ≤ more) (exit : Exit fuel) : Exit more :=
  { exit with left_le := exit.left_le.trans le }

/-- Executes an activation to its end, and each function that it calls by recursion. -/
def Frame.finish (setup : RunSetup) (frame : Frame) (fuel : Nat) (world : World) : Exit fuel :=
  match frame.fetch with
  | .bodyEnd => ⟨world, none, fuel, Nat.le_refl fuel⟩
  | .crash crash => ⟨world, some (.crashed crash), fuel, Nat.le_refl fuel⟩
  | .instruction token =>
      match fuel with
      | 0 =>
          ⟨world, some (.failed (frame.error token (.interrupted setup.interruption))), 0,
            Nat.le_refl 0⟩
      | fuel + 1 =>
          match setup.execute frame.function.body frame.depth token world with
          | (after, .ok .next) =>
              (finish setup { frame with position := frame.position + 1 } fuel after).widen
                (Nat.le_succ fuel)
          | (after, .ok (.jump position)) =>
              (finish setup { frame with position := position.toInt } fuel after).widen
                (Nat.le_succ fuel)
          | (after, .ok (.enter callee)) =>
              let called := finish setup ⟨callee, 0, frame.depth + 1⟩ fuel after
              match called.halt with
              | some _ => called.widen (Nat.le_succ fuel)
              | none =>
                  (finish setup { frame with position := frame.position + 1 } called.left
                    called.world).widen (called.left_le.trans (Nat.le_succ fuel))
          | (after, .error cause) =>
              ⟨after, some (.failed (frame.error token cause)), fuel, Nat.le_succ fuel⟩
termination_by fuel
decreasing_by
  · exact Nat.lt_succ_self fuel
  · exact Nat.lt_succ_self fuel
  · exact Nat.lt_succ_self fuel
  · exact Nat.lt_succ_of_le called.left_le

namespace RunState

/-- What a run leaves behind when it stops. -/
structure Outcome where
  world : World
  halt : Halt
  /-- The fuel that was not used. -/
  fuel : Nat
  deriving DecidableEq

/-- The end of a run without its activations and its trace. -/
def Ending.outcome (ending : Ending) : Outcome := ⟨ending.state.world, ending.halt, ending.fuel⟩

theorem Ending.outcome_untraced (ending : Ending) : ending.untraced.outcome = ending.outcome :=
  rfl

end RunState

/-- Executes a function from its beginning to its end, at a depth of calls. -/
def Function.activate (function : Function) (setup : RunSetup) (depth fuel : Nat) (world : World)
    (trace : Trace) : RunState.Ending :=
  match RunState.enter setup function depth ⟨[], world, trace⟩ with
  | (s, some halt) => ⟨s, halt, fuel⟩
  | (s, none) => s.run setup fuel

/-- With a log that takes every line, the outcome of an activation is that of a run without a
log. -/
theorem Function.outcome_activate {setup : RunSetup} (accepts : setup.LogAccepts)
    (function : Function) (depth fuel : Nat) (world : World) (trace : Trace) :
    (function.activate setup depth fuel world trace).outcome =
      (RunState.run setup.untraced fuel ⟨[⟨function, 0, depth⟩], world, {}⟩).outcome := by
  have entered : RunState.enter setup function depth ⟨[], world, trace⟩ =
      ((RunState.enter setup function depth ⟨[], world, trace⟩).1, none) :=
    Prod.ext rfl (RunState.enter_accepted accepts function depth ⟨[], world, trace⟩)
  rw [activate, entered]
  dsimp only
  rw [← RunState.Ending.outcome_untraced, RunState.run_untraced accepts]
  rfl

namespace Machine

/-- The activation of the first `main`, if there is one. -/
def firstFrames (machine : Machine) : List Frame :=
  (machine.setup.program.lookup? "main").toList.map (⟨·, 0, 1⟩)

/-- The run of a machine whose log takes every line is the run of its first `main` without a log. -/
theorem outcome_execution {machine : Machine} (accepts : machine.setup.LogAccepts) (fuel : Nat) :
    (machine.execution fuel).outcome =
      (RunState.run machine.setup.untraced fuel
        ⟨machine.firstFrames, machine.initial.world, {}⟩).outcome := by
  rw [execution_eq, start, firstFrames]
  cases machine.setup.program.lookup? "main" with
  | none =>
      dsimp only
      rw [Trace.log_accepted accepts, Option.toList_none, List.map_nil, RunState.run_nil]
      rfl
  | some main =>
      exact main.outcome_activate accepts 1 fuel machine.initial.world machine.initial.trace

end Machine

end StackMachine
