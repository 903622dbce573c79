import Mathlib
import StackMachine.Proofs.Machine.Operations
import StackMachine.Proofs.Output.Mirroring

/-!
# Runs over sinks that answer alike

All that a run learns from its sinks are their answers.  Over sinks that answer alike it goes the
same way to its end, which may be a fault of the output, and leaves sinks that are alike
(`Machine.run_mirrored`).
-/

namespace StackMachine

open Sinks (Mirrors)

variable {Alike : Sinks → Sinks → Prop}

/-- An action that does the same over sinks that are alike. -/
def Mirroring (Alike : Sinks → Sinks → Prop) {α : Type} (action : World → World × α) : Prop :=
  ∀ w other, Output.Mirrored Alike w.output other →
    ∃ after, Output.Mirrored Alike (action w).1.output after ∧
      action (w.withOutput other) = ((action w).1.withOutput after, (action w).2)

namespace Mirroring

/-- An action that has nothing to do with the output. -/
theorem of_withOutput {α : Type} {action : World → World × α}
    (same : ∀ w output,
      action (w.withOutput output) = ((action w).1.withOutput output, (action w).2)) :
    Mirroring Alike action := by
  intro w other mirrored
  have kept : (action w).1.output = w.output :=
    congrArg (fun result : World × α => result.1.output) (same w w.output)
  exact ⟨other, kept ▸ mirrored, same w other⟩

theorem andThen {α β : Type} {action : World → World × Except Cause α}
    {next : α → World → World × Except Cause β} (first : Mirroring Alike action)
    (second : ∀ a, Mirroring Alike (next a)) :
    Mirroring Alike fun w => StackMachine.andThen (action w) next := by
  intro w other mirrored
  obtain ⟨after, stays, same⟩ := first w other mirrored
  dsimp only
  rw [same]
  rcases done : action w with ⟨between, cause | value⟩
  · rw [done] at stays
    exact ⟨after, stays, rfl⟩
  · rw [done] at stays
    exact second value between after stays

end Mirroring

theorem World.emit_mirroring (mirrors : Mirrors Alike) (text : String) :
    Mirroring Alike (World.emit · text) := by
  intro w other mirrored
  obtain ⟨written, stays⟩ := mirrored.write mirrors text
  refine ⟨(other.write text).2, stays, ?_⟩
  simp only [emit, withOutput, written]

theorem World.flush_mirroring (mirrors : Mirrors Alike) : Mirroring Alike World.flush := by
  intro w other mirrored
  obtain ⟨fault, stays⟩ := mirrored.flush mirrors
  refine ⟨other.flush.2, stays, ?_⟩
  simp only [flush, withOutput, fault]

/-! ## Primitives -/

namespace Primitive

theorem foldl_mirroring (mirrors : Mirrors Alike) (ending : List String)
    {action : World → World × Except Cause Unit} (first : Mirroring Alike action) :
    Mirroring Alike fun w => ending.foldl
      (fun result text => StackMachine.andThen result fun _ w => w.emit text) (action w) := by
  induction ending generalizing action with
  | nil => exact first
  | cons text texts ih => exact ih (first.andThen fun _ => World.emit_mirroring mirrors text)

theorem printing_mirroring (mirrors : Mirrors Alike) (ending : List String) :
    Mirroring Alike (printing ending) := by
  intro w other mirrored
  unfold printing
  rw [World.memory_withOutput]
  cases w.memory.stack with
  | nil => exact ⟨other, mirrored, rfl⟩
  | cons a rest =>
      have follows : ((w.withOutput other).withStack rest).memory.follow a =
          (w.withStack rest).memory.follow a := rfl
      dsimp only
      rw [follows]
      cases (w.withStack rest).memory.follow a with
      | error cause => exact ⟨other, mirrored, rfl⟩
      | ok value =>
          exact foldl_mirroring mirrors ending (World.emit_mirroring mirrors value.text)
            (w.withStack rest) other mirrored

theorem reading_mirroring (mirrors : Mirrors Alike) : Mirroring Alike reading := by
  refine (World.flush_mirroring mirrors).andThen fun _ => .of_withOutput fun w output => ?_
  have input : (w.withOutput output).input = w.input := rfl
  dsimp only
  rw [input]
  cases w.input.readWord.1 with
  | ended => rfl
  | failed fault => rfl
  | word text =>
      dsimp only
      cases readInt32 text <;> rfl

theorem run_mirroring (mirrors : Mirrors Alike) (primitive : Primitive) :
    Mirroring Alike primitive.run := by
  cases primitive with
  | print =>
      exact (printing_mirroring mirrors []).andThen fun _ => World.flush_mirroring mirrors
  | println =>
      exact (printing_mirroring mirrors ["\n"]).andThen fun _ => World.flush_mirroring mirrors
  | readint => exact (reading_mirroring mirrors).andThen fun _ => World.flush_mirroring mirrors

end Primitive

/-! ## Instructions -/

namespace Setup

theorem call_mirroring (mirrors : Mirrors Alike) (setup : Setup) (depth : Nat) (name : String) :
    Mirroring Alike (setup.call depth name) := by
  unfold call
  cases Primitive.ofName? name with
  | some primitive =>
      exact (primitive.run_mirroring mirrors).andThen fun _ => .of_withOutput fun _ _ => rfl
  | none =>
      refine .of_withOutput fun w output => ?_
      dsimp only
      cases setup.program.lookup? name with
      | none => rfl
      | some callee =>
          dsimp only
          split <;> rfl

theorem execute_mirroring (mirrors : Mirrors Alike) (setup : Setup) (body : Body) (depth : Nat)
    (token : Token) : Mirroring Alike (setup.execute body depth token) := by
  by_cases isCall : token.opcode = .call
  · have same : setup.execute body depth token = setup.call depth token.name := by
      funext w
      rw [execute, isCall]
    rw [same]
    exact setup.call_mirroring mirrors depth token.name
  · exact .of_withOutput (setup.execute_withOutput body depth isCall)

end Setup

/-! ## Runs -/

namespace RunState

theorem step_mirrored (mirrors : Mirrors Alike) (setup : RunSetup) (frame : Frame)
    (rest : List Frame) (token : Token) (world : World) (trace : Trace) {other : Output}
    (mirrored : Output.Mirrored Alike world.output other) :
    ∃ after, Output.Mirrored Alike (step setup frame rest token world trace).1.world.output after ∧
      step setup frame rest token (world.withOutput other) trace =
        ((step setup frame rest token world trace).1.withOutput after,
          (step setup frame rest token world trace).2) := by
  obtain ⟨after, stays, same⟩ :=
    setup.execute_mirroring mirrors frame.function.body frame.depth token world other mirrored
  unfold step
  rw [World.memory_withOutput, same]
  dsimp only
  split
  · exact ⟨other, mirrored, rfl⟩
  · rcases executed : setup.execute frame.function.body frame.depth token world with
      ⟨next, cause | control⟩
    · rw [executed] at stays
      exact ⟨after, stays, rfl⟩
    · rw [executed] at stays
      cases control with
      | next => exact ⟨after, stays, rfl⟩
      | jump position => exact ⟨after, stays, rfl⟩
      | enter callee => exact ⟨after, stays, rfl⟩

theorem run_mirrored (mirrors : Mirrors Alike) (setup : RunSetup) (fuel : Nat) (s : RunState)
    {other : Output} (mirrored : Output.Mirrored Alike s.world.output other) :
    ∃ after, Output.Mirrored Alike (s.run setup fuel).state.world.output after ∧
      (s.withOutput other).run setup fuel = (s.run setup fuel).withOutput after := by
  have settles (s : RunState) (output : Output) :
      (s.withOutput output).settle setup = (s.settle setup).withOutput output :=
    settleFrom_withOutput setup s.world output s.frames s.trace
  induction fuel generalizing s other with
  | zero =>
      have settled : (s.settle setup).world = s.world := settleFrom_world ..
      rw [← settled] at mirrored
      unfold run
      rw [settles]
      cases ready : s.settle setup with
      | halted state halt =>
          rw [ready] at mirrored
          exact ⟨other, mirrored, rfl⟩
      | ready frame rest token world trace =>
          rw [ready] at mirrored
          exact ⟨other, mirrored, rfl⟩
  | succ fuel ih =>
      have settled : (s.settle setup).world = s.world := settleFrom_world ..
      rw [← settled] at mirrored
      unfold run
      rw [settles]
      cases ready : s.settle setup with
      | halted state halt =>
          rw [ready] at mirrored
          exact ⟨other, mirrored, rfl⟩
      | ready frame rest token world trace =>
          rw [ready] at mirrored
          obtain ⟨after, stays, stepped⟩ :=
            step_mirrored mirrors setup frame rest token world trace mirrored
          dsimp only [Settled.withOutput]
          rw [stepped]
          rcases done : step setup frame rest token world trace with ⟨next, _ | halt⟩
          · rw [done] at stays
            exact ih next stays
          · rw [done] at stays
            exact ⟨after, stays, rfl⟩

end RunState

namespace Machine

theorem execution_mirrored (mirrors : Mirrors Alike) (machine : Machine) (fuel : Nat)
    {other : Output} (mirrored : Output.Mirrored Alike machine.output other) :
    ∃ after, Output.Mirrored Alike (machine.execution fuel).state.world.output after ∧
      (machine.withOutput other).execution fuel = (machine.execution fuel).withOutput after := by
  have starts : start (machine.withOutput other).setup (machine.withOutput other).initial = _ :=
    start_withOutput machine.setup machine.initial other
  rw [← start_output] at mirrored
  rw [execution_eq, execution_eq, starts]
  rcases begun : start machine.setup machine.initial with ⟨first, _ | halt⟩
  · rw [begun] at mirrored
    exact first.run_mirrored mirrors machine.setup fuel mirrored
  · rw [begun] at mirrored
    exact ⟨other, mirrored, rfl⟩

/-- A run over sinks that are alike ends in the same way and leaves them alike. -/
theorem run_mirrored (mirrors : Mirrors Alike) (machine : Machine) (fuel : Nat) {other : Output}
    (mirrored : Output.Mirrored Alike machine.output other) :
    ((machine.withOutput other).run fuel).1 = (machine.run fuel).1 ∧
      ∃ after, Output.Mirrored Alike (machine.run fuel).2.output after ∧
        ((machine.withOutput other).run fuel).2 = (machine.run fuel).2.withOutput after := by
  obtain ⟨after, stays, same⟩ := machine.execution_mirrored mirrors fuel mirrored
  obtain ⟨fault, flushed⟩ := stays.flush mirrors
  unfold run
  rw [same]
  dsimp only [RunState.Ending.withOutput, RunState.withOutput, World.withOutput]
  rw [fault]
  exact ⟨rfl, after.flush.2, flushed, rfl⟩

end Machine

end StackMachine
