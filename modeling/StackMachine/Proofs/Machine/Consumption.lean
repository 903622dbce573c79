import Mathlib
import StackMachine.Proofs.Machine.Reachable
import StackMachine.Proofs.Machine.Untraced

/-!
# What a run takes from its input

A run takes characters from the front of its input, and never puts any back: what it leaves is an
end of what it was given.  Without a log it leaves no trace.
-/

namespace StackMachine

/-- Reading a word takes characters from the front. -/
theorem Input.readWord_suffix (input : Input) : input.readWord.2.unread <:+ input.unread := by
  have rest : ((input.unread.dropWhile isBlank).dropWhile fun c => !isBlank c).drop 1 <:+
      input.unread :=
    (List.drop_suffix _ _).trans ((List.dropWhile_suffix _).trans (List.dropWhile_suffix _))
  unfold readWord
  dsimp only
  split
  · exact rest
  · exact rest
  · exact rest

/-- An action that leaves an end of the input. -/
def ReadsOn {α : Type} (w : World) (result : World × Except Cause α) : Prop :=
  result.1.input.unread <:+ w.input.unread

namespace ReadsOn

variable {α β : Type} {w : World} {result : World × Except Cause α}

theorem of_eq (same : result.1.input = w.input) : ReadsOn w result := by
  rw [ReadsOn, same]

theorem andThen {next : α → World → World × Except Cause β} (first : ReadsOn w result)
    (second : ∀ a w, ReadsOn w (next a w)) : ReadsOn w (andThen result next) := by
  rcases result with ⟨after, cause | value⟩
  · exact first
  · exact (second value after).trans first

end ReadsOn

namespace Primitive

theorem printing_readsOn (ending : List String) (w : World) : ReadsOn w (printing ending w) := by
  unfold printing
  split
  · exact .of_eq rfl
  · next a rest stack =>
      dsimp only
      split
      · exact .of_eq rfl
      · next value followed =>
          suffices written : ∀ result, ReadsOn w result →
              ReadsOn w
                (ending.foldl (fun result text => andThen result fun _ w => w.emit text) result) by
            exact written _ (.of_eq rfl)
          induction ending with
          | nil => exact fun result first => first
          | cons text texts ih =>
              intro result first
              exact ih _ (first.andThen fun _ _ => .of_eq rfl)

theorem reading_readsOn (w : World) : ReadsOn w (reading w) := by
  have flushed : ReadsOn w w.flush := .of_eq rfl
  refine flushed.andThen fun _ w => ?_
  dsimp only
  split
  · exact w.input.readWord_suffix
  · exact w.input.readWord_suffix
  · split
    · exact w.input.readWord_suffix
    · exact w.input.readWord_suffix

theorem run_readsOn (primitive : Primitive) (w : World) : ReadsOn w (primitive.run w) := by
  cases primitive with
  | print => exact (printing_readsOn [] w).andThen fun _ _ => .of_eq rfl
  | println => exact (printing_readsOn ["\n"] w).andThen fun _ _ => .of_eq rfl
  | readint => exact (reading_readsOn w).andThen fun _ _ => .of_eq rfl

end Primitive

namespace Setup

theorem call_readsOn (setup : Setup) (depth : Nat) (name : String) (w : World) :
    ReadsOn w (setup.call depth name w) := by
  unfold call
  split
  · next primitive found => exact (primitive.run_readsOn w).andThen fun _ _ => .of_eq rfl
  · split
    · exact .of_eq rfl
    · split <;> exact .of_eq rfl

/-- No instruction puts characters back. -/
theorem execute_readsOn (setup : Setup) (body : Body) (depth : Nat) (token : Token) (w : World) :
    ReadsOn w (setup.execute body depth token w) := by
  unfold execute
  split
  case h_12 => exact setup.call_readsOn depth token.name w
  all_goals
    repeat' split
    all_goals exact .of_eq rfl

end Setup

/-- A run without a log leaves the trace as it is and an end of the input. -/
theorem RunState.run_readsOn {setup : RunSetup} (silent : setup.tracer = none) (fuel : Nat)
    (frames : List Frame) (world : World) (trace : Trace) :
    (run setup fuel ⟨frames, world, trace⟩).state.trace = trace ∧
      (run setup fuel ⟨frames, world, trace⟩).state.world.input.unread <:+ world.input.unread := by
  induction fuel, frames, world using RunState.run_induction setup with
  | nil fuel world =>
      rw [run_nil]
      exact ⟨rfl, List.suffix_rfl⟩
  | bodyEnd fuel frame rest world fetched ih =>
      rw [run_of_bodyEnd silent fetched]
      exact ih
  | crash fuel frame rest world crash fetched =>
      rw [run_of_crash fetched]
      exact ⟨rfl, List.suffix_rfl⟩
  | spent frame rest world token fetched =>
      rw [run_zero_of_instruction silent fetched]
      exact ⟨rfl, List.suffix_rfl⟩
  | failed fuel frame rest world token after cause fetched executed =>
      have readsOn := setup.execute_readsOn frame.function.body frame.depth token world
      rw [executed] at readsOn
      rw [run_succ_of_error silent fetched executed]
      exact ⟨rfl, readsOn⟩
  | executed fuel frame rest world token after control fetched executed ih =>
      have readsOn := setup.execute_readsOn frame.function.body frame.depth token world
      rw [executed] at readsOn
      rw [run_succ_of_ok silent fetched executed]
      exact ⟨ih.1, ih.2.trans readsOn⟩

/-- A machine without a log leaves no trace, and of its input an end. -/
theorem Machine.run_readsOn {machine : Machine} (silent : machine.setup.tracer = none)
    (fuel : Nat) :
    (machine.run fuel).1.lines = [] ∧ (machine.run fuel).2.input.unread <:+ machine.input.unread := by
  suffices readsOn : (machine.execution fuel).state.trace.lines = [] ∧
      (machine.execution fuel).state.world.input.unread <:+ machine.input.unread from
    ⟨congrArg List.reverse readsOn.1, readsOn.2⟩
  have quiet (trace : Trace) (mark : String) (message : Unit → String) :
      trace.log machine.setup.tracer mark message = (trace, false) := by
    rw [silent]
    rfl
  rw [execution_eq, start]
  cases machine.setup.program.lookup? "main" with
  | none =>
      simp only [quiet]
      exact ⟨rfl, List.suffix_rfl⟩
  | some main =>
      simp only [RunState.enter, quiet, Bool.false_eq_true, if_false]
      obtain ⟨untouched, readsOn⟩ := RunState.run_readsOn silent fuel
        (⟨main, 0, 1⟩ :: machine.initial.frames) machine.initial.world machine.initial.trace
      exact ⟨congrArg Trace.lines untouched, readsOn⟩

end StackMachine
