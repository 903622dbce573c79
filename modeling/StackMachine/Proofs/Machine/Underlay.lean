import Mathlib
import StackMachine.Program.Assemble
import StackMachine.Proofs.Machine.Recursion

/-!
# What lies below on the stack

A function shares the operand stack with its callers, and nothing marks where its own part begins.
Still it neither looks at nor disturbs what lies below the operands that it uses: with further atoms
under the stack, an activation does the same and leaves them where they are, unless it runs out of
operands without them.
-/

namespace StackMachine

/-- Puts atoms under the operand stack. -/
def World.underlay (below : List Atom) (w : World) : World :=
  w.withStack (w.memory.stack ++ below)

@[simp]
theorem World.stack_underlay (below : List Atom) (w : World) :
    (w.underlay below).memory.stack = w.memory.stack ++ below :=
  rfl

/-- An action that does the same with atoms under the stack, unless it runs out of operands without
them. -/
def IgnoresBelow {α : Type} (action : World → World × Except Cause α) : Prop :=
  ∀ below w, (action w).2 ≠ .error .stackUnderflow →
    action (w.underlay below) = ((action w).1.underlay below, (action w).2)

/-! ## Primitives -/

@[simp]
theorem Memory.load_underlay (below : List Atom) (w : World) (address : Int64) :
    (w.underlay below).memory.load address = w.memory.load address := by
  have cell : (w.underlay below).memory.cell? address = w.memory.cell? address := rfl
  unfold load
  rw [cell]
  cases w.memory.cell? address <;> rfl

theorem IgnoresBelow.andThen {α β : Type} {action : World → World × Except Cause α}
    {next : α → World → World × Except Cause β} (first : IgnoresBelow action)
    (second : ∀ a, IgnoresBelow (next a)) :
    IgnoresBelow fun w => StackMachine.andThen (action w) next := by
  intro below w enough
  have alike := first below w
  dsimp only at enough ⊢
  rcases done : action w with ⟨after, cause | value⟩
  · rw [done] at alike enough
    have same := alike fun underflow => enough (congrArg Except.error (Except.error.inj underflow))
    rw [same]
    rfl
  · rw [done] at alike enough
    rw [alike nofun]
    exact second value below after enough

theorem World.emit_ignoresBelow (text : String) : IgnoresBelow (World.emit · text) :=
  fun _ _ _ => rfl

theorem World.flush_ignoresBelow : IgnoresBelow World.flush :=
  fun _ _ _ => rfl

/-- References lead through the heap only. -/
theorem Memory.followFrom_underlay (below : List Atom) (w : World) (hops : Nat) (a : Atom) :
    (w.underlay below).memory.followFrom hops a = w.memory.followFrom hops a := by
  induction hops generalizing a with
  | zero => cases a <;> rfl
  | succ hops ih =>
      cases a with
      | ref address =>
          simp only [followFrom, load_underlay]
          cases w.memory.load address with
          | ok found => exact ih found
          | error error => rfl
      | null | int | float | str | unknown => rfl

namespace Primitive

theorem printing_ignoresBelow (ending : List String) : IgnoresBelow (printing ending) := by
  intro below w enough
  unfold printing at enough ⊢
  rw [World.stack_underlay]
  cases stack : w.memory.stack with
  | nil =>
      rw [stack] at enough
      exact absurd rfl enough
  | cons a rest =>
      rw [stack] at enough
      dsimp only [List.cons_append] at enough ⊢
      have follows : ((w.underlay below).withStack (rest ++ below)).memory.follow a =
          (w.withStack rest).memory.follow a :=
        Memory.followFrom_underlay below (w.withStack rest) _ a
      rw [follows]
      cases followed : (w.withStack rest).memory.follow a with
      | error cause => rfl
      | ok value =>
          rw [followed] at enough
          suffices written : ∀ action : World → World × Except Cause Unit, IgnoresBelow action →
              IgnoresBelow fun w => ending.foldl
                (fun result text => StackMachine.andThen result fun _ w => w.emit text)
                (action w) by
            exact written _ (World.emit_ignoresBelow value.text) below (w.withStack rest) enough
          clear enough
          induction ending with
          | nil => exact fun action first => first
          | cons text texts ih =>
              intro action first
              exact ih _ (first.andThen fun _ => World.emit_ignoresBelow text)

theorem reading_ignoresBelow : IgnoresBelow reading := by
  refine World.flush_ignoresBelow.andThen fun _ below w _ => ?_
  have input : (w.underlay below).input = w.input := rfl
  dsimp only
  rw [input]
  cases w.input.readWord.1 with
  | ended => rfl
  | failed fault => rfl
  | word text =>
      dsimp only
      cases readInt32 text <;> rfl

theorem run_ignoresBelow (primitive : Primitive) : IgnoresBelow primitive.run := by
  cases primitive with
  | print => exact (printing_ignoresBelow []).andThen fun _ => World.flush_ignoresBelow
  | println => exact (printing_ignoresBelow ["\n"]).andThen fun _ => World.flush_ignoresBelow
  | readint => exact reading_ignoresBelow.andThen fun _ => World.flush_ignoresBelow

end Primitive

/-! ## Instructions -/

namespace Setup

theorem call_ignoresBelow (setup : Setup) (depth : Nat) (name : String) :
    IgnoresBelow (setup.call depth name) := by
  unfold call
  cases Primitive.ofName? name with
  | some primitive => exact primitive.run_ignoresBelow.andThen fun _ _ _ _ => rfl
  | none =>
      intro below w _
      dsimp only
      cases setup.program.lookup? name with
      | none => rfl
      | some callee =>
          dsimp only
          split <;> rfl

/-- No instruction looks below the operands that it takes. -/
theorem execute_ignoresBelow (setup : Setup) (body : Body) (depth : Nat) (token : Token) :
    IgnoresBelow (setup.execute body depth token) := by
  intro below w enough
  cases opcode : token.opcode with
  | pushi | pushf =>
      simp only [execute, opcode]
      rfl
  | label | invalid | rawMark | classMark | functionMark | defun | endef | reserved =>
      simp only [execute, opcode]
  | load =>
      simp only [execute, opcode, Memory.load_underlay]
      cases w.memory.load token.index <;> rfl
  | stores =>
      simp only [execute, opcode]
      cases Memory.checkStore token.index setup.heapLimit "stores" <;> rfl
  | goto =>
      simp only [execute, opcode]
      cases body.target? token.index <;> rfl
  | call =>
      simp only [execute, opcode] at enough ⊢
      exact setup.call_ignoresBelow depth token.name below w enough
  -- The instructions that take operands: without them there is an underflow.
  | pop | dup =>
      simp only [execute, opcode, World.stack_underlay] at enough ⊢
      cases stack : w.memory.stack with
      | nil =>
          rw [stack] at enough
          exact absurd rfl enough
      | cons top rest =>
          simp [World.underlay, World.withStack, World.push, Memory.push, stack]
  | store =>
      simp only [execute, opcode, World.stack_underlay] at enough ⊢
      cases stack : w.memory.stack with
      | nil =>
          rw [stack] at enough
          exact absurd rfl enough
      | cons top rest =>
          dsimp only [List.cons_append]
          cases Memory.checkStore token.index setup.heapLimit "store" with
          | error error => simp [World.underlay, World.withStack, stack]
          | ok => rfl
  | binary operator =>
      simp only [execute, opcode, World.stack_underlay] at enough ⊢
      rcases stack : w.memory.stack with _ | ⟨left, _ | ⟨right, rest⟩⟩
      · rw [stack] at enough
        exact absurd rfl enough
      · rw [stack] at enough
        exact absurd rfl enough
      · dsimp only [List.cons_append]
        cases operator.apply left right <;> rfl
  | branch =>
      simp only [execute, opcode, World.stack_underlay] at enough ⊢
      cases target : body.target? token.index with
      | none => rfl
      | some position =>
          rw [target] at enough
          rcases stack : w.memory.stack with _ | ⟨condition, rest⟩
          · rw [stack] at enough
            exact absurd rfl enough
          · cases condition <;> rfl

end Setup

/-! ## Runs -/

/-- The run did not end for want of operands. -/
def Halt.HadOperands (halt : Halt) : Prop :=
  ∀ error, halt = .failed error → error.cause ≠ .stackUnderflow

theorem Halt.hadOperands_finished : Halt.finished.HadOperands := by
  rintro error ⟨⟩

namespace RunState

/-- An outcome with atoms under the stack. -/
def Outcome.underlay (below : List Atom) (outcome : Outcome) : Outcome :=
  { outcome with world := outcome.world.underlay below }

/-- Whatever activations are in progress, what lies below on the stack neither matters nor
changes. -/
theorem outcome_run_underlay {setup : RunSetup} (silent : setup.tracer = none) (trace : Trace)
    (below : List Atom) (fuel : Nat) (frames : List Frame) (world : World)
    (enough : (run setup fuel ⟨frames, world, trace⟩).halt.HadOperands) :
    (run setup fuel ⟨frames, world.underlay below, trace⟩).outcome =
      (run setup fuel ⟨frames, world, trace⟩).outcome.underlay below := by
  induction fuel, frames, world using RunState.run_induction setup with
  | nil fuel world =>
      rw [run_nil, run_nil]
      rfl
  | bodyEnd fuel frame rest world fetched ih =>
      rw [run_of_bodyEnd silent fetched] at enough ⊢
      rw [run_of_bodyEnd silent fetched]
      exact ih enough
  | crash fuel frame rest world crash fetched =>
      rw [run_of_crash fetched, run_of_crash fetched]
      rfl
  | spent frame rest world token fetched =>
      rw [run_zero_of_instruction silent fetched, run_zero_of_instruction silent fetched]
      rfl
  | failed fuel frame rest world token after cause fetched executed =>
      have notUnderflow : cause ≠ .stackUnderflow := by
        rw [run_succ_of_error silent fetched executed] at enough
        exact enough _ rfl
      have alike := setup.execute_ignoresBelow frame.function.body frame.depth token below world
      rw [executed] at alike
      have placed := alike fun underflow => notUnderflow (Except.error.inj underflow)
      rw [run_succ_of_error silent fetched executed, run_succ_of_error silent fetched placed]
      rfl
  | executed fuel frame rest world token after control fetched executed ih =>
      have alike := setup.execute_ignoresBelow frame.function.body frame.depth token below world
      rw [executed] at alike
      rw [run_succ_of_ok silent fetched executed] at enough ⊢
      rw [run_succ_of_ok silent fetched (alike nofun)]
      exact ih enough

end RunState

/-! ## Activations -/

/-- A function that completes, or fails for another reason than a want of operands, does the same
with any atoms under the stack: it stops in the same way and at the same place, with those atoms
under its stack, the same heap, input and output, and after as many instructions. -/
theorem Function.activate_underlay {setup : RunSetup} (accepts : setup.LogAccepts)
    (function : Function) (depth fuel : Nat) (world : World) (trace : Trace) (below : List Atom)
    (enough : (function.activate setup depth fuel world trace).halt.HadOperands) :
    let alone := function.activate setup depth fuel world trace
    let placed := function.activate setup depth fuel (world.underlay below) trace
    placed.halt = alone.halt ∧ placed.fuel = alone.fuel ∧
      placed.state.world.memory.stack = alone.state.world.memory.stack ++ below ∧
      placed.state.world.memory.heap = alone.state.world.memory.heap ∧
      placed.state.world.input = alone.state.world.input ∧
      placed.state.world.output = alone.state.world.output := by
  have aloneOutcome := function.outcome_activate accepts depth fuel world trace
  have placedOutcome := function.outcome_activate accepts depth fuel (world.underlay below) trace
  have stillEnough : (RunState.run setup.untraced fuel
      ⟨[⟨function, 0, depth⟩], world, {}⟩).halt.HadOperands := by
    have halts : (function.activate setup depth fuel world trace).halt = _ :=
      congrArg RunState.Outcome.halt aloneOutcome
    rw [halts] at enough
    exact enough
  have outcome := placedOutcome.trans
    (RunState.outcome_run_underlay rfl {} below fuel [⟨function, 0, depth⟩] world stillEnough)
  rw [← aloneOutcome] at outcome
  refine ⟨congrArg RunState.Outcome.halt outcome, congrArg RunState.Outcome.fuel outcome,
    ?_, ?_, ?_, ?_⟩
  · exact congrArg (·.world.memory.stack) outcome
  · exact congrArg (·.world.memory.heap) outcome
  · exact congrArg (·.world.input) outcome
  · exact congrArg (·.world.output) outcome

/-- A function that counts down to zero and stores what it ends with. -/
def countdown : Function :=
  Assembly.function { opcode := .defun, name := "countdown" }
    [{ opcode := .label, index := 1 }, { opcode := .pushi, int := -1 },
      { opcode := .binary .add }, { opcode := .dup }, { opcode := .branch, index := 1 },
      { opcode := .store, index := 0 }]

/-- A run of the function alone. -/
def countdownSetup : RunSetup where
  program := { functions? := some [countdown] }

/-- The function completes on one operand, and so it does on one above two others; it leaves them
alone. -/
theorem Function.activate_underlay_countdown :
    let world : World := { memory := { stack := [.int 2] } }
    let others : List Atom := [.int 5, .str "kept"]
    (countdown.activate countdownSetup 1 20 world {}).halt = .finished ∧
      (countdown.activate countdownSetup 1 20 (world.underlay others) {}).halt = .finished ∧
      (countdown.activate countdownSetup 1 20 (world.underlay others) {}).state.world.memory.stack =
        others ∧
      (countdown.activate countdownSetup 1 20 (world.underlay others) {}).fuel = 9 := by
  intro world others
  have accepts : countdownSetup.LogAccepts := by
    rintro tracer ⟨⟩
  have outcome : (countdown.activate countdownSetup 1 20 world {}).outcome =
      ⟨{ memory := { heap := #[.int 0] } }, .finished, 9⟩ := by decide +kernel
  have finished : (countdown.activate countdownSetup 1 20 world {}).halt = .finished :=
    congrArg RunState.Outcome.halt outcome
  have emptied : (countdown.activate countdownSetup 1 20 world {}).state.world.memory.stack = [] :=
    congrArg (·.world.memory.stack) outcome
  obtain ⟨halt, fuel, stack, -⟩ := countdown.activate_underlay accepts 1 20 world {} others
    (finished ▸ Halt.hadOperands_finished)
  refine ⟨finished, halt.trans finished, ?_, fuel.trans (congrArg RunState.Outcome.fuel outcome)⟩
  rw [stack, emptied, List.nil_append]

end StackMachine
