import Mathlib
import StackMachine.Proofs.Machine.Heap
import StackMachine.Proofs.Machine.Provenance

/-!
# What failed instructions leave

An instruction that fails writes nothing to the heap.  What it has taken from the stack by then
depends on the order of its checks: a binary operator has taken both operands when it finds that it
cannot use them, a branch its condition, and a primitive that prints its operand; all other checks
come before anything is taken (`RunError.taken`).  A primitive that reads is another matter.

So the memory that a failed run leaves is known from the memory before the instruction at which it
ended, however deeply nested this is (`Machine.run_failed_memory`).
-/

namespace StackMachine

/-- The number of atoms that a failed instruction has taken from the stack. -/
def RunError.taken (error : RunError) : Nat :=
  match error.token.opcode, error.cause with
  | .binary _, .operands _ => 2
  | .branch, .notCondition _ => 1
  | .call, .outputFault _ => 1
  | _, _ => 0

/-- A call of the primitive that reads. -/
def Token.CallsReadint (token : Token) : Prop :=
  token.opcode = .call ∧ token.name = "readint"

instance : DecidablePred Token.CallsReadint := fun _ => inferInstanceAs (Decidable (_ ∧ _))

/-- The causes that are found before anything is taken. -/
def Cause.isEarly : Cause → Bool
  | .operands _ | .notCondition _ | .outputFault _ => false
  | _ => true

theorem RunError.taken_of_isEarly {error : RunError} (early : error.cause.isEarly = true) :
    error.taken = 0 := by
  unfold taken
  split
  · next cause =>
      rw [cause] at early
      cases early
  · next cause =>
      rw [cause] at early
      cases early
  · next cause =>
      rw [cause] at early
      cases early
  · rfl

/-- What a failed instruction leaves in memory, by what was there before. -/
structure RunError.Leaves (error : RunError) (before after : Memory) : Prop where
  heap : after.heap = before.heap
  enough : error.taken ≤ before.stack.length
  stack : after.stack = before.stack.drop error.taken

theorem RunError.leaves_of_isEarly {error : RunError} (early : error.cause.isEarly = true)
    (memory : Memory) : error.Leaves memory memory where
  heap := rfl
  enough := taken_of_isEarly early ▸ Nat.zero_le _
  stack := by
    rw [taken_of_isEarly early]
    rfl

namespace Table

variable {setup : Setup} {error : RunError} {after : World}

theorem Fault.leaves {world : World} (fault : Fault setup error.token world error.cause after)
    (produced : world.memory.ProducedBy setup.program) (other : ¬ error.token.CallsReadint) :
    error.Leaves world.memory after.memory := by
  obtain ⟨function, position, token, cause⟩ := error
  dsimp only at fault other
  cases fault with
  | underflow | store | stores | load => exact RunError.leaves_of_isEarly rfl _
  | binary opcode applied =>
      constructor <;> simp [RunError.taken, opcode]
  | lost prints followed =>
      -- no value is a reference, so there is nothing to follow
      have value := produced.stack _ List.mem_cons_self
      rw [Memory.follow_of_producedBy _ value] at followed
      cases followed
  | undelivered prints followed delivers =>
      have opcode := (ending?_eq_some prints).1
      constructor <;> simp [RunError.taken, opcode]
  | unflushed opcode name | inputEnded opcode name | inputFault opcode name
  | notInteger opcode name | unflushedAgain opcode name => exact absurd ⟨opcode, name⟩ other

/-- A failed instruction leaves the heap, and the stack without the atoms that it has taken. -/
theorem Fails.leaves {state : State} (fails : Fails setup state error.token error.cause after)
    (produced : state.world.memory.ProducedBy setup.program)
    (other : ¬ error.token.CallsReadint) : error.Leaves state.world.memory after.memory := by
  obtain ⟨function, position, token, cause⟩ := error
  dsimp only at fails other
  cases fails with
  | fault due fault => exact fault.leaves produced other
  | notCondition due opcode leads notInt =>
      constructor <;> simp [RunError.taken, opcode]
  | unknownLabel | branchUnderflow | unknownFunction | callDepth | invalid =>
      exact RunError.leaves_of_isEarly rfl _

end Table

namespace RunState

/-- The instruction that an error is about is due. -/
def Precedes (setup : RunSetup) (s : RunState) (error : RunError) : Prop :=
  ∃ frame rest trace, s.settle setup = .ready frame rest error.token s.world trace ∧
    frame.function.name = error.function ∧ frame.position.toNat = error.position

variable {setup : RunSetup} {s : RunState}

/-- A run that stops at a failed instruction leaves the memory that this leaves. -/
theorem Stops.leaves {fuel : Nat} {ending : Ending} (stops : Stops setup fuel s ending)
    (nested : s.Nested setup.toSetup) (produced : s.world.memory.ProducedBy setup.program)
    {error : RunError} (failed : ending.halt = .failed error)
    (other : ¬ error.token.CallsReadint) :
    (fuel = 0 ∨ s.advance? setup = none) ∧ s.Precedes setup error ∧
      error.Leaves s.world.memory ending.state.world.memory := by
  cases stops with
  | halted settled => exact absurd failed ((settleFrom_halts settled).2 error)
  | spent settled stopped =>
      obtain ⟨-, rfl, -⟩ := settleFrom_eq_ready settled
      cases stopped
      cases failed
      exact ⟨.inl rfl, ⟨_, _, _, settled, rfl, rfl⟩, RunError.leaves_of_isEarly rfl _⟩
  | failed settled stepped =>
      have stuck : s.advance? setup = none := by
        unfold advance?
        rw [settled]
        dsimp only
        rw [stepped]
      obtain ⟨-, rfl, fetched⟩ := settleFrom_eq_ready settled
      rcases step_halts stepped with ⟨-, rfl⟩ | ⟨cause, executed, rfl⟩
      · cases failed
      · cases failed
        have fails := (nested.ready settled).1.fails fetched executed
        exact ⟨.inr stuck, ⟨_, _, _, settled, rfl, rfl⟩, fails.leaves produced other⟩

end RunState

namespace Machine

/-- The last state before a run with some fuel ends: the fuel is spent, or the instruction that is
due does not let the run go on. -/
def EndsBehind (machine : Machine) (fuel : Nat) (before : RunState) : Prop :=
  ∃ first count, start machine.setup machine.initial = (first, none) ∧
    first.after? machine.setup count = some before ∧ count ≤ fuel ∧
    (count = fuel ∨ before.advance? machine.setup = none)

/-- A run that fails at an instruction, other than one that reads, leaves the heap as it was before
that instruction, and the stack without the atoms that the instruction had taken.  These are two
for a binary operator that could not use its operands, one for a branch on a value that is no
integer and for a primitive that could not write or flush, and none for any other failure. -/
theorem run_failed_memory (machine : Machine) (fuel : Nat) (error : RunError)
    (failed : (machine.run fuel).1.failure = some (.halted error))
    (other : ¬ error.token.CallsReadint) :
    ∃ before, machine.EndsBehind fuel before ∧ before.Precedes machine.setup error ∧
      (machine.run fuel).2.memory.heap = before.world.memory.heap ∧
      error.taken ≤ before.world.memory.stack.length ∧
      (machine.run fuel).2.memory.stack = before.world.memory.stack.drop error.taken := by
  have halted : (machine.execution fuel).halt = .failed error :=
    (failureOf_eq_halted_iff ..).mp failed
  change ∃ before, machine.EndsBehind fuel before ∧ before.Precedes machine.setup error ∧
    (machine.execution fuel).state.world.memory.heap = before.world.memory.heap ∧
    error.taken ≤ before.world.memory.stack.length ∧
    (machine.execution fuel).state.world.memory.stack =
      before.world.memory.stack.drop error.taken
  rw [execution_eq] at halted ⊢
  rcases started : start machine.setup machine.initial with ⟨first, _ | halt⟩
  · rw [started] at halted
    obtain ⟨count, before, enough, reached, stops⟩ := RunState.run_stops machine.setup fuel first
    have visited : machine.Visits before := ⟨first, count, started, reached⟩
    obtain ⟨last, precedes, leaves⟩ :=
      stops.leaves visited.nested visited.producedBy.memory halted other
    refine ⟨before, ⟨first, count, started, reached, enough, ?_⟩, precedes, leaves.heap,
      leaves.enough, leaves.stack⟩
    exact last.imp_left fun spent => Nat.le_antisymm enough (Nat.le_of_sub_eq_zero spent)
  · rw [started] at halted
    exact absurd halted ((start_halts started).2 error)

/-- A program that prints from within a function. -/
def printingWithin : Program where
  functions? := some [
    { name := "main"
      body := { code? := some #[{ opcode := .pushi, int := 5 }, { opcode := .store, index := 0 },
        { opcode := .pushi, int := 6 }, { opcode := .pushi, int := 7 },
        { opcode := .call, name := "show" }] } },
    { name := "show"
      body := { code? := some #[{ opcode := .call, name := "print" }] } }]

/-- The sink refuses the seven, which is gone from the stack; all else is as it was. -/
theorem run_failed_memory_printingWithin :
    let machine := new printingWithin #[{ kind := .flushing, capacity := some 0 }] [.output 0]
    let error : RunError :=
      ⟨"show", 0, { opcode := .call, name := "print" }, .outputFault .refused⟩
    (machine.run 9).1.failure = some (.halted error) ∧
      (machine.run 9).2.memory = ⟨[.int 6], #[.int 5]⟩ ∧ error.taken = 1 ∧
      ∃ before, machine.EndsBehind 9 before ∧ before.Precedes machine.setup error ∧
        before.world.memory.heap = #[.int 5] ∧ [.int 6] = before.world.memory.stack.drop 1 := by
  intro machine error
  have failed : (machine.run 9).1.failure = some (.halted error) := by decide +kernel
  have memory : (machine.run 9).2.memory = ⟨[.int 6], #[.int 5]⟩ := by decide +kernel
  obtain ⟨before, ends, precedes, heap, -, stack⟩ :=
    run_failed_memory machine 9 error failed (by decide)
  rw [memory] at heap stack
  exact ⟨failed, memory, rfl, before, ends, precedes, heap.symm, stack⟩

end Machine

end StackMachine
