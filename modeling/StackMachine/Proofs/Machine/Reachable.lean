import Mathlib
import StackMachine.Machine.Basic

/-!
# The states of a run

A run goes from instruction to instruction.  `advance?` is one instruction, `after?` an exact
number of them, and `Stops` says how a run may end at a state.  A run with fuel is some number of
instructions followed by a stop (`run_stops`), so a property that every instruction keeps holds of
every state that a run visits and of the state at which it stops.
-/

namespace StackMachine

/-- The run was stopped by its surroundings. -/
def Halt.isInterrupted : Halt → Bool
  | .failed ⟨_, _, _, .interrupted _⟩ => true
  | _ => false

namespace RunState

/-- One instruction: ends the finished activations and executes the instruction that is then due.
`none` means that the run stops here. -/
def advance? (setup : RunSetup) (s : RunState) : Option RunState :=
  match s.settle setup with
  | .halted _ _ => none
  | .ready frame rest token world trace =>
      match step setup frame rest token world trace with
      | (_, some _) => none
      | (next, none) => some next

theorem advance?_eq_some_iff (setup : RunSetup) (s next : RunState) :
    s.advance? setup = some next ↔
      ∃ frame rest token world trace,
        s.settle setup = .ready frame rest token world trace ∧
          step setup frame rest token world trace = (next, none) := by
  unfold advance?
  cases settled : s.settle setup with
  | halted state halt => simp
  | ready frame rest token world trace =>
      dsimp only
      rcases stepped : step setup frame rest token world trace with ⟨after, _ | halt⟩
      · constructor
        · intro advanced
          cases advanced
          exact ⟨frame, rest, token, world, trace, rfl, stepped⟩
        · rintro ⟨_, _, _, _, _, ready, steppedTo⟩
          cases ready
          rw [stepped] at steppedTo
          cases steppedTo
          rfl
      · simp only [reduceCtorEq, false_iff]
        rintro ⟨_, _, _, _, _, ready, steppedTo⟩
        cases ready
        rw [stepped] at steppedTo
        cases steppedTo

/-- The state after an exact number of instructions, if the run gets so far. -/
def after? (setup : RunSetup) : Nat → RunState → Option RunState
  | 0, s => some s
  | count + 1, s => (s.advance? setup).bind (after? setup count)

theorem after?_succ_eq_some_iff (setup : RunSetup) (count : Nat) (s last : RunState) :
    after? setup (count + 1) s = some last ↔
      ∃ next, s.advance? setup = some next ∧ after? setup count next = some last :=
  Option.bind_eq_some_iff

/-- What every instruction keeps holds after any number of instructions. -/
theorem after?_invariant {setup : RunSetup} {Holds : RunState → Prop}
    (kept : ∀ s next, Holds s → s.advance? setup = some next → Holds next)
    {count : Nat} {s last : RunState} (first : Holds s)
    (reached : after? setup count s = some last) : Holds last := by
  induction count generalizing s with
  | zero =>
      cases reached
      exact first
  | succ count ih =>
      obtain ⟨next, advanced, rest⟩ := (after?_succ_eq_some_iff setup count s last).mp reached
      exact ih (kept s next first advanced) rest

/-- How a run stops at a state with some fuel left: nothing is left to do, the fuel is spent, or
the instruction that is due halts. -/
inductive Stops (setup : RunSetup) : Nat → RunState → Ending → Prop where
  | halted {fuel : Nat} {s state : RunState} {halt : Halt}
      (settled : s.settle setup = .halted state halt) : Stops setup fuel s ⟨state, halt, fuel⟩
  | spent {s : RunState} {frame : Frame} {rest : List Frame} {token : Token} {world : World}
      {trace : Trace} {state : RunState} {halt : Halt}
      (settled : s.settle setup = .ready frame rest token world trace)
      (failed : fail setup frame token (.interrupted setup.interruption)
        ⟨frame :: rest, world, trace⟩ = (state, halt)) : Stops setup 0 s ⟨state, halt, 0⟩
  | failed {fuel : Nat} {s : RunState} {frame : Frame} {rest : List Frame} {token : Token}
      {world : World} {trace : Trace} {state : RunState} {halt : Halt}
      (settled : s.settle setup = .ready frame rest token world trace)
      (stepped : step setup frame rest token world trace = (state, some halt)) :
      Stops setup (fuel + 1) s ⟨state, halt, fuel⟩

/-- A run executes some number of instructions, no more than it has fuel, and stops. -/
theorem run_stops (setup : RunSetup) (fuel : Nat) (s : RunState) :
    ∃ count last, count ≤ fuel ∧ after? setup count s = some last ∧
      Stops setup (fuel - count) last (run setup fuel s) := by
  induction fuel generalizing s with
  | zero =>
      refine ⟨0, s, Nat.le_refl 0, rfl, ?_⟩
      unfold run
      cases settled : s.settle setup with
      | halted state halt => exact .halted settled
      | ready frame rest token world trace => exact .spent settled rfl
  | succ fuel ih =>
      unfold run
      cases settled : s.settle setup with
      | halted state halt => exact ⟨0, s, Nat.zero_le _, rfl, .halted settled⟩
      | ready frame rest token world trace =>
          rcases stepped : step setup frame rest token world trace with ⟨next, _ | halt⟩
          · obtain ⟨count, last, enough, reached, stops⟩ := ih next
            have advanced : s.advance? setup = some next :=
              (advance?_eq_some_iff setup s next).mpr
                ⟨frame, rest, token, world, trace, settled, stepped⟩
            refine ⟨count + 1, last, Nat.succ_le_succ enough, ?_, ?_⟩
            · exact (after?_succ_eq_some_iff setup count s last).mpr ⟨next, advanced, reached⟩
            · simpa only [stepped, Nat.add_sub_add_right] using stops
          · exact ⟨0, s, Nat.zero_le _, rfl, by simpa only [stepped] using .failed settled stepped⟩

/-- More fuel changes nothing about a run that its surroundings did not stop. -/
theorem run_of_le {setup : RunSetup} {fuel more : Nat} (enough : fuel ≤ more) {s : RunState}
    (ended : (run setup fuel s).halt.isInterrupted = false) :
    (run setup more s).state = (run setup fuel s).state ∧
      (run setup more s).halt = (run setup fuel s).halt := by
  induction fuel generalizing more s with
  | zero =>
      cases settled : s.settle setup with
      | halted state halt =>
          unfold run
          cases more <;> simp only [settled, and_self]
      | ready frame rest token world trace =>
          unfold run at ended
          rw [settled] at ended
          cases ended
  | succ fuel ih =>
      obtain ⟨more, rfl⟩ : ∃ less, more = less + 1 := ⟨more - 1, by omega⟩
      unfold run at ended ⊢
      cases settled : s.settle setup with
      | halted state halt => exact ⟨rfl, rfl⟩
      | ready frame rest token world trace =>
          rw [settled] at ended
          dsimp only at ended ⊢
          rcases stepped : step setup frame rest token world trace with ⟨next, _ | halt⟩
          · rw [stepped] at ended
            exact ih (Nat.le_of_succ_le_succ enough) ended
          · exact ⟨rfl, rfl⟩

end RunState

namespace Machine

/-- The state of a machine before `main` is entered: fresh memory, the rest of the input, and the
output so far. -/
def initial (machine : Machine) : RunState where
  world := { input := machine.input, output := machine.output }
  trace := { width := machine.markWidth }

/-- The states that a run of a machine goes through, whatever its fuel. -/
def Visits (machine : Machine) (s : RunState) : Prop :=
  ∃ first count, start machine.setup machine.initial = (first, none) ∧
    first.after? machine.setup count = some s

theorem execution_eq (machine : Machine) (fuel : Nat) :
    machine.execution fuel =
      match start machine.setup machine.initial with
      | (s, some halt) => ⟨s, halt, fuel⟩
      | (s, none) => s.run machine.setup fuel :=
  rfl

theorem failureOf_eq_halted_iff (halt : Halt) (fault : Option WriteFault) (error : RunError) :
    failureOf halt fault = some (.halted error) ↔ halt = .failed error := by
  unfold failureOf
  cases halt with
  | finished => cases fault <;> simp
  | failed found => simp
  | crashed crash => simp

theorem failureOf_eq_crashed_iff (halt : Halt) (fault : Option WriteFault) (crash : Crash) :
    failureOf halt fault = some (.crashed crash) ↔ halt = .crashed crash := by
  unfold failureOf
  cases halt with
  | finished => cases fault <;> simp
  | failed found => simp
  | crashed crash => simp

/-- A run stops before its first instruction, or at a state that it visits. -/
theorem execution_stops (machine : Machine) (fuel : Nat) :
    (∃ state halt, start machine.setup machine.initial = (state, some halt) ∧
        machine.execution fuel = ⟨state, halt, fuel⟩) ∨
      ∃ left last, left ≤ fuel ∧ machine.Visits last ∧
        RunState.Stops machine.setup left last (machine.execution fuel) := by
  rcases started : start machine.setup machine.initial with ⟨first, _ | halt⟩
  · right
    obtain ⟨count, last, -, reached, stops⟩ := RunState.run_stops machine.setup fuel first
    rw [execution_eq, started]
    exact ⟨fuel - count, last, Nat.sub_le fuel count, ⟨first, count, started, reached⟩, stops⟩
  · left
    exact ⟨first, halt, rfl, by rw [execution_eq, started]⟩

/-- More fuel changes nothing about a run that its surroundings did not stop. -/
theorem execution_of_le {machine : Machine} {fuel more : Nat} (enough : fuel ≤ more)
    (ended : (machine.execution fuel).halt.isInterrupted = false) :
    (machine.execution more).state = (machine.execution fuel).state ∧
      (machine.execution more).halt = (machine.execution fuel).halt := by
  rw [execution_eq] at ended
  rw [execution_eq, execution_eq]
  rcases started : start machine.setup machine.initial with ⟨first, _ | halt⟩
  · rw [started] at ended
    exact RunState.run_of_le enough ended
  · exact ⟨rfl, rfl⟩

/-- What holds when `main` has been entered and is kept by every instruction holds of every state
that a run visits. -/
theorem Visits.invariant {machine : Machine} {Holds : RunState → Prop}
    (entered : ∀ s, start machine.setup machine.initial = (s, none) → Holds s)
    (kept : ∀ s next, Holds s → s.advance? machine.setup = some next → Holds next)
    {s : RunState} (visited : machine.Visits s) : Holds s := by
  obtain ⟨first, count, started, reached⟩ := visited
  exact RunState.after?_invariant kept (entered first started) reached

end Machine

end StackMachine
