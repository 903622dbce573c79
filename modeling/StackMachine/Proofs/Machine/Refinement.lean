import Mathlib
import StackMachine.Proofs.Machine.Recursion
import StackMachine.Proofs.Machine.Table
import StackMachine.Program.Assemble

/-!
# Runs by recursion and runs by the table

The machine of the table of opcodes goes from state to state by the rows of the table; a call puts a
place on top of its stack and the end of a body takes one away.  It comes to exactly one end, which
is that of the run by recursion (`run_refines_table`).
-/

namespace StackMachine

/-- The end of a body is reached at its length and beyond. -/
theorem Frame.fetch_eq_bodyEnd_iff (frame : Frame) :
    frame.fetch = .bodyEnd ↔ (frame.function.body.code.size : Int) ≤ frame.position := by
  unfold Frame.fetch
  by_cases negative : frame.position < 0
  · rw [if_pos negative]
    simp only [reduceCtorEq, false_iff]
    omega
  · rw [if_neg negative]
    cases found : frame.function.body.code[frame.position.toNat]? with
    | none =>
        rw [Array.getElem?_eq_none_iff] at found
        simp only [true_iff]
        omega
    | some token =>
        obtain ⟨inRange, -⟩ := Array.getElem?_eq_some_iff.mp found
        simp only [reduceCtorEq, false_iff]
        omega

/-- A crash is a place before the start of the code. -/
theorem Frame.fetch_eq_crash_iff (frame : Frame) (crash : Crash) :
    frame.fetch = .crash crash ↔
      frame.position < 0 ∧ crash = .negativePosition frame.position := by
  unfold Frame.fetch
  by_cases negative : frame.position < 0
  · rw [if_pos negative]
    simp [negative, eq_comm]
  · rw [if_neg negative]
    cases frame.function.body.code[frame.position.toNat]? <;> simp [negative]

namespace Table

/-- The machine of the table, iterated: the instructions that it executes take fuel, and without
fuel the next one is interrupted. -/
inductive Ends (setup : RunSetup) : Nat → State → RunState.Outcome → Prop where
  | completed {fuel world} : Ends setup fuel ⟨[], world⟩ ⟨world, .finished, fuel⟩
  | returned {fuel function position rest world outcome}
      (ended : (function.body.code.size : Int) ≤ position)
      (later : Ends setup fuel ⟨rest, world⟩ outcome) :
      Ends setup fuel ⟨(function, position) :: rest, world⟩ outcome
  | acted {fuel state next outcome} (acts : Acts setup.toSetup state next)
      (later : Ends setup fuel next outcome) : Ends setup (fuel + 1) state outcome
  | failed {fuel function position rest world token cause after}
      (fails : Fails setup.toSetup ⟨(function, position) :: rest, world⟩ token cause after) :
      Ends setup (fuel + 1) ⟨(function, position) :: rest, world⟩
        ⟨after, .failed ⟨function.name, position.toNat, token, cause⟩, fuel⟩
  | interrupted {function position rest world token} (due : At function position token) :
      Ends setup 0 ⟨(function, position) :: rest, world⟩
        ⟨world, .failed ⟨function.name, position.toNat, token,
          .interrupted setup.interruption⟩, 0⟩
  | crashed {fuel function position rest world} (negative : position < 0) :
      Ends setup fuel ⟨(function, position) :: rest, world⟩
        ⟨world, .crashed (.negativePosition position), fuel⟩

/-! ## States and runs in progress -/

/-- The activations at a stack of places.  The depth of each is the number of places from it
down. -/
def activations : List (Function × Int) → List Frame
  | [] => []
  | (function, position) :: rest => ⟨function, position, rest.length + 1⟩ :: activations rest

theorem activations_places (control : Control) (function : Function) (position : Int)
    (rest : List (Function × Int)) :
    activations (control.places function position rest) =
      control.frames ⟨function, position, rest.length + 1⟩ (activations rest) := by
  cases control <;> rfl

/-- The run in progress at a state, without a log. -/
def State.toRun (state : State) : RunState := ⟨activations state.places, state.world, {}⟩

section

variable {setup : RunSetup} {fuel : Nat} {state : State} {outcome : RunState.Outcome}

/-- An end by the table is that of the run. -/
theorem Ends.eq_outcome_run (ends : Ends setup fuel state outcome) :
    outcome = (state.toRun.run setup.untraced fuel).outcome := by
  have silent : setup.untraced.tracer = none := rfl
  induction ends with
  | completed =>
      dsimp only [State.toRun, activations]
      rw [RunState.run_nil]
      rfl
  | @returned fuel function position rest world outcome ended later ih =>
      have fetched := (Frame.fetch_eq_bodyEnd_iff ⟨function, position, rest.length + 1⟩).mpr ended
      dsimp only [State.toRun, activations] at ih ⊢
      rw [RunState.run_of_bodyEnd silent fetched]
      exact ih
  | @acted fuel state next outcome acts later ih =>
      obtain ⟨_ | ⟨⟨function, position⟩, rest⟩, world⟩ := state
      · cases acts
      · obtain ⟨token, control, due, executed, places⟩ := acts.execute
        have fetched :=
          (Frame.fetch_eq_instruction_iff ⟨function, position, rest.length + 1⟩ token).mpr due
        dsimp only [State.toRun, activations] at ih ⊢
        rw [places, activations_places] at ih
        rw [RunState.run_succ_of_ok silent fetched executed]
        exact ih
  | @failed fuel function position rest world token cause after fails =>
      obtain ⟨due, executed⟩ := fails.execute
      have fetched :=
        (Frame.fetch_eq_instruction_iff ⟨function, position, rest.length + 1⟩ token).mpr due
      dsimp only [State.toRun, activations]
      rw [RunState.run_succ_of_error silent fetched executed]
      rfl
  | @interrupted function position rest world token due =>
      have fetched :=
        (Frame.fetch_eq_instruction_iff ⟨function, position, rest.length + 1⟩ token).mpr due
      dsimp only [State.toRun, activations]
      rw [RunState.run_zero_of_instruction silent fetched]
      rfl
  | @crashed fuel function position rest world negative =>
      have fetched := (Frame.fetch_eq_crash_iff ⟨function, position, rest.length + 1⟩ _).mpr
        ⟨negative, rfl⟩
      dsimp only [State.toRun, activations]
      rw [RunState.run_of_crash fetched]
      rfl

/-- The machine of the table always comes to an end. -/
theorem exists_ends (setup : RunSetup) (fuel : Nat) (state : State) :
    ∃ outcome, Ends setup fuel state outcome := by
  suffices along : ∀ fuel frames world places, activations places = frames →
      ∃ outcome, Ends setup fuel ⟨places, world⟩ outcome from
    along fuel (activations state.places) state.world state.places rfl
  intro fuel frames world
  induction fuel, frames, world using RunState.run_induction setup with
  | nil fuel world =>
      rintro (_ | place) ⟨⟩
      exact ⟨_, .completed⟩
  | bodyEnd fuel frame rest world fetched ih =>
      rintro (_ | ⟨function, position⟩) ⟨⟩
      obtain ⟨outcome, later⟩ := ih _ rfl
      exact ⟨outcome, .returned ((Frame.fetch_eq_bodyEnd_iff _).mp fetched) later⟩
  | crash fuel frame rest world crash fetched =>
      rintro (_ | ⟨function, position⟩) ⟨⟩
      exact ⟨_, .crashed ((Frame.fetch_eq_crash_iff _ crash).mp fetched).1⟩
  | spent frame rest world token fetched =>
      rintro (_ | ⟨function, position⟩) ⟨⟩
      exact ⟨_, .interrupted ((Frame.fetch_eq_instruction_iff _ token).mp fetched)⟩
  | failed fuel frame rest world token after cause fetched executed =>
      rintro (_ | ⟨function, position⟩) ⟨⟩
      have due := (Frame.fetch_eq_instruction_iff _ token).mp fetched
      exact ⟨_, .failed (fails_of_execute due executed)⟩
  | executed fuel frame rest world token after control fetched executed ih =>
      rintro (_ | ⟨function, position⟩) ⟨⟩
      have due := (Frame.fetch_eq_instruction_iff _ token).mp fetched
      obtain ⟨outcome, later⟩ := ih _ (activations_places control _ _ _)
      exact ⟨outcome, .acted (acts_of_execute due executed) later⟩

/-- The one end to which the machine of the table comes is that of the run. -/
theorem ends_iff (setup : RunSetup) (fuel : Nat) (state : State) (outcome : RunState.Outcome) :
    Ends setup fuel state outcome ↔
      outcome = (state.toRun.run setup.untraced fuel).outcome := by
  constructor
  · exact Ends.eq_outcome_run
  · rintro rfl
    obtain ⟨found, ends⟩ := exists_ends setup fuel state
    rwa [← ends.eq_outcome_run]

end

end Table

namespace Machine

/-- The state in which the machine of the table begins: the first `main`, if there is one, at its
start, on fresh memory. -/
def firstState (machine : Machine) : Table.State where
  places := (machine.setup.program.lookup? "main").toList.map (·, 0)
  world := machine.initial.world

theorem toRun_firstState (machine : Machine) :
    machine.firstState.toRun = ⟨machine.firstFrames, machine.initial.world, {}⟩ := by
  rw [Table.State.toRun, firstState, firstFrames]
  cases machine.setup.program.lookup? "main" <;> rfl

end Machine

end StackMachine
