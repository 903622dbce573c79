import Mathlib
import StackMachine.Proofs.Machine.Safety
import StackMachine.Proofs.Machine.Table

/-!
# The nesting of activations

The depth that an activation carries is the number of activations from it down, and the limit on
calls bounds their number.  Both hold when `main` has been entered, and every instruction keeps
them (`Visits.nested`).  An instruction of a nested activation therefore does what the table of
opcodes says of the places below it (`Nested.acts`, `Nested.fails`).
-/

namespace StackMachine

/-- Where an activation stands. -/
def Frame.place (frame : Frame) : Function × Int := (frame.function, frame.position)

/-- Activations each of which carries the number of activations from it down. -/
inductive Nested : List Frame → Prop where
  | nil : Nested []
  | cons {frame : Frame} {rest : List Frame} (depth : frame.depth = rest.length + 1)
      (below : Nested rest) : Nested (frame :: rest)

/-- So many activations are within the limit on calls, if there is one. -/
def Setup.AllowsDepth (setup : Setup) (depth : Nat) : Prop :=
  0 < setup.maxDepth.toInt → (depth : Int) ≤ setup.maxDepth.toInt

theorem Setup.AllowsDepth.of_le {setup : Setup} {depth less : Nat} (allows : setup.AllowsDepth depth)
    (le : less ≤ depth) : setup.AllowsDepth less := by
  intro limited
  have bound := allows limited
  omega

theorem Control.map_place_frames (control : Control) (frame : Frame) (rest : List Frame) :
    (control.frames frame rest).map Frame.place =
      control.places frame.function frame.position (rest.map Frame.place) := by
  cases control <;> rfl

namespace Nested

variable {frame : Frame} {rest frames : List Frame}

theorem of_suffix (nested : Nested frames) (suffix : rest <:+ frames) : Nested rest := by
  induction nested with
  | nil =>
      rw [List.suffix_nil.mp suffix]
      exact .nil
  | cons depth below ih =>
      rcases List.suffix_cons_iff.mp suffix with rfl | shorter
      · exact .cons depth below
      · exact ih shorter

/-- The activations after an instruction are nested, wherever control has gone. -/
theorem control (nested : Nested (frame :: rest)) (control : Control) :
    Nested (control.frames frame rest) := by
  cases nested with
  | cons depth below =>
      cases control with
      | next => exact .cons depth below
      | jump position => exact .cons depth below
      | enter callee => exact .cons (congrArg (· + 1) depth) (.cons depth below)

section Table

variable {setup : Setup} {token : Token} {world after : World}

theorem execute_eq (nested : Nested (frame :: rest)) (setup : Setup) (token : Token)
    (world : World) :
    setup.execute frame.function.body frame.depth token world =
      setup.execute frame.function.body ((rest.map Frame.place).length + 1) token world := by
  cases nested with
  | cons depth below => rw [depth, List.length_map]

/-- An instruction that succeeds does so by the table. -/
theorem acts (nested : Nested (frame :: rest)) (fetched : frame.fetch = .instruction token)
    {control : Control}
    (executed : setup.execute frame.function.body frame.depth token world = (after, .ok control)) :
    Table.Acts setup ⟨frame.place :: rest.map Frame.place, world⟩
      ⟨control.places frame.function frame.position (rest.map Frame.place), after⟩ := by
  rw [nested.execute_eq] at executed
  exact Table.acts_of_execute ((frame.fetch_eq_instruction_iff token).mp fetched) executed

/-- An instruction that fails does so by the table. -/
theorem fails (nested : Nested (frame :: rest)) (fetched : frame.fetch = .instruction token)
    {cause : Cause}
    (executed : setup.execute frame.function.body frame.depth token world =
      (after, .error cause)) :
    Table.Fails setup ⟨frame.place :: rest.map Frame.place, world⟩ token cause after := by
  rw [nested.execute_eq] at executed
  exact Table.fails_of_execute ((frame.fetch_eq_instruction_iff token).mp fetched) executed

end Table

end Nested

/-- An instruction by the table keeps the number of places within the limit on calls. -/
theorem Table.Acts.allowsDepth {setup : Setup} {state next : State} (acts : Acts setup state next)
    (allowed : setup.AllowsDepth state.places.length) :
    setup.AllowsDepth next.places.length := by
  cases acts with
  | effect due effect => exact allowed
  | goto due opcode leads => exact allowed
  | branch due opcode leads nonzero => exact allowed
  | stay due opcode leads => exact allowed
  | call due opcode user found shallow =>
      intro limited
      simp only [List.length_cons]
      omega

namespace RunState

/-- A run whose activations are nested, in a number that the limit on calls allows. -/
structure Nested (setup : Setup) (s : RunState) : Prop where
  frames : StackMachine.Nested s.frames
  allowed : setup.AllowsDepth s.frames.length

variable {setup : RunSetup} {s next : RunState}

/-- The activations that are left when the finished ones have been ended. -/
theorem Nested.ready (nested : s.Nested setup.toSetup) {frame : Frame} {rest : List Frame}
    {token : Token} {world : World} {trace : Trace}
    (settled : s.settle setup = .ready frame rest token world trace) :
    StackMachine.Nested (frame :: rest) ∧ setup.AllowsDepth (rest.length + 1) := by
  obtain ⟨suffix, -, -⟩ := settleFrom_eq_ready settled
  exact ⟨nested.frames.of_suffix suffix, nested.allowed.of_le suffix.length_le⟩

/-- One instruction keeps activations nested. -/
theorem Nested.advance (nested : s.Nested setup.toSetup) (advanced : s.advance? setup = some next) :
    next.Nested setup.toSetup := by
  obtain ⟨frame, rest, token, world, trace, settled, stepped⟩ :=
    (advance?_eq_some_iff setup s next).mp advanced
  obtain ⟨nestedFrames, allowed⟩ := nested.ready settled
  obtain ⟨-, -, fetched⟩ := settleFrom_eq_ready settled
  obtain ⟨after, control, executed, frames, -⟩ := step_eq_none stepped
  have allowedNext := (nestedFrames.acts fetched executed).allowsDepth (by simpa using allowed)
  rw [← Control.map_place_frames, List.length_map] at allowedNext
  rw [← frames] at allowedNext
  exact ⟨frames ▸ nestedFrames.control control, allowedNext⟩

end RunState

/-- Every state that a run visits has nested activations, within the limit on calls. -/
theorem Machine.Visits.nested {machine : Machine} {s : RunState} (visited : machine.Visits s) :
    s.Nested machine.setup.toSetup := by
  refine visited.invariant ?_ fun s next nested advanced => nested.advance advanced
  intro first started
  obtain ⟨main, -, frames, -⟩ := start_eq_none started
  constructor
  · rw [frames]
    exact .cons rfl .nil
  · rw [frames]
    intro limited
    exact limited

end StackMachine
