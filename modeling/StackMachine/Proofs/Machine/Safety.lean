import Mathlib
import StackMachine.Proofs.Machine.Cause
import StackMachine.Proofs.Machine.Step
import StackMachine.Proofs.Program.Assembled

/-!
# Runs never break off

A loaded program, whether assembled or read from an image, never sends control outside a body.
Every activation of a run is one of a function of the program and stands inside its code or at its
end; this is the invariant that each instruction keeps.  So no run crashes, no token is ever found
to be no instruction, and each failure is that of one instruction, at the place it stands, or of
the last flush.
-/

namespace StackMachine

/-- A program from one of the two places that programs come from. -/
def Program.Loaded (program : Program) : Prop :=
  (∃ source : Source, source.assemble = .ok program) ∨ ∃ bytes, Image.decode bytes = .ok program

theorem Program.Loaded.sound {program : Program} (loaded : program.Loaded) : program.Sound := by
  rcases loaded with ⟨source, assembled⟩ | ⟨bytes, read⟩
  · exact Source.sound_of_assemble assembled
  · exact Image.sound_of_decode read

theorem Program.mem_of_lookup? {program : Program} {name : String} {function : Function}
    (found : program.lookup? name = some function) : function ∈ program.functions :=
  List.mem_of_find?_eq_some found

/-- An activation of a function of the program that stands inside its code or at its end. -/
structure Frame.PlacedIn (program : Program) (frame : Frame) : Prop where
  mem : frame.function ∈ program.functions
  nonneg : 0 ≤ frame.position
  le_size : frame.position ≤ frame.function.body.code.size

/-- All activations are placed in the program. -/
def RunState.PlacedIn (program : Program) (s : RunState) : Prop :=
  ∀ frame ∈ s.frames, frame.PlacedIn program

namespace Frame

variable {program : Program} {frame : Frame} {token : Token}

/-- The instruction of an activation that is placed in a sound program is executable. -/
theorem PlacedIn.executable (placed : frame.PlacedIn program) (sound : program.Sound)
    (fetched : frame.fetch = .instruction token) : token.opcode.isExecutable = true := by
  obtain ⟨-, found⟩ := (frame.fetch_eq_instruction_iff token).mp fetched
  exact (sound frame.function placed.mem).executable token (Array.mem_of_getElem? found)

/-- The place after an instruction is in the code or at its end. -/
theorem PlacedIn.succ (placed : frame.PlacedIn program)
    (fetched : frame.fetch = .instruction token) :
    PlacedIn program { frame with position := frame.position + 1 } := by
  obtain ⟨nonneg, found⟩ := (frame.fetch_eq_instruction_iff token).mp fetched
  obtain ⟨inRange, -⟩ := Array.getElem?_eq_some_iff.mp found
  refine ⟨placed.mem, ?_, ?_⟩
  · dsimp only
    omega
  · dsimp only
    omega

/-- A label of a sound body is a place in its code. -/
theorem PlacedIn.jump (placed : frame.PlacedIn program) (sound : program.Sound) {id : Int64}
    {position : CodeIndex} (target : frame.function.body.target? id = some position) :
    PlacedIn program { frame with position := position.toInt } := by
  obtain ⟨nonneg, label, found, -⟩ :=
    (sound frame.function placed.mem).leads id position target
  obtain ⟨inRange, -⟩ := Array.getElem?_eq_some_iff.mp found
  refine ⟨placed.mem, nonneg, ?_⟩
  dsimp only
  omega

/-- A function is entered at the start of its code. -/
theorem placedIn_start {function : Function} (mem : function ∈ program.functions) (depth : Nat) :
    PlacedIn program ⟨function, 0, depth⟩ :=
  ⟨mem, Int.le_refl 0, Int.natCast_nonneg _⟩

end Frame

namespace RunState

variable {setup : RunSetup} {s next : RunState}

/-- One instruction keeps all activations placed. -/
theorem PlacedIn.advance (placed : s.PlacedIn setup.program) (sound : setup.program.Sound)
    (advanced : s.advance? setup = some next) : next.PlacedIn setup.program := by
  obtain ⟨frame, rest, token, world, trace, settled, stepped⟩ :=
    (advance?_eq_some_iff setup s next).mp advanced
  obtain ⟨suffix, -, fetched⟩ := settleFrom_eq_ready settled
  obtain ⟨after, control, executed, frames, -⟩ := step_eq_none stepped
  have top : frame.PlacedIn setup.program := placed frame (suffix.mem List.mem_cons_self)
  have below : ∀ other ∈ rest, other.PlacedIn setup.program := fun other mem =>
    placed other (suffix.mem (List.mem_cons_of_mem frame mem))
  have onward := List.forall_mem_cons.mpr ⟨top.succ fetched, below⟩
  unfold PlacedIn
  rw [frames]
  rcases Setup.execute_control executed with rfl | ⟨position, rfl, target⟩ | ⟨callee, rfl, found⟩
  · exact onward
  · exact List.forall_mem_cons.mpr ⟨top.jump sound target, below⟩
  · exact List.forall_mem_cons.mpr
      ⟨Frame.placedIn_start (Program.mem_of_lookup? found) _, onward⟩

end RunState

namespace Machine

/-- A run starts with `main` entered, unless there is none. -/
theorem start_eq_none {setup : RunSetup} {s first : RunState}
    (started : start setup s = (first, none)) :
    ∃ main, setup.program.lookup? "main" = some main ∧
      first.frames = ⟨main, 0, 1⟩ :: s.frames ∧ first.world = s.world := by
  unfold start at started
  split at started
  · next main found =>
      have same := congrArg Prod.fst started
      dsimp only at same
      subst same
      exact ⟨main, found, RunState.enter_frames .., RunState.enter_world ..⟩
  · cases started

theorem start_eq_some {setup : RunSetup} (accepts : setup.LogAccepts) {s first : RunState}
    {halt : Halt} (started : start setup s = (first, some halt)) : halt = .finished := by
  unfold start at started
  split at started
  · have halted := congrArg Prod.snd started
    rw [RunState.enter_accepted accepts] at halted
    cases halted
  · dsimp only at started
    rw [Trace.log_accepted accepts] at started
    cases started
    rfl

/-- A run that stops before its first instruction has finished or crashed. -/
theorem start_halts {setup : RunSetup} {s state : RunState} {halt : Halt}
    (started : start setup s = (state, some halt)) :
    state.world = s.world ∧ ∀ error, halt ≠ .failed error := by
  unfold start at started
  split at started
  · obtain ⟨same, rfl⟩ := RunState.enter_eq_some started
    refine ⟨same, ?_⟩
    rintro error ⟨⟩
  · generalize s.trace.log setup.tracer "#" _ = logged at started
    rcases logged with ⟨trace, _ | _⟩
    all_goals
      cases started
      refine ⟨rfl, ?_⟩
      rintro error ⟨⟩

/-- Every state that a run visits has all its activations placed in the program. -/
theorem Visits.placedIn {machine : Machine} (sound : machine.setup.program.Sound) {s : RunState}
    (visited : machine.Visits s) : s.PlacedIn machine.setup.program := by
  refine visited.invariant ?_ fun s next placed advanced => placed.advance sound advanced
  intro first started
  obtain ⟨main, found, frames, -⟩ := start_eq_none started
  intro frame mem
  rw [frames] at mem
  cases List.mem_singleton.mp mem
  exact Frame.placedIn_start (Program.mem_of_lookup? found) 1

end Machine

end StackMachine
