import Mathlib
import StackMachine.Proofs.Machine.Correspondence
import StackMachine.Proofs.Machine.Step
import StackMachine.Proofs.Program.Sound

/-!
# Runs of a changed program

A program with some of its tokens changed runs in step with the original: the two runs have the
same world and the same trace, and activations of corresponding functions at the same positions,
until an instruction is due that was changed.  That is also where they part, as an interruption at
that moment shows; so the two programs behave alike exactly as long as no changed instruction is
due.
-/

namespace StackMachine

section

variable (change : Token → Token)

/-! ## Corresponding states -/

/-- An activation of a changed function. -/
def Frame.mapTokens (frame : Frame) : Frame :=
  { frame with function := frame.function.mapTokens change }

/-- A run in progress of a changed program. -/
def RunState.mapTokens (s : RunState) : RunState :=
  { s with frames := s.frames.map (Frame.mapTokens change) }

/-- The way that control goes in a changed program. -/
def Control.mapTokens : Control → Control
  | .next => .next
  | .jump position => .jump position
  | .enter callee => .enter (callee.mapTokens change)

/-- The end of a run of a changed program. -/
def RunState.Ending.mapTokens (ending : RunState.Ending) : RunState.Ending :=
  { ending with state := ending.state.mapTokens change }

/-- The settings of a run, for another program. -/
def RunSetup.withProgram (setup : RunSetup) (program : Program) : RunSetup :=
  { setup with program }

theorem Program.lookup?_mapTokens (program : Program) (name : String) :
    (program.mapTokens change).lookup? name =
      (program.lookup? name).map (Function.mapTokens change) := by
  rw [Program.lookup?, Program.functions_mapTokens, List.find?_map]
  rfl

@[simp]
theorem Frame.name_mapTokens (frame : Frame) :
    (frame.mapTokens change).function.name = frame.function.name :=
  rfl

@[simp]
theorem Frame.position_mapTokens (frame : Frame) :
    (frame.mapTokens change).position = frame.position :=
  rfl

@[simp]
theorem Frame.depth_mapTokens (frame : Frame) : (frame.mapTokens change).depth = frame.depth :=
  rfl

/-- What is due in a changed function is the changed instruction. -/
theorem Frame.fetch_mapTokens (frame : Frame) :
    (frame.mapTokens change).fetch =
      match frame.fetch with
      | .instruction token => .instruction (change token)
      | .bodyEnd => .bodyEnd
      | .crash crash => .crash crash := by
  have code : (frame.mapTokens change).function.body.code = frame.function.body.code.map change :=
    Body.code_mapTokens change frame.function.body
  unfold Frame.fetch
  rw [code, Frame.position_mapTokens, Array.getElem?_map]
  split
  · rfl
  · cases frame.function.body.code[frame.position.toNat]? <;> rfl

/-! ## Executing an instruction -/

variable (setup : RunSetup)

/-- The settings of a run of the changed program. -/
def RunSetup.mapTokens : RunSetup := setup.withProgram (setup.program.mapTokens change)

@[simp]
theorem RunSetup.tracer_mapTokens : (setup.mapTokens change).tracer = setup.tracer :=
  rfl

theorem Setup.corresponds_mapTokens :
    Corresponds (Function.mapTokens change) setup.toSetup (setup.mapTokens change).toSetup where
  maxDepth := rfl
  heapLimit := rfl
  lookup? name _ := setup.program.lookup?_mapTokens change name

theorem Control.map_mapTokens :
    Control.map (Function.mapTokens change) id = Control.mapTokens change := by
  funext control
  cases control <;> rfl

/-- One and the same instruction does the same in both programs. -/
theorem Setup.execute_mapTokens (body : Body) (depth : Nat) (token : Token) (world : World) :
    (setup.mapTokens change).execute (body.mapTokens change) depth token world =
      ((setup.execute body depth token world).1,
        (setup.execute body depth token world).2.map (Control.mapTokens change)) := by
  have targets : (body.mapTokens change).target? token.index =
      (body.target? token.index).map id := by
    rw [Body.target?_mapTokens, Option.map_id_fun, id]
  rw [← Control.map_mapTokens]
  exact execute_map (corresponds_mapTokens change setup) (fun _ => targets) depth world

namespace RunState

/-- One and the same instruction takes corresponding states to corresponding states. -/
theorem step_mapTokens (frame : Frame) (rest : List Frame) (token : Token) (world : World)
    (trace : Trace) :
    step (setup.mapTokens change) (frame.mapTokens change) (rest.map (Frame.mapTokens change)) token
        world trace =
      ((step setup frame rest token world trace).1.mapTokens change,
        (step setup frame rest token world trace).2) := by
  have executed : (setup.mapTokens change).execute (frame.mapTokens change).function.body
      frame.depth token world = _ :=
    Setup.execute_mapTokens change setup frame.function.body frame.depth token world
  simp only [step, Frame.name_mapTokens, Frame.position_mapTokens, Frame.depth_mapTokens, executed,
    RunSetup.tracer_mapTokens]
  generalize trace.log setup.tracer "exec" _ = logged
  rcases logged with ⟨trace, _ | _⟩
  · rcases setup.execute frame.function.body frame.depth token world with ⟨after, cause | control⟩
    · rfl
    · cases control <;> rfl
  · rfl

/-- The end of finished activations leads corresponding states to corresponding ones. -/
def Settled.mapTokens : Settled → Settled
  | .halted state halt => .halted (state.mapTokens change) halt
  | .ready frame rest token world trace =>
      .ready (frame.mapTokens change) (rest.map (Frame.mapTokens change)) (change token) world trace

theorem settleFrom_mapTokens (world : World) (frames : List Frame) (trace : Trace) :
    settleFrom (setup.mapTokens change) world (frames.map (Frame.mapTokens change)) trace =
      (settleFrom setup world frames trace).mapTokens change := by
  induction frames generalizing trace with
  | nil => rfl
  | cons frame rest ih =>
      rw [List.map_cons, settleFrom, settleFrom, Frame.fetch_mapTokens]
      cases frame.fetch with
      | instruction token => rfl
      | crash crash => rfl
      | bodyEnd =>
          rcases logged : trace.log setup.tracer "<" (fun _ =>
            s!"ret {frame.function.name} -- s:{stackText world.memory.stack}") with ⟨after, refused⟩
          have same : trace.log (setup.mapTokens change).tracer "<" (fun _ =>
            s!"ret {(frame.mapTokens change).function.name} -- s:{stackText world.memory.stack}") =
              (after, refused) := logged
          simp only [same]
          cases refused with
          | false => exact ih after
          | true => rfl

/-- Finished activations are ended alike; what is due then is the changed instruction. -/
theorem settle_mapTokens (s : RunState) :
    (s.mapTokens change).settle (setup.mapTokens change) = (s.settle setup).mapTokens change :=
  settleFrom_mapTokens change setup s.world s.frames s.trace

/-! ## Running in step -/

/-- An instruction that is due at a state. -/
def Due (s : RunState) (token : Token) : Prop :=
  ∃ frame rest world trace, s.settle setup = .ready frame rest token world trace

/-- An instruction that was not changed takes corresponding states to corresponding states. -/
theorem advance?_mapTokens {s : RunState}
    (unchanged : ∀ token, s.Due setup token → change token = token) :
    (s.mapTokens change).advance? (setup.mapTokens change) =
      (s.advance? setup).map (mapTokens change) := by
  rw [advance?, advance?, settle_mapTokens]
  cases settled : s.settle setup with
  | halted state halt => rfl
  | ready frame rest token world trace =>
      have same := unchanged token ⟨frame, rest, world, trace, settled⟩
      simp only [Settled.mapTokens, same, step_mapTokens]
      rcases step setup frame rest token world trace with ⟨next, _ | halt⟩ <;> rfl

/-- Two runs are in corresponding states as long as no changed instruction has been executed. -/
theorem after?_mapTokens {count : Nat} {s : RunState}
    (unchanged : ∀ earlier < count, ∀ last token, s.after? setup earlier = some last →
      last.Due setup token → change token = token) :
    (s.mapTokens change).after? (setup.mapTokens change) count =
      (s.after? setup count).map (mapTokens change) := by
  induction count generalizing s with
  | zero => rfl
  | succ count ih =>
      have first := advance?_mapTokens change setup (unchanged 0 (Nat.succ_pos count) s · rfl)
      rw [after?, after?, first]
      cases advanced : s.advance? setup with
      | none => rfl
      | some next =>
          refine ih fun earlier isEarlier last token reached => ?_
          refine unchanged (earlier + 1) (Nat.succ_lt_succ isEarlier) last token ?_
          exact (after?_succ_eq_some_iff setup earlier s last).mpr ⟨next, advanced, reached⟩

/-- A run after some of its instructions is the rest of the run. -/
theorem run_of_after? {count : Nat} {s last : RunState}
    (reached : s.after? setup count = some last) (fuel : Nat) :
    s.run setup (count + fuel) = last.run setup fuel := by
  induction count generalizing s with
  | zero =>
      cases reached
      rw [Nat.zero_add]
  | succ count ih =>
      obtain ⟨next, advanced, rest⟩ := (after?_succ_eq_some_iff setup count s last).mp reached
      obtain ⟨frame, below, token, world, trace, settled, stepped⟩ :=
        (advance?_eq_some_iff setup s next).mp advanced
      rw [Nat.add_right_comm, run, settled]
      dsimp only
      rw [stepped]
      exact ih rest

/-- Two runs end alike if no changed instruction is ever due. -/
theorem run_mapTokens {fuel : Nat} {s : RunState}
    (unchanged : ∀ count ≤ fuel, ∀ last token, s.after? setup count = some last →
      last.Due setup token → change token = token) :
    (s.mapTokens change).run (setup.mapTokens change) fuel =
      (s.run setup fuel).mapTokens change := by
  induction fuel generalizing s with
  | zero =>
      rw [run, run, settle_mapTokens]
      cases settled : s.settle setup with
      | halted state halt => rfl
      | ready frame rest token world trace =>
          have same := unchanged 0 le_rfl s token rfl ⟨frame, rest, world, trace, settled⟩
          simp only [Settled.mapTokens, same]
          rfl
  | succ fuel ih =>
      rw [run, run, settle_mapTokens]
      cases settled : s.settle setup with
      | halted state halt => rfl
      | ready frame rest token world trace =>
          have same := unchanged 0 (Nat.zero_le _) s token rfl ⟨frame, rest, world, trace, settled⟩
          simp only [Settled.mapTokens, same, step_mapTokens]
          rcases stepped : step setup frame rest token world trace with ⟨next, _ | halt⟩
          · have advanced : s.advance? setup = some next :=
              (advance?_eq_some_iff setup s next).mpr
                ⟨frame, rest, token, world, trace, settled, stepped⟩
            refine ih fun count few last token reached => ?_
            refine unchanged (count + 1) (Nat.succ_le_succ few) last token ?_
            exact (after?_succ_eq_some_iff setup count s last).mpr ⟨next, advanced, reached⟩
          · rfl

/-- At the moment at which its fuel is spent a run tells which instruction is due. -/
theorem halt_run_zero {s : RunState} {token : Token} (due : s.Due setup token) :
    ∃ name position, (s.run setup 0).halt =
        .failed ⟨name, position, token, .interrupted setup.interruption⟩ ∧
      ((s.mapTokens change).run (setup.mapTokens change) 0).halt =
        .failed ⟨name, position, change token, .interrupted setup.interruption⟩ := by
  obtain ⟨frame, rest, world, trace, settled⟩ := due
  refine ⟨frame.function.name, frame.position.toNat, ?_, ?_⟩
  · rw [run, settled]
    rfl
  · rw [run, settle_mapTokens, settled]
    rfl

end RunState

end

/-! ## Machines -/

namespace Machine

/-- A machine with another program in the place of its own. -/
def withProgram (machine : Machine) (program : Program) : Machine :=
  { machine with setup := machine.setup.withProgram program }

/-- An instruction that is due in a run after at most so many instructions. -/
def Meets (machine : Machine) (limit : Nat) (token : Token) : Prop :=
  ∃ first count s, count ≤ limit ∧ start machine.setup machine.initial = (first, none) ∧
    first.after? machine.setup count = some s ∧ s.Due machine.setup token

variable (change : Token → Token) (machine : Machine)

/-- The machine of a changed program. -/
def mapTokens : Machine := machine.withProgram (machine.setup.program.mapTokens change)

theorem start_mapTokens (setup : RunSetup) (s : RunState) :
    start (setup.mapTokens change) (s.mapTokens change) =
      ((start setup s).1.mapTokens change, (start setup s).2) := by
  have main : (setup.mapTokens change).program.lookup? "main" =
      (setup.program.lookup? "main").map (Function.mapTokens change) :=
    setup.program.lookup?_mapTokens change "main"
  unfold start
  rw [main]
  cases setup.program.lookup? "main" <;> rfl

/-- The two machines end alike if no changed instruction is ever due. -/
theorem execution_mapTokens {fuel : Nat}
    (unchanged : ∀ token, machine.Meets fuel token → change token = token) :
    (machine.mapTokens change).execution fuel = (machine.execution fuel).mapTokens change := by
  have begins : start (machine.mapTokens change).setup (machine.mapTokens change).initial = _ :=
    start_mapTokens change machine.setup machine.initial
  rw [execution_eq, execution_eq, begins]
  rcases started : start machine.setup machine.initial with ⟨first, _ | halt⟩
  · refine RunState.run_mapTokens change machine.setup fun count few last token reached due => ?_
    exact unchanged token ⟨first, count, last, few, started, reached, due⟩
  · rfl

theorem failure_run_of_failed {machine : Machine} {fuel : Nat} {error : RunError}
    (failed : (machine.execution fuel).halt = .failed error) :
    (machine.run fuel).1.failure = some (.halted error) := by
  unfold run
  dsimp only
  rw [failed]
  rfl

/-- Two runs that are interrupted where an instruction is due tell that instruction, as it is in
the one program and in the other, if none was changed before it. -/
theorem exists_interruption {first s : RunState} {count : Nat} {token : Token}
    (started : start machine.setup machine.initial = (first, none))
    (reached : first.after? machine.setup count = some s) (due : s.Due machine.setup token)
    (unchanged : ∀ earlier < count, ∀ last token, first.after? machine.setup earlier = some last →
      last.Due machine.setup token → change token = token) :
    ∃ name position cause,
      (machine.run count).1.failure = some (.halted ⟨name, position, token, cause⟩) ∧
        ((machine.mapTokens change).run count).1.failure =
          some (.halted ⟨name, position, change token, cause⟩) := by
  have begins : start (machine.mapTokens change).setup (machine.mapTokens change).initial =
      (first.mapTokens change, none) := by
    have mapped := start_mapTokens change machine.setup machine.initial
    rwa [started] at mapped
  have follows := RunState.after?_mapTokens change machine.setup unchanged
  rw [reached] at follows
  obtain ⟨name, position, original, changed⟩ := RunState.halt_run_zero change machine.setup due
  refine ⟨name, position, .interrupted machine.setup.interruption, ?_, ?_⟩
  · apply failure_run_of_failed
    rw [execution_eq, started]
    have rest := RunState.run_of_after? machine.setup reached 0
    exact (congrArg RunState.Ending.halt rest).trans original
  · apply failure_run_of_failed
    rw [execution_eq, begins]
    have rest := RunState.run_of_after? (machine.setup.mapTokens change) follows 0
    exact (congrArg RunState.Ending.halt rest).trans changed

/-- A changed program behaves like the original, at whatever moment the run is interrupted, exactly
if no changed instruction is due up to the last of these moments. -/
theorem run_mapTokens_iff (limit : Nat) :
    (∀ fuel ≤ limit, (machine.mapTokens change).run fuel =
        ((machine.run fuel).1, (machine.run fuel).2.mapTokens change)) ↔
      ∀ token, machine.Meets limit token → change token = token := by
  constructor
  · rintro alike token ⟨first, count, s, few, started, reached, due⟩
    -- By induction on the moment: before it, no changed instruction has been due.
    induction count using Nat.strong_induction_on generalizing s token with
    | h count ih =>
        obtain ⟨name, position, cause, original, changed⟩ :=
          machine.exists_interruption change started reached due
            fun earlier isEarlier last token reached due =>
              ih earlier isEarlier token last (isEarlier.le.trans few) reached due
        rw [alike count few, original] at changed
        simp only [Option.some.injEq, RunFailure.halted.injEq, RunError.mk.injEq, true_and,
          and_true] at changed
        exact changed.symm
  · intro unchanged fuel enough
    have ending := @execution_mapTokens change machine fuel
      fun token ⟨first, count, s, few, rest⟩ =>
        unchanged token ⟨first, count, s, few.trans enough, rest⟩
    unfold run
    rw [ending]
    rfl

end Machine

end StackMachine
