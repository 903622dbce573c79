import Mathlib
import StackMachine.Proofs.Machine.Safety
import StackMachine.Proofs.Program.Grammar

/-!
# Where jumps lead

A jump looks its label up in the body that it stands in.  Assembling has given the table of that
body the place of the last token that declares the id, whether it stands before or behind the jump
(`Source.target?_of_assemble`), so that a jump that is taken goes there and nowhere else.  It fails
for its label exactly if no token of the body declares the id; a branch does so before it looks at
its condition (`Setup.execute_unknownLabel_iff`).  For the states that a run visits this is
`Machine.run_jumps`.
-/

namespace StackMachine

/-- The labels of an assembled function lead to the last tokens that declare them. -/
theorem Source.target?_of_assemble {source : Source} {program : Program}
    (assembled : source.assemble = .ok program) {function : Function}
    (mem : function ∈ program.functions) (id : Int64) :
    (function.body.target? id = none ↔ ∀ token ∈ function.body.code, ¬ token.Labels id) ∧
    ∀ position, function.body.target? id = some position ↔
      LastLabel function.body.code.toList id position := by
  obtain ⟨-, -, -, rest, functions, -, -, -, -, ok, rfl⟩ := TokenStream.assemble_eq_ok assembled
  rw [Program.functions, getD_collected] at mem
  have notOpened : ∀ header code, (none : Option (Token × List Token)) = some (header, code) →
      ∀ token ∈ code, Assembly.InBody token ∧ True := by
    rintro header code ⟨⟩
  obtain ⟨header, code, rfl, -⟩ :=
    Assembly.exists_of_mem_functions ok (fun _ _ => trivial) notOpened mem
  obtain ⟨declared, last⟩ := Assembly.labels_function header code id
  refine ⟨?_, last⟩
  rw [Body.target?, getElem?_eq_none_iff, declared]
  simp only [not_exists, not_and]

/-- A jump that is taken if its label is there: a branch needs an integer other than zero. -/
def Token.Jumps (token : Token) (stack : List Atom) : Prop :=
  token.opcode = .goto ∨
    token.opcode = .branch ∧ ∃ condition below, stack = .int condition :: below ∧ condition ≠ 0

namespace Setup

variable (setup : Setup) (body : Body) (depth : Nat) {token : Token} {world : World}

/-- A jump fails for its label exactly if the body has none of its id, whatever is on the stack, and
then it has changed nothing. -/
theorem execute_unknownLabel_iff (isJump : token.opcode = .goto ∨ token.opcode = .branch)
    {after : World} {id : Int64} :
    setup.execute body depth token world = (after, .error (.unknownLabel id)) ↔
      body.target? token.index = none ∧ after = world ∧ id = token.index := by
  rcases isJump with opcode | opcode
  · simp only [execute, opcode]
    cases body.target? token.index with
    | none => simp [eq_comm]
    | some position => simp
  · simp only [execute, opcode]
    cases body.target? token.index with
    | none => simp [eq_comm]
    | some position =>
        rcases world.memory.stack with _ | ⟨condition, below⟩
        · simp
        · cases condition <;> simp

/-- A jump that is taken goes where its label leads. -/
theorem execute_jump_iff (jumps : token.Jumps world.memory.stack) {position : CodeIndex} :
    (∃ after, setup.execute body depth token world = (after, .ok (.jump position))) ↔
      body.target? token.index = some position := by
  rcases jumps with opcode | ⟨opcode, condition, below, stack, nonzero⟩
  · simp only [execute, opcode]
    cases body.target? token.index with
    | none => simp
    | some target => simp
  · simp only [execute, opcode, stack, if_neg nonzero]
    cases body.target? token.index with
    | none => simp
    | some target => simp

end Setup

namespace RunState

variable {setup : RunSetup} {frame : Frame} {rest : List Frame} {token : Token} {world : World}
  {trace logged : Trace}
  (taken : trace.log setup.tracer "exec" (frame.executeMessage token world) = (logged, false))
include taken

/-- A jump halts for a label exactly if the body has none of its id; the error tells which id, and
the world is as it was. -/
theorem step_unknownLabel_iff (isJump : token.opcode = .goto ∨ token.opcode = .branch) :
    ((∃ error id, (step setup frame rest token world trace).2 = some (.failed error) ∧
        error.cause = .unknownLabel id) ↔
      frame.function.body.target? token.index = none) ∧
    (frame.function.body.target? token.index = none →
      (step setup frame rest token world trace).2 = some (.failed
        ⟨frame.function.name, frame.position.toNat, token, .unknownLabel token.index⟩) ∧
      (step setup frame rest token world trace).1.world = world) := by
  have fails (unknown : frame.function.body.target? token.index = none) :
      (step setup frame rest token world trace).2 = some (.failed
        ⟨frame.function.name, frame.position.toNat, token, .unknownLabel token.index⟩) ∧
      (step setup frame rest token world trace).1.world = world := by
    have executed := (setup.execute_unknownLabel_iff _ frame.depth isJump).mpr
      ⟨unknown, @rfl _ world, rfl⟩
    rw [step_of_error taken executed]
    exact ⟨rfl, rfl⟩
  refine ⟨⟨?_, fun unknown => ⟨_, _, (fails unknown).1, rfl⟩⟩, fails⟩
  rintro ⟨error, id, halted, isCause⟩
  rcases step_halts (Prod.ext rfl halted) with ⟨-, crashed⟩ | ⟨cause, executed, failed⟩
  · cases crashed
  · cases failed
    cases isCause
    exact ((setup.execute_unknownLabel_iff _ _ isJump).mp executed).1

/-- A jump that is taken goes on where its label leads, in the same activation. -/
theorem step_jump_iff (jumps : token.Jumps world.memory.stack) {position : CodeIndex} :
    (∃ next, step setup frame rest token world trace = (next, none) ∧
        next.frames = { frame with position := position.toInt } :: rest) ↔
      frame.function.body.target? token.index = some position := by
  constructor
  · rintro ⟨next, stepped, frames⟩
    obtain ⟨after, control, executed, isFrames, -⟩ := step_eq_none stepped
    cases target : frame.function.body.target? token.index with
    | none =>
        have isJump : token.opcode = .goto ∨ token.opcode = .branch := jumps.imp_right And.left
        have failed := (setup.execute_unknownLabel_iff _ frame.depth isJump).mpr
          ⟨target, @rfl _ world, rfl⟩
        rw [executed] at failed
        cases failed
    | some found =>
        obtain ⟨_, jumped⟩ := (setup.execute_jump_iff _ frame.depth jumps).mpr target
        rw [executed] at jumped
        cases jumped
        rw [frames] at isFrames
        injection isFrames with same
        injection same with _ same
        obtain ⟨position⟩ := position
        obtain ⟨found⟩ := found
        cases same
        rfl
  · intro target
    obtain ⟨after, executed⟩ := (setup.execute_jump_iff _ frame.depth jumps).mpr target
    exact ⟨_, step_of_stay taken executed (by rintro callee ⟨⟩) rest, rfl⟩

end RunState

namespace Machine

/-- Jumps in runs of assembled programs.  At every instruction of a run that is a jump, and whose
line the log takes, the jump stands in a function of the program.  If it is to be taken, the run goes
on at the last token of that function's code that declares its id, in the same activation.  It
halts for its label exactly if no token of the code declares the id, whatever is on the stack, and
then nothing has been taken from it. -/
theorem run_jumps (machine : Machine) {source : Source}
    (assembled : source.assemble = .ok machine.setup.program) {s : RunState}
    (visited : machine.Visits s) {frame : Frame} {rest : List Frame} {token : Token}
    {world : World} {trace : Trace}
    (due : s.settle machine.setup = .ready frame rest token world trace)
    (isJump : token.opcode = .goto ∨ token.opcode = .branch)
    (logged : (trace.log machine.setup.tracer "exec" (frame.executeMessage token world)).2 =
      false) :
    frame.function ∈ machine.setup.program.functions ∧
    frame.function.body.code[frame.position.toNat]? = some token ∧
    (token.Jumps world.memory.stack → ∀ position : CodeIndex,
      (∃ next, s.advance? machine.setup = some next ∧
        next.frames = { frame with position := position.toInt } :: rest) ↔
      LastLabel frame.function.body.code.toList token.index position) ∧
    ((∃ error id, (RunState.step machine.setup frame rest token world trace).2 =
        some (.failed error) ∧ error.cause = .unknownLabel id) ↔
      ∀ label ∈ frame.function.body.code, ¬ label.Labels token.index) ∧
    ((∀ label ∈ frame.function.body.code, ¬ label.Labels token.index) →
      (RunState.step machine.setup frame rest token world trace).2 = some (.failed
        ⟨frame.function.name, frame.position.toNat, token, .unknownLabel token.index⟩) ∧
      (RunState.step machine.setup frame rest token world trace).1.world = world) := by
  have sound := Source.sound_of_assemble assembled
  obtain ⟨suffix, -, fetched⟩ := RunState.settleFrom_eq_ready due
  have placed := visited.placedIn sound frame (suffix.mem List.mem_cons_self)
  obtain ⟨unknown, last⟩ := Source.target?_of_assemble assembled placed.mem token.index
  have taken : trace.log machine.setup.tracer "exec" (frame.executeMessage token world) =
      ((trace.log machine.setup.tracer "exec" (frame.executeMessage token world)).1, false) :=
    Prod.ext rfl logged
  refine ⟨placed.mem, ((frame.fetch_eq_instruction_iff token).mp fetched).2, ?_, ?_⟩
  · intro jumps position
    rw [← last, ← RunState.step_jump_iff taken jumps]
    refine exists_congr fun next => and_congr_left fun _ => ?_
    rw [RunState.advance?_eq_some_iff]
    constructor
    · rintro ⟨_, _, _, _, _, ready, stepped⟩
      rw [due] at ready
      cases ready
      exact stepped
    · intro stepped
      exact ⟨frame, rest, token, world, trace, due, stepped⟩
  · rw [← unknown]
    exact RunState.step_unknownLabel_iff taken isJump

/-- A source with one label twice, one branch to it from before and one jump to a label of another
function only. -/
def jumpingSource : Source where
  name := "jumping"
  input :=
    ⟨(".raw .class .function defun main 0 NULL pushi 5 branch 1 label 1 pop label 1 goto 2 endef " ++
      "defun other 0 NULL label 2 endef").toList, none⟩

/-- The first function of `jumpingSource`. -/
def jumpingMain : Function :=
  Assembly.function { opcode := .defun, name := "main" }
    [{ opcode := .pushi, int := 5 }, { opcode := .branch, index := 1 },
      { opcode := .label, index := 1 }, { opcode := .pop }, { opcode := .label, index := 1 },
      { opcode := .goto, index := 2 }]

/-- The program of `jumpingSource`. -/
def jumpingProgram : Program where
  functions? := some
    [jumpingMain,
      Assembly.function { opcode := .defun, name := "other" } [{ opcode := .label, index := 2 }]]

/-- The state of a run of `jumpingProgram` in which the branch is due. -/
def jumpingState : RunState where
  frames := [⟨jumpingMain, 1, 1⟩]
  world := { memory := { stack := [.int 5] } }

/-- The branch goes to the second of the two labels behind it. -/
theorem run_jumps_forward :
    let machine := new jumpingProgram #[] []
    jumpingSource.assemble = .ok jumpingProgram ∧ machine.Visits jumpingState ∧
      ∃ next, jumpingState.advance? machine.setup = some next ∧
        next.frames = [⟨jumpingMain, 4, 1⟩] := by
  intro machine
  have assembled : jumpingSource.assemble = .ok jumpingProgram := by decide +kernel
  have visited : machine.Visits jumpingState := by
    refine ⟨{ frames := [⟨jumpingMain, 0, 1⟩] }, 1, ?_, ?_⟩
    · cbv
    · cbv
  have due : jumpingState.settle machine.setup =
      .ready ⟨jumpingMain, 1, 1⟩ [] { opcode := .branch, index := 1 } jumpingState.world {} := by
    cbv
  have last : LastLabel jumpingMain.body.code.toList 1 ⟨4⟩ := by
    refine ⟨4, rfl, ⟨_, rfl, rfl, rfl⟩, fun later token behind found => ?_⟩
    obtain ⟨inRange, -⟩ := List.getElem?_eq_some_iff.mp found
    have length : jumpingMain.body.code.toList.length = 6 := rfl
    obtain rfl : later = 5 := by omega
    cases found
    decide
  obtain ⟨-, -, jumps, -⟩ :=
    run_jumps machine assembled visited due (.inr rfl) rfl
  exact ⟨assembled, visited, (jumps (.inr ⟨rfl, 5, [], rfl, by decide⟩) ⟨4⟩).mpr last⟩

end Machine

end StackMachine
