import Mathlib
import StackMachine.Proofs.Machine.Reachable

/-!
# What a step can do

Inversion of the parts of an instruction: ending finished activations, executing a token, and
going where control leads.  Proofs about runs use these statements and do not open the
definitions again.
-/

namespace StackMachine

/-- The log of a run takes every line, or there is no log. -/
def RunSetup.LogAccepts (setup : RunSetup) : Prop :=
  ∀ tracer, setup.tracer = some tracer → ∀ count line, tracer.refuses count line = false

theorem Trace.log_accepted {tracer : Option Tracer}
    (accepts : ∀ t, tracer = some t → ∀ count line, t.refuses count line = false)
    (mark : String) (message : Unit → String) (trace : Trace) :
    (trace.log tracer mark message).2 = false := by
  cases tracer with
  | none => rfl
  | some tracer => simp [Trace.log, accepts tracer rfl]

/-- An instruction is due exactly where the code has one. -/
theorem Frame.fetch_eq_instruction_iff (frame : Frame) (token : Token) :
    frame.fetch = .instruction token ↔
      0 ≤ frame.position ∧ frame.function.body.code[frame.position.toNat]? = some token := by
  unfold Frame.fetch
  by_cases negative : frame.position < 0
  · simp [negative]
  · rw [if_neg negative]
    have nonneg : 0 ≤ frame.position := Int.not_lt.mp negative
    cases found : frame.function.body.code[frame.position.toNat]? with
    | none => simp
    | some token => simp [nonneg]

/-- Only a negative position is a crash. -/
theorem Frame.fetch_ne_crash {frame : Frame} (nonneg : 0 ≤ frame.position) (crash : Crash) :
    frame.fetch ≠ .crash crash := by
  unfold Frame.fetch
  rw [if_neg (Int.not_lt.mpr nonneg)]
  cases frame.function.body.code[frame.position.toNat]? with
  | none => simp
  | some token => simp

/-- The activations after an instruction that leads control somewhere. -/
def Control.frames (control : Control) (frame : Frame) (rest : List Frame) : List Frame :=
  match control with
  | .next => { frame with position := frame.position + 1 } :: rest
  | .jump position => { frame with position := position.toInt } :: rest
  | .enter callee =>
      ⟨callee, 0, frame.depth + 1⟩ :: { frame with position := frame.position + 1 } :: rest

namespace Setup

/-- A call goes on in the same body after a primitive, or enters the first function of the
name. -/
theorem call_control {setup : Setup} {depth : Nat} {name : String} {world after : World}
    {control : Control} (called : setup.call depth name world = (after, .ok control)) :
    control = .next ∨
      ∃ callee, control = .enter callee ∧ setup.program.lookup? name = some callee := by
  unfold call at called
  split at called
  · next primitive found =>
      rcases ran : primitive.run world with ⟨done, cause | ⟨⟩⟩
      · rw [ran] at called
        cases called
      · rw [ran] at called
        cases called
        exact .inl rfl
  · split at called
    · cases called
    · next callee found =>
        split at called
        · cases called
        · cases called
          exact .inr ⟨callee, rfl, found⟩

/-- Control leaves the straight line only to a label of the body or to a function of the
program. -/
theorem execute_control {setup : Setup} {body : Body} {depth : Nat} {token : Token}
    {world after : World} {control : Control}
    (executed : setup.execute body depth token world = (after, .ok control)) :
    control = .next ∨ (∃ position, control = .jump position ∧
        body.target? token.index = some position) ∨
      ∃ callee, control = .enter callee ∧ setup.program.lookup? token.name = some callee := by
  cases opcode : token.opcode with
  | pushi | pushf | label =>
      simp only [execute, opcode] at executed
      cases executed
      exact .inl rfl
  | pop | dup | load =>
      simp only [execute, opcode] at executed
      split at executed
      · cases executed
      · cases executed
        exact .inl rfl
  | store =>
      simp only [execute, opcode] at executed
      split at executed
      · cases executed
      · split at executed
        · cases executed
        · cases executed
          exact .inl rfl
  | stores =>
      simp only [execute, opcode] at executed
      split at executed
      · cases executed
      · cases executed
        exact .inl rfl
  | binary operator =>
      simp only [execute, opcode] at executed
      split at executed
      · split at executed
        · cases executed
        · cases executed
          exact .inl rfl
      · cases executed
  | goto =>
      simp only [execute, opcode] at executed
      split at executed
      · cases executed
      · next position target =>
          cases executed
          exact .inr (.inl ⟨position, rfl, target⟩)
  | branch =>
      simp only [execute, opcode] at executed
      split at executed
      · cases executed
      · next position target =>
          split at executed
          · cases executed
          · next condition rest stack =>
              cases executed
              by_cases zero : condition = 0
              · exact .inl (if_pos zero)
              · exact .inr (.inl ⟨position, if_neg zero, target⟩)
          · cases executed
  | call =>
      simp only [execute, opcode] at executed
      exact (call_control executed).imp_right .inr
  | invalid | rawMark | classMark | functionMark | defun | endef | reserved =>
      simp only [execute, opcode] at executed
      cases executed

/-- A call enters a function before it has done anything else. -/
theorem execute_enter {setup : Setup} {body : Body} {depth : Nat} {token : Token}
    {world after : World} {callee : Function}
    (executed : setup.execute body depth token world = (after, .ok (.enter callee))) :
    after = world := by
  unfold execute at executed
  split at executed
  case h_12 =>
    unfold call at executed
    split at executed
    · next primitive named =>
        rcases ran : primitive.run world with ⟨done, cause | ⟨⟩⟩
        · rw [ran] at executed
          cases executed
        · rw [ran] at executed
          cases executed
    · repeat' split at executed
      all_goals
        cases executed
      rfl
  all_goals
    repeat' split at executed
    all_goals cases executed

end Setup

namespace RunState

/-- A run that is ready for an instruction has ended some of its activations; the instruction is
that of the innermost one left. -/
theorem settleFrom_eq_ready {setup : RunSetup} {world after : World} {frames rest : List Frame}
    {frame : Frame} {token : Token} {trace logged : Trace}
    (settled : settleFrom setup world frames trace = .ready frame rest token after logged) :
    frame :: rest <:+ frames ∧ after = world ∧ frame.fetch = .instruction token := by
  induction frames generalizing trace with
  | nil => cases settled
  | cons first below ih =>
      unfold settleFrom at settled
      cases fetched : first.fetch with
      | instruction found =>
          rw [fetched] at settled
          cases settled
          exact ⟨List.suffix_rfl, rfl, fetched⟩
      | crash crash =>
          rw [fetched] at settled
          cases settled
      | bodyEnd =>
          rw [fetched] at settled
          dsimp only at settled
          split at settled
          · cases settled
          · obtain ⟨suffix, same, due⟩ := ih settled
            exact ⟨suffix.trans (List.suffix_cons first below), same, due⟩

/-- A run that stops between two instructions has finished or crashed. -/
theorem settleFrom_halts {setup : RunSetup} {world : World} {frames : List Frame} {trace : Trace}
    {state : RunState} {halt : Halt}
    (settled : settleFrom setup world frames trace = .halted state halt) :
    state.world = world ∧ ∀ error, halt ≠ .failed error := by
  induction frames generalizing trace with
  | nil =>
      cases settled
      refine ⟨rfl, ?_⟩
      rintro error ⟨⟩
  | cons first below ih =>
      unfold settleFrom at settled
      cases fetched : first.fetch with
      | instruction found =>
          rw [fetched] at settled
          cases settled
      | crash crash =>
          rw [fetched] at settled
          cases settled
          refine ⟨rfl, ?_⟩
          rintro error ⟨⟩
      | bodyEnd =>
          rw [fetched] at settled
          dsimp only at settled
          split at settled
          · cases settled
            refine ⟨rfl, ?_⟩
            rintro error ⟨⟩
          · exact ih settled

@[simp]
theorem enter_frames (setup : RunSetup) (callee : Function) (depth : Nat) (s : RunState) :
    (s.enter setup callee depth).1.frames = ⟨callee, 0, depth⟩ :: s.frames :=
  rfl

@[simp]
theorem enter_world (setup : RunSetup) (callee : Function) (depth : Nat) (s : RunState) :
    (s.enter setup callee depth).1.world = s.world :=
  rfl

theorem enter_accepted {setup : RunSetup} (accepts : setup.LogAccepts) (callee : Function)
    (depth : Nat) (s : RunState) : (s.enter setup callee depth).2 = none := by
  unfold enter
  dsimp only
  rw [Trace.log_accepted accepts]
  rfl

/-- Only the log keeps a function from being entered. -/
theorem enter_eq_some {setup : RunSetup} {callee : Function} {depth : Nat} {s state : RunState}
    {halt : Halt} (entered : s.enter setup callee depth = (state, some halt)) :
    state.world = s.world ∧ halt = .crashed .traceRefused := by
  have world := congrArg (fun result => result.1.world) entered
  have halts := congrArg Prod.snd entered
  unfold enter at halts
  dsimp only at halts
  split at halts
  · cases halts
    exact ⟨world.symm, rfl⟩
  · cases halts

/-- An instruction after which the run goes on has succeeded, and control has gone where it
leads. -/
theorem step_eq_none {setup : RunSetup} {frame : Frame} {rest : List Frame} {token : Token}
    {world : World} {trace : Trace} {next : RunState}
    (stepped : step setup frame rest token world trace = (next, none)) :
    ∃ after control,
      setup.execute frame.function.body frame.depth token world = (after, .ok control) ∧
        next.frames = control.frames frame rest ∧ next.world = after := by
  unfold step at stepped
  dsimp only at stepped
  split at stepped
  · cases stepped
  · split at stepped
    · cases stepped
    · next after executed =>
        cases stepped
        exact ⟨after, .next, executed, rfl, rfl⟩
    · next after position executed =>
        cases stepped
        exact ⟨after, .jump position, executed, rfl, rfl⟩
    · next after callee executed =>
        have same := congrArg Prod.fst stepped
        dsimp only at same
        subst same
        exact ⟨after, .enter callee, executed, enter_frames .., enter_world ..⟩

/-- An instruction at which the run halts has failed, or the log has refused a line and the world is
as it was. -/
theorem step_halts {setup : RunSetup} {frame : Frame} {rest : List Frame} {token : Token}
    {world : World} {trace : Trace} {state : RunState} {halt : Halt}
    (stepped : step setup frame rest token world trace = (state, some halt)) :
    (state.world = world ∧ halt = .crashed .traceRefused) ∨
      ∃ cause, setup.execute frame.function.body frame.depth token world =
          (state.world, .error cause) ∧
        halt = .failed ⟨frame.function.name, frame.position.toNat, token, cause⟩ := by
  unfold step at stepped
  dsimp only at stepped
  split at stepped
  · cases stepped
    exact .inl ⟨rfl, rfl⟩
  · split at stepped
    · next after cause executed =>
        cases stepped
        exact .inr ⟨cause, executed, rfl⟩
    · cases stepped
    · cases stepped
    · next after callee executed =>
        obtain ⟨same, crashed⟩ := enter_eq_some stepped
        exact .inl ⟨same.trans (Setup.execute_enter executed), crashed⟩

/-- An instruction at which the run halts has failed, if the log takes every line; the error tells
where it stands. -/
theorem step_eq_some {setup : RunSetup} (accepts : setup.LogAccepts) {frame : Frame}
    {rest : List Frame} {token : Token} {world : World} {trace : Trace} {state : RunState}
    {halt : Halt} (stepped : step setup frame rest token world trace = (state, some halt)) :
    ∃ cause, setup.execute frame.function.body frame.depth token world =
        (state.world, .error cause) ∧
      halt = .failed ⟨frame.function.name, frame.position.toNat, token, cause⟩ := by
  unfold step at stepped
  dsimp only at stepped
  rw [Trace.log_accepted accepts, if_neg Bool.false_ne_true] at stepped
  split at stepped
  · next after cause executed =>
      cases stepped
      exact ⟨cause, executed, rfl⟩
  · cases stepped
  · cases stepped
  · next after callee executed =>
      have halted := congrArg Prod.snd stepped
      rw [enter_accepted accepts] at halted
      cases halted

end RunState

/-! ## The equations of a step -/

/-- The line for the end of an activation. -/
def Frame.returnMessage (frame : Frame) (world : World) : Unit → String := fun _ =>
  s!"ret {frame.function.name} -- s:{stackText world.memory.stack}"

/-- The line for an instruction. -/
def Frame.executeMessage (frame : Frame) (token : Token) (world : World) : Unit → String := fun _ =>
  s!"{frame.function.name}@{frame.position} {token.text} -- s:{stackText world.memory.stack}"

/-- The line for the beginning of an activation. -/
def Function.enterMessage (callee : Function) (depth : Nat) : Unit → String := fun _ =>
  s!"call {callee.name} depth:{depth}"

namespace RunState

theorem settleFrom_of_bodyEnd {frame : Frame} (fetched : frame.fetch = .bodyEnd) (setup : RunSetup)
    (world : World) (rest : List Frame) (trace : Trace) :
    settleFrom setup world (frame :: rest) trace =
      let logged := trace.log setup.tracer "<" (frame.returnMessage world)
      if logged.2 then .halted ⟨frame :: rest, world, logged.1⟩ (.crashed .traceRefused)
      else settleFrom setup world rest logged.1 := by
  conv_lhs => unfold settleFrom
  rw [fetched]
  rfl

theorem enter_eq (setup : RunSetup) (callee : Function) (depth : Nat) (s : RunState) :
    s.enter setup callee depth =
      let logged := s.trace.log setup.tracer ">" (callee.enterMessage depth)
      (⟨⟨callee, 0, depth⟩ :: s.frames, s.world, logged.1⟩,
        if logged.2 then some (.crashed .traceRefused) else none) :=
  rfl

section Step

variable {setup : RunSetup} {frame : Frame} {token : Token} {world : World} {trace : Trace}

theorem step_of_refused
    (refused : (trace.log setup.tracer "exec" (frame.executeMessage token world)).2 = true)
    (rest : List Frame) :
    step setup frame rest token world trace =
      (⟨frame :: rest, world,
        (trace.log setup.tracer "exec" (frame.executeMessage token world)).1⟩,
        some (.crashed .traceRefused)) := by
  unfold Frame.executeMessage at refused ⊢
  unfold step
  simp only [refused, if_true]

variable {logged : Trace}
  (taken : trace.log setup.tracer "exec" (frame.executeMessage token world) = (logged, false))
include taken

theorem step_of_error {after : World} {cause : Cause}
    (executed : setup.execute frame.function.body frame.depth token world = (after, .error cause))
    (rest : List Frame) :
    step setup frame rest token world trace =
      ((fail setup frame token cause ⟨frame :: rest, after, logged⟩).1,
        some (fail setup frame token cause ⟨frame :: rest, after, logged⟩).2) := by
  unfold Frame.executeMessage at taken
  unfold step
  simp only [taken, Bool.false_eq_true, if_false, executed]

theorem step_of_enter {after : World} {callee : Function}
    (executed : setup.execute frame.function.body frame.depth token world =
      (after, .ok (.enter callee)))
    (rest : List Frame) :
    step setup frame rest token world trace =
      enter setup callee (frame.depth + 1)
        ⟨{ frame with position := frame.position + 1 } :: rest, after, logged⟩ := by
  unfold Frame.executeMessage at taken
  unfold step
  simp only [taken, Bool.false_eq_true, if_false, executed]

theorem step_of_stay {after : World} {control : Control}
    (executed : setup.execute frame.function.body frame.depth token world = (after, .ok control))
    (stays : ∀ callee, control ≠ .enter callee) (rest : List Frame) :
    step setup frame rest token world trace =
      (⟨control.frames frame rest, after, logged⟩, none) := by
  unfold Frame.executeMessage at taken
  unfold step Control.frames
  cases control with
  | next => simp only [taken, Bool.false_eq_true, if_false, executed]
  | jump position => simp only [taken, Bool.false_eq_true, if_false, executed]
  | enter callee => exact absurd rfl (stays callee)

end Step

end RunState

end StackMachine
