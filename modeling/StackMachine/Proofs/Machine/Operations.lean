import Mathlib
import StackMachine.Proofs.Machine.Delivery
import StackMachine.Proofs.Output.Operations

/-!
# What a run does to its output

A program learns nothing from its output but its faults.  A run does certain operations on the
output, and all else about it is the same whatever the output is, as long as no fault is reported
(`Machine.execution_performs`).  These operations write what the run prints, and they end with a
flush.
-/

namespace StackMachine

open Output (Operation)

/-- The world with another output. -/
def World.withOutput (w : World) (output : Output) : World := { w with output }

theorem World.memory_withOutput (w : World) (output : Output) :
    (w.withOutput output).memory = w.memory :=
  rfl

/-- An action that does some operations on the output.  It leads to a world and a result which are
the same for every output, unless an operation reports a fault: then this is the result. -/
def Performs {α : Type} (act : World → World × Except Cause α) (w : World)
    (operations : List Operation) (after : World) (result : Except Cause α) : Prop :=
  ∀ output,
    (∃ last, output.operate operations = (none, last) ∧
        act (w.withOutput output) = (after.withOutput last, result)) ∨
      ∃ fault world, output.operate operations = (some fault, world.output) ∧
        act (w.withOutput output) = (world, .error (.outputFault fault))

namespace Performs

variable {α β : Type} {act : World → World × Except Cause α} {w between after : World}
  {operations more : List Operation}

/-- An action that does not touch the output. -/
theorem of_eq {result : Except Cause α}
    (same : ∀ output, act (w.withOutput output) = (after.withOutput output, result)) :
    Performs act w [] after result :=
  fun output => .inl ⟨output, rfl, same output⟩

theorem andThen {next : α → World → World × Except Cause β} {value : α} {result : Except Cause β}
    (first : Performs act w operations between (.ok value))
    (second : Performs (next value) between more after result) :
    Performs (fun w => StackMachine.andThen (act w) next) w (operations ++ more) after result := by
  intro output
  dsimp only
  rcases first output with ⟨middle, sound, done⟩ | ⟨fault, world, failed, done⟩
  · rw [done, Output.operate_append_of_none sound]
    exact second middle
  · rw [done, Output.operate_append_of_some failed]
    exact .inr ⟨fault, world, rfl, rfl⟩

theorem andThen_error {next : α → World → World × Except Cause β} {cause : Cause}
    (first : Performs act w operations after (.error cause)) :
    Performs (fun w => StackMachine.andThen (act w) next) w operations after (.error cause) := by
  intro output
  dsimp only
  rcases first output with ⟨last, sound, done⟩ | ⟨fault, world, failed, done⟩
  · rw [done]
    exact .inl ⟨last, sound, rfl⟩
  · rw [done]
    exact .inr ⟨fault, world, failed, rfl⟩

end Performs

theorem World.emit_performs (text : String) (w : World) :
    Performs (·.emit text) w [.write text] w (.ok ()) := by
  intro output
  rcases wrote : output.write text with ⟨⟨count, _ | fault⟩, after⟩
  · left
    refine ⟨after, ?_, ?_⟩
    · rw [Output.operate, Output.apply, wrote]
      rfl
    · simp only [emit, withOutput, wrote]
  · right
    refine ⟨fault, w.withOutput after, ?_, ?_⟩
    · rw [Output.operate, Output.apply, wrote]
      rfl
    · simp only [emit, withOutput, wrote]

theorem World.flush_performs (w : World) : Performs World.flush w [.flush] w (.ok ()) := by
  intro output
  rcases flushed : output.flush with ⟨_ | fault, after⟩
  · left
    refine ⟨after, ?_, ?_⟩
    · rw [Output.operate, Output.apply, flushed]
      rfl
    · simp only [flush, withOutput, flushed]
  · right
    refine ⟨fault, w.withOutput after, ?_, ?_⟩
    · rw [Output.operate, Output.apply, flushed]
      rfl
    · simp only [flush, withOutput, flushed]

/-- A flush follows an action that has succeeded. -/
theorem Performs.flush {act : World → World × Except Cause Unit} {w after : World}
    {operations : List Operation} (first : Performs act w operations after (.ok ())) :
    Performs (fun w => StackMachine.andThen (act w) fun _ w => w.flush) w (operations ++ [.flush])
      after (.ok ()) :=
  first.andThen after.flush_performs

namespace Primitive

/-- Texts are written one after the other. -/
theorem performs_foldl (endings : List String) {act : World → World × Except Cause Unit}
    {w after : World} {operations : List Operation}
    (first : Performs act w operations after (.ok ())) :
    Performs (fun w => endings.foldl (fun result text => andThen result fun _ w => w.emit text)
      (act w)) w (operations ++ endings.map .write) after (.ok ()) := by
  induction endings generalizing act operations with
  | nil =>
      rw [List.map_nil, List.append_nil]
      exact first
  | cons ending endings ih =>
      have both : Performs (fun w => andThen (act w) fun _ w => w.emit ending) w
          (operations ++ [.write ending]) after (.ok ()) :=
        first.andThen (World.emit_performs ending after)
      have all := ih both
      rw [List.append_assoc] at all
      exact all

/-- What printing does to the output: it writes the value on top of the stack and the endings, or
fails before that. -/
theorem printing_performs (endings : List String) (w : World) :
    (∃ after cause, w.topText? = none ∧
        Performs (printing endings) w [] after (.error cause)) ∨
      ∃ after text, w.topText? = some text ∧
        Performs (printing endings) w ((text :: endings).map .write) after (.ok ()) := by
  unfold World.topText?
  cases stack : w.memory.stack with
  | nil =>
      left
      refine ⟨w, .stackUnderflow, rfl, .of_eq fun output => ?_⟩
      have same : (w.withOutput output).memory.stack = [] := stack
      rw [printing, same]
  | cons top rest =>
      have same (output : Output) : (w.withOutput output).memory.stack = top :: rest := stack
      cases followed : (w.withStack rest).memory.follow top with
      | error cause =>
          left
          have nothing : ((w.withStack rest).memory.follow top).toOption.map Atom.text = none := by
            rw [followed]
            rfl
          refine ⟨w.withStack rest, cause, nothing, .of_eq fun output => ?_⟩
          have follows : ((w.withOutput output).withStack rest).memory.follow top = .error cause :=
            followed
          rw [printing, same]
          dsimp only
          rw [follows]
          rfl
      | ok value =>
          right
          have isText : ((w.withStack rest).memory.follow top).toOption.map Atom.text =
              some value.text := by
            rw [followed]
            rfl
          refine ⟨w.withStack rest, value.text, isText, fun output => ?_⟩
          have follows : ((w.withOutput output).withStack rest).memory.follow top = .ok value :=
            followed
          rw [printing, same]
          dsimp only
          rw [follows]
          exact performs_foldl endings (World.emit_performs value.text (w.withStack rest)) output

theorem reading_performs (w : World) :
    ∃ after result, Performs reading w [.flush] after result := by
  have same (output : Output) : (w.withOutput output).input = w.input := rfl
  rcases read : w.input.readWord with ⟨word, input⟩
  cases word with
  | ended =>
      refine ⟨{ w with input }, .error .inputEnded, w.flush_performs.andThen (.of_eq ?_)⟩
      intro output
      rw [same, read]
      rfl
  | failed fault =>
      refine ⟨{ w with input }, .error (.inputFault fault), w.flush_performs.andThen (.of_eq ?_)⟩
      intro output
      rw [same, read]
      rfl
  | word text =>
      cases number : readInt32 text with
      | ok value =>
          refine ⟨{ w with input }.push (.int value), .ok (),
            w.flush_performs.andThen (.of_eq ?_)⟩
          intro output
          rw [same, read]
          dsimp only
          rw [number]
          rfl
      | error _ =>
          refine ⟨{ w with input }, .error (.notInteger text),
            w.flush_performs.andThen (.of_eq ?_)⟩
          intro output
          rw [same, read]
          dsimp only
          rw [number]
          rfl

theorem printed_writes (texts : List String) :
    Output.printed (texts.map .write) = String.join texts := by
  rw [Output.printed, List.map_map]
  exact congrArg String.join (List.map_id texts)

theorem run_performs_of_printing {primitive : Primitive} (endings : List String)
    (isPrinting : primitive.run = fun w => andThen (printing endings w) fun _ w => w.flush)
    {w : World}
    (prints : primitive.prints w = (w.topText?.map (· ++ String.join endings)).getD "") :
    ∃ operations after result, Output.Complete operations ∧
      Output.printed operations = primitive.prints w ∧
        Performs primitive.run w operations after result := by
  rw [isPrinting, prints]
  rcases printing_performs endings w with
    ⟨after, cause, nothing, performs⟩ | ⟨after, text, isText, performs⟩
  · refine ⟨[], after, .error cause, Output.complete_nil, ?_, performs.andThen_error⟩
    rw [nothing]
    rfl
  · refine ⟨_, after, .ok (), Output.complete_concat_flush _, ?_, performs.flush⟩
    rw [isText, Output.printed_append, printed_writes, String.join_cons]
    exact String.append_empty

/-- A primitive writes its text and flushes, unless it fails before that. -/
theorem run_performs (primitive : Primitive) (w : World) :
    ∃ operations after result, Output.Complete operations ∧
      Output.printed operations = primitive.prints w ∧
        Performs primitive.run w operations after result := by
  cases primitive with
  | print =>
      refine run_performs_of_printing [] rfl ?_
      unfold prints
      cases w.topText? <;> simp
  | println =>
      refine run_performs_of_printing ["\n"] rfl ?_
      unfold prints
      cases w.topText? <;> simp
  | readint =>
      have nothing : prints .readint w = "" := by
        unfold prints
        cases w.topText? <;> rfl
      rw [nothing]
      obtain ⟨after, cause | ⟨⟩, performs⟩ := reading_performs w
      · exact ⟨_, after, .error cause, Output.complete_concat_flush [], rfl,
          performs.andThen_error⟩
      · exact ⟨_, after, .ok (), Output.complete_concat_flush _, rfl, performs.flush⟩

end Primitive

namespace Setup

variable (setup : Setup) (body : Body) (depth : Nat) {token : Token}

/-- An instruction other than a call looks at the memory only and changes nothing else. -/
theorem execute_of_notCall (notCall : token.opcode ≠ .call) (w : World) :
    setup.execute body depth token w =
      ({ w with memory := (setup.execute body depth token { memory := w.memory }).1.memory },
        (setup.execute body depth token { memory := w.memory }).2) := by
  cases opcode : token.opcode with
  | pushi | pushf =>
      simp only [execute, opcode]
      rfl
  | label | invalid | rawMark | classMark | functionMark | defun | endef | reserved =>
      simp only [execute, opcode]
  | pop | dup =>
      simp only [execute, opcode]
      cases w.memory.stack <;> rfl
  | load =>
      simp only [execute, opcode]
      cases w.memory.load token.index <;> rfl
  | store =>
      simp only [execute, opcode]
      cases w.memory.stack with
      | nil => rfl
      | cons top rest => cases Memory.checkStore token.index setup.heapLimit "store" <;> rfl
  | stores =>
      simp only [execute, opcode]
      cases Memory.checkStore token.index setup.heapLimit "stores" <;> rfl
  | binary operator =>
      simp only [execute, opcode]
      rcases w.memory.stack with _ | ⟨left, _ | ⟨right, rest⟩⟩
      · rfl
      · rfl
      · dsimp only
        cases operator.apply left right <;> rfl
  | goto =>
      simp only [execute, opcode]
      cases body.target? token.index <;> rfl
  | branch =>
      simp only [execute, opcode]
      cases body.target? token.index with
      | none => rfl
      | some position =>
          rcases w.memory.stack with _ | ⟨condition, rest⟩
          · rfl
          · cases condition <;> rfl
  | call => exact absurd opcode notCall

/-- Only a call touches the output. -/
theorem execute_withOutput (notCall : token.opcode ≠ .call) (w : World) (output : Output) :
    setup.execute body depth token (w.withOutput output) =
      ((setup.execute body depth token w).1.withOutput output,
        (setup.execute body depth token w).2) := by
  rw [setup.execute_of_notCall body depth notCall w,
    setup.execute_of_notCall body depth notCall (w.withOutput output)]
  rfl

/-- An instruction writes what it prints and flushes, unless it fails before that.  Entering a
function leaves the output alone. -/
theorem execute_performs (token : Token) (w : World) :
    ∃ operations after result, Output.Complete operations ∧
      Output.printed operations = token.prints w ∧
        (∀ callee, result = .ok (.enter callee) → operations = []) ∧
          Performs (setup.execute body depth token) w operations after result := by
  by_cases isCall : token.opcode = .call
  · have same : setup.execute body depth token = setup.call depth token.name := by
      funext w
      rw [execute, isCall]
    rw [same, Token.prints, if_pos isCall]
    cases named : Primitive.ofName? token.name with
    | some primitive =>
        have runs : setup.call depth token.name =
            fun w => andThen (primitive.run w) fun _ w => (w, .ok .next) := by
          funext w
          rw [call, named]
        rw [runs]
        obtain ⟨operations, after, cause | ⟨⟩, complete, prints, performs⟩ :=
          primitive.run_performs w
        · refine ⟨operations, after, .error cause, complete, prints, ?_, performs.andThen_error⟩
          rintro callee ⟨⟩
        · have ends : Performs (fun w => (w, .ok Control.next)) after [] after (.ok .next) :=
            .of_eq fun _ => rfl
          have all : Performs (fun w => andThen (primitive.run w) fun _ w => (w, .ok Control.next))
              w (operations ++ []) after (.ok .next) := performs.andThen ends
          rw [List.append_nil] at all
          refine ⟨operations, after, .ok .next, complete, prints, ?_, all⟩
          rintro callee ⟨⟩
    | none =>
        refine ⟨[], w, (setup.call depth token.name w).2, Output.complete_nil, rfl,
          fun _ _ => rfl, .of_eq fun output => ?_⟩
        simp only [call, named]
        cases setup.program.lookup? token.name with
        | none => rfl
        | some callee =>
            dsimp only
            split <;> rfl
  · rw [Token.prints, if_neg isCall]
    exact ⟨[], _, _, Output.complete_nil, rfl, fun _ _ => rfl,
      .of_eq fun output => execute_withOutput setup body depth isCall w output⟩

end Setup

/-! ## Runs -/

/-- A fault of the output has halted a run. -/
def Halt.Blames (fault : WriteFault) (halt : Halt) : Prop :=
  ∃ error, halt = .failed error ∧ error.cause = .outputFault fault

namespace RunState

/-- A run in progress with another output. -/
def withOutput (s : RunState) (output : Output) : RunState :=
  { s with world := s.world.withOutput output }

/-- What is due after finished activations have been ended, with another output. -/
def Settled.withOutput (output : Output) : Settled → Settled
  | .halted state halt => .halted (state.withOutput output) halt
  | .ready frame rest token world trace =>
      .ready frame rest token (world.withOutput output) trace

/-- The end of a run with another output. -/
def Ending.withOutput (ending : Ending) (output : Output) : Ending :=
  { ending with state := ending.state.withOutput output }

variable (setup : RunSetup)

theorem settleFrom_withOutput (world : World) (output : Output) (frames : List Frame)
    (trace : Trace) :
    settleFrom setup (world.withOutput output) frames trace =
      (settleFrom setup world frames trace).withOutput output := by
  induction frames generalizing trace with
  | nil => rfl
  | cons frame rest ih =>
      rw [settleFrom, settleFrom]
      cases frame.fetch with
      | instruction token => rfl
      | crash crash => rfl
      | bodyEnd =>
          simp only [ih, World.memory_withOutput]
          split <;> rfl

theorem enter_withOutput (callee : Function) (depth : Nat) (s : RunState) (output : Output) :
    (s.withOutput output).enter setup callee depth =
      ((s.enter setup callee depth).1.withOutput output, (s.enter setup callee depth).2) :=
  rfl

/-- An instruction does certain operations on the output, and all else is the same whatever the
output is, unless a fault is reported. -/
theorem step_performs (frame : Frame) (rest : List Frame) (token : Token) (world : World)
    (trace : Trace) :
    ∃ (operations : List Operation) (next : RunState) (halt : Option Halt),
      Output.Complete operations ∧
      (Output.printed operations =
        match halt with
        | some (.crashed _) => ""
        | _ => token.prints world) ∧
      ∀ output,
        (∃ last, output.operate operations = (none, last) ∧
            step setup frame rest token (world.withOutput output) trace =
              (next.withOutput last, halt)) ∨
          ∃ fault state halt, output.operate operations = (some fault, state.world.output) ∧
            step setup frame rest token (world.withOutput output) trace = (state, some halt) ∧
              halt.Blames fault := by
  rcases logged : trace.log setup.tracer "exec" (frame.executeMessage token world) with
    ⟨kept, _ | _⟩
  · -- the line about an instruction does not depend on the output
    have logs (output : Output) : trace.log setup.tracer "exec"
        (frame.executeMessage token (world.withOutput output)) = (kept, false) := logged
    obtain ⟨operations, after, result, complete, prints, silent, performs⟩ :=
      setup.execute_performs frame.function.body frame.depth token world
    cases result with
    | error cause =>
        refine ⟨operations, (fail setup frame token cause ⟨frame :: rest, after, kept⟩).1,
          some (fail setup frame token cause ⟨frame :: rest, after, kept⟩).2, complete, prints,
          fun output => ?_⟩
        rcases performs output with ⟨last, sound, executed⟩ | ⟨fault, broken, failed, executed⟩
        · exact .inl ⟨last, sound, step_of_error (logs output) executed rest⟩
        · exact .inr ⟨fault, _, _, failed, step_of_error (logs output) executed rest, _, rfl, rfl⟩
    | ok control =>
        by_cases entered : ∃ callee, control = .enter callee
        · obtain ⟨callee, rfl⟩ := entered
          cases silent callee rfl
          rw [← prints]
          have enters (output : Output) := enter_withOutput setup callee (frame.depth + 1)
            ⟨{ frame with position := frame.position + 1 } :: rest, after, kept⟩ output
          rcases entersAs : enter setup callee (frame.depth + 1)
            ⟨{ frame with position := frame.position + 1 } :: rest, after, kept⟩ with ⟨next, halt⟩
          simp only [entersAs] at enters
          refine ⟨[], next, halt, complete, ?_, fun output => ?_⟩
          · split <;> rfl
          · rcases performs output with ⟨last, sound, executed⟩ | ⟨fault, broken, failed, -⟩
            · refine .inl ⟨last, sound, ?_⟩
              rw [step_of_enter (logs output) executed rest]
              exact enters last
            · cases failed
        · refine ⟨operations, ⟨control.frames frame rest, after, kept⟩, none, complete, prints,
            fun output => ?_⟩
          rcases performs output with ⟨last, sound, executed⟩ | ⟨fault, broken, failed, executed⟩
          · exact .inl ⟨last, sound,
              step_of_stay (logs output) executed (not_exists.mp entered) rest⟩
          · exact .inr ⟨fault, _, _, failed, step_of_error (logs output) executed rest, _, rfl, rfl⟩
  · refine ⟨[], ⟨frame :: rest, world, kept⟩, some (.crashed .traceRefused), Output.complete_nil,
      rfl, fun output => .inl ⟨output, rfl, ?_⟩⟩
    have refused : (trace.log setup.tracer "exec"
        (frame.executeMessage token (world.withOutput output))).2 = true :=
      congrArg Prod.snd logged
    rw [step_of_refused refused]
    exact congrArg (fun logged : Trace × Bool => (RunState.mk (frame :: rest)
      (world.withOutput output) logged.1, some (Halt.crashed .traceRefused))) logged

/-- A run does certain operations on the output, which write what it prints, and all else is the
same whatever the output is, unless a fault is reported. -/
theorem run_performs (fuel : Nat) (s : RunState) :
    ∃ (operations : List Operation) (ending : Ending), Output.Complete operations ∧
      ∀ output,
        (∃ last, output.operate operations = (none, last) ∧
            (s.withOutput output).run setup fuel = ending.withOutput last ∧
            (s.withOutput output).attempted setup fuel = Output.printed operations) ∨
          ∃ fault, output.operate operations =
              (some fault, ((s.withOutput output).run setup fuel).state.world.output) ∧
            ((s.withOutput output).run setup fuel).halt.Blames fault := by
  have settles (s : RunState) (output : Output) :
      (s.withOutput output).settle setup = (s.settle setup).withOutput output :=
    settleFrom_withOutput setup s.world output s.frames s.trace
  induction fuel generalizing s with
  | zero =>
      cases settled : s.settle setup with
      | halted state halt =>
          refine ⟨[], ⟨state, halt, 0⟩, Output.complete_nil,
            fun output => .inl ⟨output, rfl, ?_, rfl⟩⟩
          rw [run, settles, settled]
          rfl
      | ready frame rest token world trace =>
          refine ⟨[], ⟨(fail setup frame token (.interrupted setup.interruption)
              ⟨frame :: rest, world, trace⟩).1, (fail setup frame token
              (.interrupted setup.interruption) ⟨frame :: rest, world, trace⟩).2, 0⟩,
            Output.complete_nil, fun output => .inl ⟨output, rfl, ?_, rfl⟩⟩
          rw [run, settles, settled]
          rfl
  | succ fuel ih =>
      cases settled : s.settle setup with
      | halted state halt =>
          refine ⟨[], ⟨state, halt, fuel + 1⟩, Output.complete_nil,
            fun output => .inl ⟨output, rfl, ?_, ?_⟩⟩
          · rw [run, settles, settled]
            rfl
          · rw [RunState.attempted, settles, settled]
            rfl
      | ready frame rest token world trace =>
          obtain ⟨operations, next, halt, complete, prints, steps⟩ :=
            step_performs setup frame rest token world trace
          cases halt with
          | some halt =>
              refine ⟨operations, ⟨next, halt, fuel⟩, complete, fun output => ?_⟩
              rw [run, RunState.attempted, settles, settled]
              dsimp only [Settled.withOutput]
              rcases steps output with
                ⟨last, sound, stepped⟩ | ⟨fault, state, _, failed, stops, blames⟩
              · rw [stepped]
                refine .inl ⟨last, sound, rfl, ?_⟩
                rw [prints]
                cases halt <;> rfl
              · rw [stops]
                exact .inr ⟨fault, failed, blames⟩
          | none =>
              obtain ⟨more, ending, completeToo, goesOn⟩ := ih next
              refine ⟨operations ++ more, ending, complete.append completeToo, fun output => ?_⟩
              rw [run, RunState.attempted, settles, settled]
              dsimp only [Settled.withOutput]
              rcases steps output with
                ⟨middle, sound, stepped⟩ | ⟨fault, state, _, failed, stops, blames⟩
              · rw [stepped, Output.operate_append_of_none sound]
                rcases goesOn middle with ⟨last, soundToo, ended, printed⟩ | stopped
                · refine .inl ⟨last, soundToo, ended, ?_⟩
                  rw [Output.printed_append, prints, ← printed]
                  rfl
                · exact .inr stopped
              · rw [stops, Output.operate_append_of_some failed]
                exact .inr ⟨fault, rfl, blames⟩

end RunState

namespace Machine

/-- A machine with another output. -/
def withOutput (machine : Machine) (output : Output) : Machine := { machine with output }

theorem start_withOutput (setup : RunSetup) (s : RunState) (output : Output) :
    start setup (s.withOutput output) =
      ((start setup s).1.withOutput output, (start setup s).2) := by
  unfold start
  cases setup.program.lookup? "main" <;> rfl

/-- A run of a machine does certain operations on the output, which write what it prints, and all
else is the same whatever the output is, unless a fault is reported. -/
theorem execution_performs (machine : Machine) (fuel : Nat) :
    ∃ (operations : List Operation) (ending : RunState.Ending), Output.Complete operations ∧
      ∀ output,
        (∃ last, output.operate operations = (none, last) ∧
            (machine.withOutput output).execution fuel = ending.withOutput last ∧
            (machine.withOutput output).attempted fuel = Output.printed operations) ∨
          ∃ fault, output.operate operations =
              (some fault, ((machine.withOutput output).execution fuel).state.world.output) ∧
            ((machine.withOutput output).execution fuel).halt.Blames fault := by
  have starts (output : Output) : start (machine.withOutput output).setup
      (machine.withOutput output).initial = _ :=
    start_withOutput machine.setup machine.initial output
  simp only [execution_eq, attempted, starts]
  rcases start machine.setup machine.initial with ⟨first, _ | halt⟩
  · exact first.run_performs machine.setup fuel
  · exact ⟨[], ⟨first, halt, fuel⟩, Output.complete_nil,
      fun output => .inl ⟨output, rfl, rfl, rfl⟩⟩

end Machine

end StackMachine
