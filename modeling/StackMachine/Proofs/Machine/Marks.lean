import Mathlib
import StackMachine.Proofs.Machine.Tracing

/-!
# The width of marks

A trace pads its marks to the widest one used so far, in earlier runs as well, so that the first
lines of a later run are not those of a first run.  From the first instruction on, whose mark is
the widest of all, the lines of both are the same.  What is left over from earlier runs therefore
decides about nothing but the looks of the trace: a run which the log does not break off ends as it
would with no line logged before (`Machine.execution_unmarked`).
-/

namespace StackMachine

/-! ## Traces -/

namespace Trace

/-- Two traces with as many lines, and with no mark wider than that of an instruction. -/
structure Close (first second : Trace) : Prop where
  count : second.count = first.count
  narrow : first.width ≤ 4
  narrowToo : second.width ≤ 4

/-- Two traces after which a log gets the same lines. -/
structure Level (first second : Trace) : Prop extends Close first second where
  width : second.width = first.width

variable {first second trace : Trace} (tracer : Tracer) (message : Unit → String)

theorem width_log (mark : String) :
    (trace.log (some tracer) mark message).1.width = max trace.width mark.length := by
  unfold log
  dsimp only
  split <;> rfl

theorem count_log {mark : String} (taken : (trace.log (some tracer) mark message).2 = false) :
    (trace.log (some tracer) mark message).1.count = trace.count + 1 := by
  unfold log at taken ⊢
  dsimp only at taken ⊢
  split at taken
  · cases taken
  · next accepted => rw [if_neg accepted]

/-- A log does the same with a line that comes as late and is padded alike. -/
theorem log_level {mark : String} (count : second.count = first.count)
    (padding : padded mark.toList second.width = padded mark.toList first.width)
    (width : max second.width mark.length = max first.width mark.length)
    (narrow : max first.width mark.length ≤ 4) :
    (second.log (some tracer) mark message).2 = (first.log (some tracer) mark message).2 ∧
      (first.log (some tracer) mark message).1.Level
        (second.log (some tracer) mark message).1 := by
  unfold log
  rw [count, padding, width]
  dsimp only
  split
  · exact ⟨rfl, ⟨rfl, narrow, narrow⟩, rfl⟩
  · exact ⟨rfl, ⟨rfl, narrow, narrow⟩, rfl⟩

theorem Level.log (level : first.Level second) {mark : String} (short : mark.length ≤ 4) :
    (second.log (some tracer) mark message).2 = (first.log (some tracer) mark message).2 ∧
      (first.log (some tracer) mark message).1.Level
        (second.log (some tracer) mark message).1 := by
  apply log_level tracer message level.count
  · rw [level.width]
  · rw [level.width]
  · exact Nat.max_le.mpr ⟨level.narrow, short⟩

/-- After the line about an instruction, which is the same whatever marks were used before, the
marks have the same width. -/
theorem Close.log (close : first.Close second) :
    (second.log (some tracer) "exec" message).2 = (first.log (some tracer) "exec" message).2 ∧
      (first.log (some tracer) "exec" message).1.Level
        (second.log (some tracer) "exec" message).1 := by
  have unpadded {width : Nat} (narrow : width ≤ 4) :
      padded "exec".toList width = "exec".toList := by
    have nothing : width - "exec".toList.length = 0 := Nat.sub_eq_zero_of_le narrow
    rw [padded, nothing]
    rfl
  have widest {width : Nat} (narrow : width ≤ 4) : max width "exec".length = 4 :=
    Nat.max_eq_right narrow
  apply log_level tracer message close.count
  · rw [unpadded close.narrow, unpadded close.narrowToo]
  · rw [widest close.narrow, widest close.narrowToo]
  · rw [widest close.narrow]

/-- A mark of one character, if there was no wider one before. -/
theorem log_single {mark : String} (single : mark.length = 1) {width : Nat} (narrow : width ≤ 1) :
    ({ width } : Trace).log (some tracer) mark message =
      ({} : Trace).log (some tracer) mark message := by
  have padding : padded mark.toList width = padded mark.toList 0 := by
    have nothing : width - mark.toList.length = 0 - mark.toList.length := by
      rw [String.length_toList, single]
      omega
    rw [padded, padded, nothing]
  have widest : max width mark.length = max 0 mark.length := by
    rw [single]
    omega
  unfold log
  rw [padding, widest]

end Trace

/-! ## Runs -/

namespace RunState

/-- Two runs that have got equally far, with traces that are close. -/
inductive Settled.Close : Settled → Settled → Prop where
  | halted {first second : Trace} (frames : List Frame) (world : World) (halt : Halt)
      (close : first.Close second) :
      Close (.halted ⟨frames, world, first⟩ halt) (.halted ⟨frames, world, second⟩ halt)
  | ready {first second : Trace} (frame : Frame) (rest : List Frame) (token : Token)
      (world : World) (close : first.Close second) :
      Close (.ready frame rest token world first) (.ready frame rest token world second)

/-- Two runs that have ended alike, the first with narrow marks. -/
structure Ending.Close (first second : Ending) : Prop where
  untraced : second.untraced = first.untraced
  narrow : first.state.trace.width ≤ 4

section Logged

variable {setup : RunSetup} {tracer : Tracer} (logs : setup.tracer = some tracer)
include logs

theorem settleFrom_close (world : World) (frames : List Frame) {first second : Trace}
    (level : first.Level second) :
    (settleFrom setup world frames first).Close (settleFrom setup world frames second) := by
  induction frames generalizing first second with
  | nil => exact .halted [] world .finished level.toClose
  | cons frame rest ih =>
      cases fetched : frame.fetch with
      | instruction token =>
          rw [settleFrom, settleFrom, fetched]
          exact .ready frame rest token world level.toClose
      | crash crash =>
          rw [settleFrom, settleFrom, fetched]
          exact .halted (frame :: rest) world (.crashed crash) level.toClose
      | bodyEnd =>
          rw [settleFrom_of_bodyEnd fetched, settleFrom_of_bodyEnd fetched, logs]
          obtain ⟨same, still⟩ := level.log tracer (frame.returnMessage world)
            (show "<".length ≤ 4 by decide)
          dsimp only
          rw [same]
          split
          · exact .halted (frame :: rest) world (.crashed .traceRefused) still.toClose
          · exact ih still

theorem fail_narrow (frame : Frame) (token : Token) (cause : Cause) {s : RunState}
    (narrow : s.trace.width ≤ 4) : (s.fail setup frame token cause).1.trace.width ≤ 4 := by
  unfold fail
  rw [logs]
  dsimp only
  rw [Trace.width_log]
  exact Nat.max_le.mpr ⟨narrow, by decide⟩

/-- An instruction does the same, and so does the log with the lines about it. -/
theorem step_close (frame : Frame) (rest : List Frame) (token : Token) (world : World)
    {first second : Trace} (close : first.Close second) :
    let one := step setup frame rest token world first
    let other := step setup frame rest token world second
    other.2 = one.2 ∧ other.1.untraced = one.1.untraced ∧
      (one.2 = none → one.1.trace.Level other.1.trace) ∧ one.1.trace.width ≤ 4 := by
  obtain ⟨same, level⟩ := close.log tracer (frame.executeMessage token world)
  rw [← logs] at same level
  dsimp only
  cases refused : (first.log setup.tracer "exec" (frame.executeMessage token world)).2 with
  | true =>
      rw [step_of_refused refused, step_of_refused (same.trans refused)]
      refine ⟨rfl, rfl, ?_, level.narrow⟩
      rintro ⟨⟩
  | false =>
      have logged : first.log setup.tracer "exec" (frame.executeMessage token world) = (_, false) :=
        Prod.ext rfl refused
      have loggedToo : second.log setup.tracer "exec" (frame.executeMessage token world) =
          (_, false) :=
        Prod.ext rfl (same.trans refused)
      rcases executed : setup.execute frame.function.body frame.depth token world with
        ⟨after, cause | control⟩
      · rw [step_of_error logged executed, step_of_error loggedToo executed]
        refine ⟨rfl, rfl, ?_, fail_narrow logs frame token cause level.narrow⟩
        rintro ⟨⟩
      · by_cases entered : ∃ callee, control = .enter callee
        · obtain ⟨callee, rfl⟩ := entered
          obtain ⟨alike, still⟩ := level.log tracer (callee.enterMessage (frame.depth + 1))
            (show ">".length ≤ 4 by decide)
          rw [← logs] at alike still
          rw [step_of_enter logged executed, step_of_enter loggedToo executed, enter_eq, enter_eq]
          dsimp only
          rw [alike]
          exact ⟨rfl, rfl, fun _ => still, still.narrow⟩
        · rw [step_of_stay logged executed (not_exists.mp entered),
            step_of_stay loggedToo executed (not_exists.mp entered)]
          exact ⟨rfl, rfl, fun _ => level, level.narrow⟩

theorem settle_close {s t : RunState} (same : t.untraced = s.untraced)
    (level : s.trace.Level t.trace) : (s.settle setup).Close (t.settle setup) := by
  obtain ⟨frames, world, -⟩ := RunState.mk.inj same
  rw [settle, settle, frames, world]
  exact settleFrom_close logs s.world s.frames level

/-- Two runs that have got equally far end alike. -/
theorem run_close (fuel : Nat) {s t : RunState}
    (settled : (s.settle setup).Close (t.settle setup)) :
    (s.run setup fuel).Close (t.run setup fuel) := by
  induction fuel generalizing s t with
  | zero =>
      generalize one : s.settle setup = first at settled
      generalize other : t.settle setup = second at settled
      cases settled with
      | halted frames world halt close =>
          rw [run_of_halted one, run_of_halted other]
          exact ⟨rfl, close.narrow⟩
      | ready frame rest token world close =>
          rw [run, one, run, other]
          exact ⟨rfl, fail_narrow logs frame token _ close.narrow⟩
  | succ fuel ih =>
      generalize one : s.settle setup = first at settled
      generalize other : t.settle setup = second at settled
      cases settled with
      | halted frames world halt close =>
          rw [run_of_halted one, run_of_halted other]
          exact ⟨rfl, close.narrow⟩
      | @ready first second frame rest token world close =>
          rw [run, one, run, other]
          have steps := step_close logs frame rest token world close
          dsimp only at steps ⊢
          revert steps
          rcases step setup frame rest token world first with ⟨next, _⟩
          rcases step setup frame rest token world second with ⟨otherNext, result⟩
          rintro ⟨rfl, same, level, narrow⟩
          cases result with
          | none => exact ih (settle_close logs same (level rfl))
          | some halt =>
              exact ⟨congrArg (fun state => Ending.mk state halt fuel) same, narrow⟩

end Logged

end RunState

/-! ## Machines -/

namespace Machine

/-- A machine that has logged nothing yet. -/
def unmarked (machine : Machine) : Machine := { machine with markWidth := 0 }

/-- The first thing that a machine does after it has entered `main` is to execute an instruction,
and the log takes the line before that. -/
def Begins (tracer : Tracer) (machine : Machine) : Prop :=
  ∃ main token, machine.setup.program.lookup? "main" = some main ∧
    (⟨main, 0, 1⟩ : Frame).fetch = .instruction token ∧
    (({} : Trace).log (some tracer) ">" (main.enterMessage 1)).2 = false

/-- The marks of earlier runs were narrow, and if one was wider than a single character, a first
run gets to an instruction. -/
def Paced (machine : Machine) : Prop :=
  ∀ tracer, machine.setup.tracer = some tracer →
    machine.markWidth ≤ 1 ∨ machine.markWidth ≤ 4 ∧ machine.Begins tracer

variable {machine : Machine}

/-- Without a log the width of marks matters to nothing. -/
theorem execution_silent (silent : machine.setup.tracer = none) (fuel : Nat) :
    (machine.unmarked.execution fuel).untraced = (machine.execution fuel).untraced := by
  have accepts : machine.setup.LogAccepts := by
    intro tracer logs
    rw [silent] at logs
    cases logs
  have quiet (trace : Trace) (mark : String) (message : Unit → String) :
      (trace.log machine.setup.tracer mark message).2 = false :=
    Trace.log_accepted accepts mark message trace
  cases found : machine.setup.program.lookup? "main" with
  | some main =>
      have first := machine.unmarked.execution_of_main found fuel
      have later := machine.execution_of_main found fuel
      dsimp only at first later
      rw [quiet, if_neg Bool.false_ne_true] at later
      rw [show machine.unmarked.setup = machine.setup from rfl, quiet,
        if_neg Bool.false_ne_true] at first
      rw [first, later, RunState.run_untraced accepts, RunState.run_untraced accepts]
      rfl
  | none =>
      rw [machine.unmarked.execution_of_no_main found, machine.execution_of_no_main found]
      dsimp only
      rw [quiet, show machine.unmarked.setup = machine.setup from rfl, quiet]
      rfl

section Logged

variable {tracer : Tracer} (logs : machine.setup.tracer = some tracer)
include logs

theorem execution_narrow (narrow : machine.markWidth ≤ 4) (fuel : Nat) :
    (machine.execution fuel).state.trace.width ≤ 4 := by
  have logged (mark : String) (message : Unit → String) (short : mark.length ≤ 4) :
      (machine.initial.trace.log machine.setup.tracer mark message).1.width ≤ 4 := by
    rw [logs, Trace.width_log]
    exact Nat.max_le.mpr ⟨narrow, short⟩
  cases found : machine.setup.program.lookup? "main" with
  | some main =>
      have entered := logged ">" (main.enterMessage 1) (by decide)
      rw [machine.execution_of_main found]
      dsimp only
      split
      · exact entered
      · exact (RunState.run_close logs fuel
          (RunState.settle_close logs rfl ⟨⟨rfl, entered, entered⟩, rfl⟩)).narrow
  | none =>
      rw [machine.execution_of_no_main found]
      exact logged "#" _ (by decide)

/-- If a first run does not get to an instruction, no mark is wider than a single character. -/
theorem execution_single (narrow : machine.markWidth ≤ 1) (stuck : ¬ machine.Begins tracer)
    (fuel : Nat) : (machine.execution fuel).state.trace.width ≤ 1 := by
  have logged {trace : Trace} (narrow : trace.width ≤ 1) {mark : String}
      (single : mark.length = 1) (message : Unit → String) :
      (trace.log machine.setup.tracer mark message).1.width ≤ 1 := by
    rw [logs, Trace.width_log, single]
    exact Nat.max_le.mpr ⟨narrow, Nat.le_refl 1⟩
  cases found : machine.setup.program.lookup? "main" with
  | some main =>
      have entered : (machine.initial.trace.log machine.setup.tracer ">"
        (main.enterMessage 1)).1.width ≤ 1 := logged narrow (by decide) _
      rw [machine.execution_of_main found]
      dsimp only
      split
      · exact entered
      · next taken =>
          cases fetched : (⟨main, 0, 1⟩ : Frame).fetch with
          | crash crash => exact absurd fetched (Frame.fetch_ne_crash (Int.le_refl 0) crash)
          | instruction token =>
              refine absurd ⟨main, token, found, fetched, ?_⟩ stuck
              rw [← Trace.log_single tracer _ (by decide) narrow, ← logs]
              exact Bool.eq_false_of_not_eq_true taken
          | bodyEnd =>
              have left := logged entered (show "<".length = 1 by decide)
                ((⟨main, 0, 1⟩ : Frame).returnMessage machine.initial.world)
              have settled := RunState.settleFrom_of_bodyEnd fetched machine.setup
                machine.initial.world [] (machine.initial.trace.log machine.setup.tracer ">"
                  (main.enterMessage 1)).1
              dsimp only at settled
              split at settled
              · rw [RunState.run_of_halted (s := machine.entered main _) settled]
                exact left
              · rw [RunState.run_of_halted (s := machine.entered main _) settled]
                exact left
  | none =>
      rw [machine.execution_of_no_main found]
      exact logged narrow (by decide) _

/-- If no mark was wider than a single character, the first line looks like that of a first run. -/
theorem execution_unmarked_of_single (single : machine.markWidth ≤ 1) (fuel : Nat) :
    machine.unmarked.execution fuel = machine.execution fuel := by
  have same {mark : String} (isSingle : mark.length = 1) (message : Unit → String) :
      machine.unmarked.initial.trace.log machine.unmarked.setup.tracer mark message =
        machine.initial.trace.log machine.setup.tracer mark message := by
    rw [show machine.unmarked.setup = machine.setup from rfl, logs]
    exact (Trace.log_single tracer message isSingle single).symm
  cases found : machine.setup.program.lookup? "main" with
  | some main =>
      rw [machine.unmarked.execution_of_main found, machine.execution_of_main found,
        same (by decide)]
      rfl
  | none =>
      rw [machine.unmarked.execution_of_no_main found, machine.execution_of_no_main found,
        same (by decide)]
      rfl

/-- If a first run gets to an instruction, so does this one, and from there on both are alike. -/
theorem execution_unmarked_of_begins (narrow : machine.markWidth ≤ 4)
    (begins : machine.Begins tracer) {fuel : Nat}
    (taken : (machine.execution fuel).halt ≠ .crashed .traceRefused) :
    (machine.unmarked.execution fuel).untraced = (machine.execution fuel).untraced := by
  obtain ⟨main, token, found, fetched, begins⟩ := begins
  have due (trace : Trace) : (machine.entered main trace).settle machine.setup =
      .ready ⟨main, 0, 1⟩ [] token machine.initial.world trace := by
    rw [entered, RunState.settle, RunState.settleFrom, fetched]
  have first : machine.unmarked.execution fuel =
      let logged := ({} : Trace).log machine.setup.tracer ">" (main.enterMessage 1)
      if logged.2 then ⟨machine.entered main logged.1, .crashed .traceRefused, fuel⟩
      else (machine.entered main logged.1).run machine.setup fuel :=
    machine.unmarked.execution_of_main found fuel
  have later := machine.execution_of_main found fuel
  rw [logs] at first later
  dsimp only at first later
  rw [begins, if_neg Bool.false_ne_true] at first
  split at later
  · rw [later] at taken
    exact absurd rfl taken
  · next accepted =>
      have close : (({} : Trace).log (some tracer) ">" (main.enterMessage 1)).1.Close
          (machine.initial.trace.log (some tracer) ">" (main.enterMessage 1)).1 := by
        constructor
        · rw [Trace.count_log tracer _ begins,
            Trace.count_log tracer _ (Bool.eq_false_of_not_eq_true accepted)]
          rfl
        · rw [Trace.width_log]
          decide
        · rw [Trace.width_log]
          exact Nat.max_le.mpr ⟨narrow, by decide⟩
      rw [first, later]
      apply Eq.symm
      apply (RunState.run_close logs fuel _).untraced
      rw [due, due]
      exact .ready ⟨main, 0, 1⟩ [] token machine.initial.world close

end Logged

theorem Paced.run (paced : machine.Paced) (fuel : Nat) : (machine.run fuel).2.Paced := by
  intro tracer own
  have logs : machine.setup.tracer = some tracer := own
  change (machine.execution fuel).state.trace.width ≤ 1 ∨
    (machine.execution fuel).state.trace.width ≤ 4 ∧ machine.Begins tracer
  by_cases begins : machine.Begins tracer
  · right
    have narrow : machine.markWidth ≤ 4 := by
      rcases paced tracer logs with single | ⟨narrow, -⟩
      · omega
      · exact narrow
    exact ⟨execution_narrow logs narrow fuel, begins⟩
  · left
    have single := (paced tracer logs).resolve_right fun wide => begins wide.2
    exact execution_single logs single begins fuel

/-- What earlier runs have logged does not change how a run ends, unless the log breaks it off. -/
theorem execution_unmarked (paced : machine.Paced) {fuel : Nat}
    (taken : (machine.execution fuel).halt ≠ .crashed .traceRefused) :
    (machine.unmarked.execution fuel).untraced = (machine.execution fuel).untraced := by
  cases logs : machine.setup.tracer with
  | none => exact execution_silent logs fuel
  | some tracer =>
      rcases paced tracer logs with single | ⟨narrow, begins⟩
      · rw [execution_unmarked_of_single logs single]
      · exact execution_unmarked_of_begins logs narrow begins taken

end Machine

end StackMachine
