import Mathlib
import StackMachine.Proofs.Machine.History
import StackMachine.Proofs.Machine.Marks
import StackMachine.Proofs.Output.Parallel

/-!
# Runs do not depend on earlier runs

Whatever earlier runs of a machine have done and however they have ended, the next run gives the
same result as the first run of a new machine with the same program and settings on the input that
is left: the same failure or none, the same memory, the same rest of the input, and the same text
for every sink (`Machine.run_independent`).  Only the padding of the trace can differ.  This holds
of runs that do not fail for their output and that the log does not break off.

All that one run leaves to the next is the input, the output and the width of marks.  The width
matters to nothing but the trace, and the output holds nothing back between runs.
-/

namespace StackMachine

/-! ## Runs that do not fail for their output -/

/-- Whether a run has failed for its output. -/
def RunFailure.isOfOutput : RunFailure → Bool
  | .halted error =>
      match error.cause with
      | .outputFault _ => true
      | _ => false
  | .crashed _ => false
  | .undelivered _ => true

/-- Whether a report is about a run that has failed for its output. -/
def RunReport.outputFails (report : RunReport) : Bool := report.failure.any RunFailure.isOfOutput

namespace Machine

theorem outputFails_of_blames {halt : Halt} {fault : WriteFault} (blames : halt.Blames fault)
    (flushFault : Option WriteFault) :
    (failureOf halt flushFault).any RunFailure.isOfOutput = true := by
  obtain ⟨error, rfl, cause⟩ := blames
  rw [failureOf, Option.any_some, RunFailure.isOfOutput, cause]

/-- The failure of a run that has not failed for its output does not depend on the last flush. -/
theorem failureOf_of_sound {halt : Halt} {flushFault : Option WriteFault}
    (sound : (failureOf halt flushFault).any RunFailure.isOfOutput = false) :
    failureOf halt flushFault = failureOf halt none := by
  cases halt with
  | failed error => rfl
  | crashed crash => rfl
  | finished =>
      cases flushFault with
      | none => rfl
      | some fault => cases sound

/-- Two runs with the same result, whatever they print and log. -/
structure SameResult (first second : RunReport × Machine) : Prop where
  failure : second.1.failure = first.1.failure
  fuel : second.1.fuel = first.1.fuel
  memory : second.2.memory = first.2.memory
  input : second.2.input = first.2.input

/-- A run with another output has the same result and does the same with that output. -/
theorem run_withOutput {machine : Machine} {other : Output} {fuel : Nat}
    (sound : (machine.run fuel).1.outputFails = false)
    (soundToo : ((machine.withOutput other).run fuel).1.outputFails = false) :
    SameResult (machine.run fuel) ((machine.withOutput other).run fuel) ∧
      ∃ operations last otherLast, Output.Complete operations ∧
        machine.output.operate operations = (none, last) ∧
        other.operate operations = (none, otherLast) ∧
        (machine.run fuel).2.output = last.flush.2 ∧
        ((machine.withOutput other).run fuel).2.output = otherLast.flush.2 := by
  obtain ⟨operations, ending, complete, performs⟩ := machine.execution_performs fuel
  have ends (output : Output)
      (sound : ((machine.withOutput output).run fuel).1.outputFails = false) :
      ∃ last, output.operate operations = (none, last) ∧
        (machine.withOutput output).execution fuel = ending.withOutput last := by
    rcases performs output with ⟨last, operated, ended, -⟩ | ⟨fault, -, blames⟩
    · exact ⟨last, operated, ended⟩
    · -- an operation that reports a fault is the reason for which the run fails
      have fails : ((machine.withOutput output).run fuel).1.outputFails = true :=
        outputFails_of_blames blames _
      rw [sound] at fails
      cases fails
  obtain ⟨last, operated, ended⟩ := ends machine.output sound
  obtain ⟨otherLast, operatedToo, endedToo⟩ := ends other soundToo
  have failure := failureOf_of_sound sound
  have failureToo := failureOf_of_sound soundToo
  have same : machine.execution fuel = ending.withOutput last := ended
  rw [same] at failure
  rw [endedToo] at failureToo
  unfold run
  rw [same, endedToo]
  exact ⟨⟨failureToo.trans failure.symm, rfl, rfl, rfl⟩, operations, last, otherLast, complete,
    operated, operatedToo, rfl, rfl⟩

/-! ## Machines of the same make -/

/-- Two machines with the same settings whose outputs go the same way.  Their sinks can differ in
what they have received and in how much they can take. -/
structure SameMake (first second : Machine) : Prop where
  setup : second.setup = first.setup
  route : second.output.route = first.output.route
  traits : second.output.sinks.traits = first.output.sinks.traits

theorem SameMake.configure {first second : Machine} (same : first.SameMake second)
    (option : MachineOption) : (first.configure option).SameMake (second.configure option) := by
  obtain ⟨setup, route, traits⟩ := same
  cases option with
  | input given => exact ⟨setup, route, traits⟩
  | output number =>
      have flushed : second.output.flush.2.sinks.traits = first.output.flush.2.sinks.traits :=
        (second.output.traits_apply .flush).trans
          (traits.trans (first.output.traits_apply .flush).symm)
      refine ⟨setup, ?_, flushed⟩
      exact congrArg Route.single (Writer.ofSink_of_traits flushed number)
  | tee number =>
      refine ⟨setup, ?_, traits⟩
      simp only [Machine.configure, Output.addTee, route, Writer.ofSink_of_traits traits number]
  | maxDepth limit =>
      exact ⟨by simp only [Machine.configure, setup], route, traits⟩
  | heapLimit limit =>
      exact ⟨by simp only [Machine.configure, setup], route, traits⟩
  | tracer tracer =>
      exact ⟨by simp only [Machine.configure, setup], route, traits⟩

theorem sameMake_new (program : Program) {sinks others : Sinks}
    (alike : others.traits = sinks.traits) (options : List MachineOption) :
    (new program sinks options).SameMake (new program others options) := by
  have start : SameMake { setup := { program }, output := { sinks } }
      { setup := { program }, output := { sinks := others } } := ⟨rfl, rfl, alike⟩
  unfold new
  induction options using List.reverseRecOn with
  | nil => exact start
  | append_singleton front option ih =>
      rw [List.foldl_append, List.foldl_append]
      exact ih.configure option

theorem new_input (program : Program) (sinks : Sinks) (options : List MachineOption)
    (input : Input) :
    new program sinks (options ++ [.input input]) = { new program sinks options with input } := by
  rw [new, List.foldl_append]
  rfl

theorem markWidth_new (program : Program) (sinks : Sinks) (options : List MachineOption) :
    (new program sinks options).markWidth = 0 := by
  unfold new
  induction options using List.reverseRecOn with
  | nil => rfl
  | append_singleton front option ih =>
      rw [List.foldl_append]
      cases option <;> exact ih

/-! ## Runs one after another -/

variable {machine : Machine}

theorem within_after (machine : Machine) (history : List Context) (context : Context) :
    ((machine.after history).within context).setup = (machine.within context).setup := by
  induction history generalizing machine with
  | nil => rfl
  | cons earlier history ih => exact ih (machine.runIn earlier).2

theorem Paced.after (paced : machine.Paced) (history : List Context) :
    (machine.after history).Paced := by
  induction history generalizing machine with
  | nil => exact paced
  | cons context history ih =>
      have within : (machine.within context).Paced := paced
      exact ih (within.run context.fuel)

theorem paced_after_new (program : Program) (sinks : Sinks) (options : List MachineOption)
    (history : List Context) : ((new program sinks options).after history).Paced := by
  apply Paced.after
  intro _ _
  rw [markWidth_new]
  exact .inl (Nat.zero_le 1)

theorem alike_of_same {first second : Machine} (setup : second.setup = first.setup)
    (input : second.input = first.input) (output : second.output = first.output)
    (markWidth : second.markWidth = first.markWidth) (fuel : Nat) :
    Alike (first.run fuel) (second.run fuel) := by
  apply alike_of_untraced
  unfold execution
  rw [setup, input, output, markWidth]

/-- A run beside one that starts with an output of the same make and with nothing logged. -/
theorem run_beside {other : Output} {fuel : Nat} (paced : machine.Paced)
    (rests : machine.output.Rests) (otherRests : other.Rests)
    (route : other.route = machine.output.route.emptied)
    (traits : other.sinks.traits = machine.output.sinks.traits)
    (sound : (machine.run fuel).1.outputFails = false)
    (soundToo : ((machine.unmarked.withOutput other).run fuel).1.outputFails = false)
    (logged : (machine.run fuel).1.failure ≠ some (.crashed .traceRefused)) :
    SameResult (machine.run fuel) ((machine.unmarked.withOutput other).run fuel) ∧
      Sinks.Parallel machine.output.sinks.received other.sinks.received
        (machine.run fuel).2.output.sinks
        ((machine.unmarked.withOutput other).run fuel).2.output.sinks := by
  have taken : (machine.execution fuel).halt ≠ .crashed .traceRefused := by
    intro refused
    exact logged ((failureOf_eq_crashed_iff ..).mpr refused)
  obtain ⟨failure, fuels, memory, input, output⟩ :=
    alike_of_untraced (execution_unmarked paced taken)
  have soundUnmarked : (machine.unmarked.run fuel).1.outputFails = false := by
    rw [RunReport.outputFails, failure]
    exact sound
  obtain ⟨same, operations, last, otherLast, complete, operated, operatedToo, ended, endedToo⟩ :=
    run_withOutput soundUnmarked soundToo
  refine ⟨⟨same.failure.trans failure, same.fuel.trans fuels, same.memory.trans memory,
    same.input.trans input⟩, ?_⟩
  rw [← output, ended, endedToo]
  have parallel := rests.parallel complete route traits operated operatedToo
  exact parallel.pass (rests.operate complete operated).flush_passed
    (otherRests.operate complete operatedToo).flush_passed

section New

variable {program : Program} {sinks others : Sinks} (alike : others.traits = sinks.traits)
  {options : List MachineOption} {history : List Context}

include alike

/-- The output of a new machine goes the way of that of an old one. -/
theorem new_output (input : Input) :
    let machine := (new program sinks options).after history
    let fresh := new program others (options ++ [.input input])
    fresh.output.route = machine.output.route.emptied ∧
      fresh.output.sinks.traits = machine.output.sinks.traits := by
  intro machine fresh
  have made := sameMake_new program alike options
  have keeps := after_keeps (new program sinks options) history
  have output : fresh.output = (new program others options).output := by
    simp only [fresh, new_input]
  rw [output, keeps.route, keeps.traits, (new_fresh program sinks options).idle]
  exact ⟨made.route, made.traits⟩

/-- A new machine runs like an old one with its output and with nothing logged. -/
theorem alike_new (context : Context) :
    let machine := (new program sinks options).after history
    let fresh := new program others (options ++ [.input machine.input])
    Alike (((machine.within context).unmarked.withOutput fresh.output).run context.fuel)
      (fresh.runIn context) := by
  intro machine fresh
  have made := sameMake_new program alike options
  have same : fresh = { new program others options with input := machine.input } :=
    new_input program others options machine.input
  apply alike_of_same
  · change (fresh.within context).setup = (machine.within context).setup
    rw [within_after, same, within, made.setup]
    rfl
  · change fresh.input = machine.input
    rw [same]
  · rfl
  · exact markWidth_new program others _

end New

/-- A run gives the same result as the first run of a new machine of the same make on the input
that is left, and appends the same text to every sink, whatever has happened before.  The log can
tell the two runs apart by the padding of their first lines, so it must not break off the later
one. -/
theorem run_independent (program : Program) (sinks others : Sinks)
    (alike : others.traits = sinks.traits) (options : List MachineOption)
    (history : List Context) (context : Context) :
    let machine := (new program sinks options).after history
    let fresh := new program others (options ++ [.input machine.input])
    (machine.runIn context).1.outputFails = false → (fresh.runIn context).1.outputFails = false →
    (machine.runIn context).1.failure ≠ some (.crashed .traceRefused) →
      SameResult (machine.runIn context) (fresh.runIn context) ∧
        ∀ (number : Nat) (sink other : Sink), machine.output.sinks[number]? = some sink →
          others[number]? = some other → sink.kind ≠ .discard →
            ∃ added,
              (machine.runIn context).2.output.sinks.received? number =
                some (sink.received.toList ++ added) ∧
              (fresh.runIn context).2.output.sinks.received? number =
                some (other.received.toList ++ added) := by
  intro machine fresh sound soundToo logged
  have isFresh := new_fresh program others (options ++ [.input machine.input])
  have paced : (machine.within context).Paced := paced_after_new program sinks options history
  have rests : (machine.within context).output.Rests :=
    after_rests (new_fresh program sinks options).rests history
  obtain ⟨route, traits⟩ : fresh.output.route = machine.output.route.emptied ∧
    fresh.output.sinks.traits = machine.output.sinks.traits := new_output alike machine.input
  obtain ⟨failure, fuel, memory, input, output⟩ : Alike
      (((machine.within context).unmarked.withOutput fresh.output).run context.fuel)
      (fresh.runIn context) := alike_new alike context
  have soundBeside : (((machine.within context).unmarked.withOutput fresh.output).run
      context.fuel).1.outputFails = false := by
    rw [RunReport.outputFails, failure]
    exact soundToo
  obtain ⟨same, parallel⟩ := run_beside paced rests isFresh.rests route traits sound soundBeside
    logged
  refine ⟨⟨failure.symm.trans same.failure, fuel.symm.trans same.fuel,
    memory.symm.trans same.memory, input.symm.trans same.input⟩, ?_⟩
  intro number sink other found foundToo kept
  obtain ⟨first, isFirst, content⟩ := Sinks.exists_of_contents isFresh.contents foundToo
  rw [← (Sink.grown_of_content content).2, ← output]
  exact parallel.appended ((machine.within context).run_keeps context.fuel).traits found isFirst
    kept

/-- A program that reads two numbers and prints each of them. -/
def echoing : Program where
  functions? := some [{
    name := "main"
    body := { code? := some #[{ opcode := .call, name := "readint" },
      { opcode := .call, name := "println" }, { opcode := .call, name := "readint" },
      { opcode := .call, name := "print" }] } }]

/-- The fourth run, after one that completes, one that fails and one that is cut off, finds one
number only, and prints it. -/
theorem run_independent_echoing :
    let context : Context := { fuel := 9 }
    let others : Sinks := #[{ kind := .device, received := #[7] }]
    let options : List MachineOption :=
      [.input ⟨"1 2 x 3 4".toList, none⟩, .output 0, .tracer {}]
    let machine := (new echoing #[{ kind := .device }] options).after
      [context, context, { fuel := 1 }]
    let fresh := new echoing others (options ++ [.input machine.input])
    (fresh.runIn context).2.output.sinks.received? 0 = some (7 :: Utf8.encode "4\n") ∧
      SameResult (machine.runIn context) (fresh.runIn context) ∧
      ∀ (number : Nat) (sink other : Sink), machine.output.sinks[number]? = some sink →
        others[number]? = some other → sink.kind ≠ .discard →
          ∃ added,
            (machine.runIn context).2.output.sinks.received? number =
              some (sink.received.toList ++ added) ∧
            (fresh.runIn context).2.output.sinks.received? number =
              some (other.received.toList ++ added) := by
  intro context others options
  have independent := run_independent echoing #[{ kind := .device }] others (by decide +kernel)
    options [context, context, { fuel := 1 }] context (by decide +kernel) (by decide +kernel)
    (by decide +kernel)
  exact ⟨by decide +kernel, independent⟩

end Machine

end StackMachine
