import Mathlib
import StackMachine.Proofs.Machine.Operations
import StackMachine.Proofs.Output.Passing

/-!
# One run after another

A machine can be run again and again, each time in other surroundings.  Its settings and the way
that its output goes stay what they were when it was made.  Between two runs nothing is held back,
unless a writer has failed, and then no run completes any more.
-/

namespace StackMachine

open Output (Operation)

/-- The surroundings of a run: for how many instructions they let it go on, and why they stop it
then. -/
structure Context where
  fuel : Nat
  interruption : Interruption := .deadline
  deriving DecidableEq

namespace Machine

/-- A machine in some surroundings. -/
def within (machine : Machine) (context : Context) : Machine :=
  { machine with setup := { machine.setup with interruption := context.interruption } }

/-- Runs the program once in some surroundings. -/
def runIn (machine : Machine) (context : Context) : RunReport × Machine :=
  (machine.within context).run context.fuel

/-- The machine after some runs. -/
def after (machine : Machine) (history : List Context) : Machine :=
  history.foldl (fun machine context => (machine.runIn context).2) machine

/-! ## The output of a run -/

/-- A run does operations on the output and flushes it at the end. -/
theorem run_output (machine : Machine) (fuel : Nat) :
    ∃ operations, (machine.run fuel).2.output = (machine.output.operate operations).2.flush.2 := by
  obtain ⟨operations, ending, -, performs⟩ := machine.execution_performs fuel
  refine ⟨operations, ?_⟩
  change (machine.execution fuel).state.world.output.flush.2 = _
  rcases performs machine.output with ⟨last, sound, ended, -⟩ | ⟨fault, failed, -⟩
  · have same : machine.execution fuel = ending.withOutput last := ended
    rw [same, sound]
    rfl
  · have same : machine.output.operate operations =
        (some fault, (machine.execution fuel).state.world.output) := failed
    rw [same]

end Machine

/-! ## What stays -/

/-- An output that goes the same way, whatever its writers hold and its sinks have received. -/
structure Output.Keeps (output after : Output) : Prop where
  route : after.route.emptied = output.route.emptied
  traits : after.sinks.traits = output.sinks.traits

namespace Output.Keeps

variable {output between last : Output}

theorem refl (output : Output) : output.Keeps output := ⟨rfl, rfl⟩

theorem trans (first : output.Keeps between) (second : between.Keeps last) : output.Keeps last :=
  ⟨second.route.trans first.route, second.traits.trans first.traits⟩

theorem symm (keeps : output.Keeps last) : last.Keeps output :=
  ⟨keeps.route.symm, keeps.traits.symm⟩

theorem apply (output : Output) (operation : Operation) :
    output.Keeps (output.apply operation).2 :=
  ⟨output.emptied_apply operation, output.traits_apply operation⟩

theorem operate (output : Output) (operations : List Operation) :
    output.Keeps (output.operate operations).2 :=
  operate_induction (fun after operation keeps => keeps.trans (.apply after operation)) operations
    (.refl output)

theorem attached (keeps : output.Keeps last) : last.attached = output.attached := by
  have same (route : Route) :
      Writer.attached route.emptied.writers = Writer.attached route.writers := by
    rw [Route.writers_emptied, Writer.attached, List.filterMap_map]
    exact congrArg (List.filterMap · route.writers) (funext Writer.sink?_emptied)
  rw [Output.attached, ← same, keeps.route, same]
  rfl

end Output.Keeps

/-! ## Outputs between runs -/

theorem Writer.emptied_ofSink (sinks : Sinks) (number : Nat) :
    (ofSink sinks number).emptied = ofSink sinks number := by
  unfold ofSink
  split <;> rfl

namespace Output

variable {output after : Output}

/-- Every writer is made for a sink of its kind. -/
def Suits (output : Output) : Prop :=
  ∀ writer ∈ output.route.writers, ∀ (number : Nat) (sink : Sink), writer.sink? = some number →
    output.sinks[number]? = some sink → sink.kind = writer.kind

theorem Keeps.suits (keeps : output.Keeps after) (suits : output.Suits) : after.Suits := by
  intro writer isWriter number later leads found
  have made : writer.emptied ∈ output.route.writers.map Writer.emptied := by
    rw [← Route.writers_emptied, ← keeps.route, Route.writers_emptied]
    exact List.mem_map_of_mem isWriter
  obtain ⟨own, isOwn, same⟩ := List.mem_map.mp made
  obtain ⟨sink, isSink, kind, -⟩ := Sinks.exists_of_traits keeps.traits found
  have sameKind : own.kind = writer.kind := by
    rw [← own.kind_emptied, same, writer.kind_emptied]
  rw [kind, ← sameKind]
  apply suits own isOwn number sink _ isSink
  rw [Writer.sink?_of_emptied same, leads]

variable {sinks : Sinks} {numbers : List Nat}

namespace Fresh

theorem idle (fresh : Fresh sinks numbers output) : output.route.emptied = output.route := by
  apply (Route.emptied_eq_iff _).mpr
  intro writer isWriter
  rcases fresh.of_mem isWriter with rfl | ⟨number, -, rfl⟩
  · rfl
  · exact Writer.emptied_ofSink sinks number

theorem rests (fresh : Fresh sinks numbers output) : output.Rests :=
  fun writer isWriter => .inl ((Route.emptied_eq_iff _).mp fresh.idle writer isWriter)

theorem suits (fresh : Fresh sinks numbers output) : output.Suits := by
  intro writer isWriter number later leads found
  rcases fresh.of_mem isWriter with rfl | ⟨place, -, rfl⟩
  · cases leads
  · obtain ⟨rfl, sink, isSink, -⟩ := (Writer.ofSink_sink?_iff sinks place number).mp leads
    obtain ⟨_, foundSame, same⟩ := Sinks.exists_of_contents fresh.contents isSink
    rw [found] at foundSame
    cases foundSame
    rw [Writer.ofSink_kind isSink, (Sink.grown_of_content same).1.kind]

end Fresh

end Output

namespace Machine

theorem run_keeps (machine : Machine) (fuel : Nat) :
    machine.output.Keeps (machine.run fuel).2.output := by
  obtain ⟨operations, same⟩ := machine.run_output fuel
  rw [same]
  exact (Output.Keeps.operate machine.output operations).trans (.apply _ .flush)

/-- Runs do not change where the output of a machine goes. -/
theorem after_keeps (machine : Machine) (history : List Context) :
    machine.output.Keeps (machine.after history).output := by
  induction history generalizing machine with
  | nil => exact .refl machine.output
  | cons context history ih =>
      have first : machine.output.Keeps (machine.runIn context).2.output :=
        (machine.within context).run_keeps context.fuel
      exact first.trans (ih (machine.runIn context).2)

/-- Between two runs no writer has anything to pass on. -/
theorem after_rests {machine : Machine} (rests : machine.output.Rests) (history : List Context) :
    (machine.after history).output.Rests := by
  rcases history.eq_nil_or_concat with rfl | ⟨earlier, context, rfl⟩
  · exact rests
  · have last : machine.after (earlier.concat context) =
        ((machine.after earlier).runIn context).2 := by
      rw [List.concat_eq_append, after, List.foldl_append]
      rfl
    obtain ⟨operations, same⟩ := ((machine.after earlier).within context).run_output context.fuel
    rw [last, runIn, same]
    exact Output.flush_rests _

end Machine

end StackMachine
