import StackMachine.Machine.Run

/-!
# Machines

A machine holds a program with its settings, an input and an output.  It can be run
again and again: each run has fresh memory, reads on where the last one stopped
reading, and adds to the output.
-/

namespace StackMachine

/-- A machine between two runs. -/
structure Machine where
  setup : RunSetup
  input : Input := .empty
  output : Output := {}
  /-- The memory that the last run left. -/
  memory : Memory := {}
  /-- The width of the widest mark in the trace so far. -/
  markWidth : Nat := 0

/-- A choice in the making of a machine. -/
inductive MachineOption where
  | input (input : Input)
  /-- Write to a sink only. -/
  | output (sink : Nat)
  /-- Write to a sink as well. -/
  | tee (sink : Nat)
  | maxDepth (limit : Int64)
  | heapLimit (limit : Int64)
  | tracer (tracer : Tracer)

/-- What a run reports. -/
structure RunReport where
  failure : Option RunFailure
  /-- The trace lines of the run, in order. -/
  lines : List String
  /-- The fuel that was not used. -/
  fuel : Nat

namespace Machine

/-- Applies one choice. -/
def configure (machine : Machine) : MachineOption → Machine
  | .input input => { machine with input }
  | .output sink => { machine with output := machine.output.redirect sink }
  | .tee sink => { machine with output := machine.output.addTee sink }
  | .maxDepth limit => { machine with setup := { machine.setup with maxDepth := limit } }
  | .heapLimit limit => { machine with setup := { machine.setup with heapLimit := limit } }
  | .tracer tracer => { machine with setup := { machine.setup with tracer := some tracer } }

/-- A machine for a program.  Without options it has no input and drops its output. -/
def new (program : Program) (sinks : Sinks) (options : List MachineOption) : Machine :=
  options.foldl configure { setup := { program }, output := { sinks } }

/-- The first state of a run: `main` has been entered, or there is nothing to do. -/
def start (setup : RunSetup) (s : RunState) : RunState × Option Halt :=
  match setup.program.lookup? "main" with
  | some main => s.enter setup main 1
  | none =>
      let (trace, refused) := s.trace.log setup.tracer "#" fun _ => "no main function"
      ({ s with trace }, some (if refused then .crashed .traceRefused else .finished))

/-- Runs the program's `main` on fresh memory. -/
def execution (machine : Machine) (fuel : Nat) : RunState.Ending :=
  let world : World := { input := machine.input, output := machine.output }
  match start machine.setup { world, trace := { width := machine.markWidth } } with
  | (s, some halt) => ⟨s, halt, fuel⟩
  | (s, none) => s.run machine.setup fuel

/-- The failure of a run that stopped in some way and then flushed its output. -/
def failureOf (halt : Halt) (flushFault : Option WriteFault) : Option RunFailure :=
  match halt with
  | .failed error => some (.halted error)
  | .crashed crash => some (.crashed crash)
  | .finished => flushFault.map .undelivered

/-- Runs the program once.  The output is flushed at the end, whatever happened. -/
def run (machine : Machine) (fuel : Nat) : RunReport × Machine :=
  let ending := machine.execution fuel
  let (fault, output) := ending.state.world.output.flush
  (⟨failureOf ending.halt fault, ending.state.trace.lines.reverse, ending.fuel⟩,
    { machine with
      input := ending.state.world.input
      output
      memory := ending.state.world.memory
      markWidth := ending.state.trace.width })

end Machine

end StackMachine
