import StackMachine.Machine.Execute
import StackMachine.Machine.Trace

/-!
# Running a program

A run is a stack of function activations, innermost first, over one world.  Before
each instruction the surroundings are asked whether the run may go on; the number of
times they agree is the fuel of the run.  Nothing is asked when a body ends.
-/

namespace StackMachine

/-- A function activation. -/
structure Frame where
  function : Function
  /-- The position of the instruction to execute next. -/
  position : Int := 0
  /-- The number of activations up to and including this one. -/
  depth : Nat := 1
  deriving DecidableEq

/-- What an activation is about to do. -/
inductive Fetched where
  | instruction (token : Token)
  | bodyEnd
  | crash (crash : Crash)
  deriving DecidableEq

/-- The instruction at the position of an activation. -/
def Frame.fetch (frame : Frame) : Fetched :=
  if frame.position < 0 then .crash (.negativePosition frame.position)
  else
    match frame.function.body.code[frame.position.toNat]? with
    | some token => .instruction token
    | none => .bodyEnd

/-- A run in progress. -/
structure RunState where
  frames : List Frame := []
  world : World := {}
  trace : Trace := {}

/-- How a run stops. -/
inductive Halt where
  | finished
  | failed (error : RunError)
  | crashed (crash : Crash)
  deriving DecidableEq

/-- Settings of a run together with its log and the reason that stops it when fuel is spent. -/
structure RunSetup extends Setup where
  tracer : Option Tracer := none
  interruption : Interruption := .deadline

namespace RunState

/-- Halts at an instruction.  A log that refuses the line about it changes nothing. -/
def fail (setup : RunSetup) (frame : Frame) (token : Token) (cause : Cause) (s : RunState) :
    RunState × Halt :=
  let error : RunError := ⟨frame.function.name, frame.position.toNat, token, cause⟩
  let (trace, _) := s.trace.log setup.tracer "#" fun _ => s!"halt error: {error.message}"
  ({ s with trace }, .failed error)

/-- Begins the activation of a function. -/
def enter (setup : RunSetup) (callee : Function) (depth : Nat) (s : RunState) :
    RunState × Option Halt :=
  let (trace, refused) := s.trace.log setup.tracer ">" fun _ =>
    s!"call {callee.name} depth:{depth}"
  ({ s with frames := ⟨callee, 0, depth⟩ :: s.frames, trace },
    if refused then some (.crashed .traceRefused) else none)

/-- Executes one instruction of the innermost activation.  The activations below it are `rest`. -/
def step (setup : RunSetup) (frame : Frame) (rest : List Frame) (token : Token) (world : World)
    (trace : Trace) : RunState × Option Halt :=
  let (trace, refused) := trace.log setup.tracer "exec" fun _ =>
    s!"{frame.function.name}@{frame.position} {token.text} -- s:{stackText world.memory.stack}"
  if refused then (⟨frame :: rest, world, trace⟩, some (.crashed .traceRefused))
  else
    match setup.execute frame.function.body frame.depth token world with
    | (world, .error cause) =>
        let (s, halt) := fail setup frame token cause ⟨frame :: rest, world, trace⟩
        (s, some halt)
    | (world, .ok .next) =>
        (⟨{ frame with position := frame.position + 1 } :: rest, world, trace⟩, none)
    | (world, .ok (.jump position)) =>
        (⟨{ frame with position := position.toInt } :: rest, world, trace⟩, none)
    | (world, .ok (.enter callee)) =>
        enter setup callee (frame.depth + 1)
          ⟨{ frame with position := frame.position + 1 } :: rest, world, trace⟩

/-- What a run does after its finished activations have been ended. -/
inductive Settled where
  | halted (state : RunState) (halt : Halt)
  | ready (frame : Frame) (rest : List Frame) (token : Token) (world : World) (trace : Trace)

/-- Ends every activation that has reached the end of its body. -/
def settleFrom (setup : RunSetup) (world : World) : List Frame → Trace → Settled
  | [], trace => .halted ⟨[], world, trace⟩ .finished
  | frame :: rest, trace =>
      match frame.fetch with
      | .instruction token => .ready frame rest token world trace
      | .crash crash => .halted ⟨frame :: rest, world, trace⟩ (.crashed crash)
      | .bodyEnd =>
          let (trace, refused) := trace.log setup.tracer "<" fun _ =>
            s!"ret {frame.function.name} -- s:{stackText world.memory.stack}"
          if refused then .halted ⟨frame :: rest, world, trace⟩ (.crashed .traceRefused)
          else settleFrom setup world rest trace

@[inherit_doc settleFrom]
def settle (setup : RunSetup) (s : RunState) : Settled :=
  settleFrom setup s.world s.frames s.trace

/-- How a run ended. -/
structure Ending where
  state : RunState
  halt : Halt
  /-- The fuel that was not used. -/
  fuel : Nat

/-- Runs until everything is done, something fails, or the fuel is spent. -/
def run (setup : RunSetup) : Nat → RunState → Ending
  | 0, s =>
      match s.settle setup with
      | .halted s halt => ⟨s, halt, 0⟩
      | .ready frame rest token world trace =>
          let (s, halt) := fail setup frame token (.interrupted setup.interruption)
            ⟨frame :: rest, world, trace⟩
          ⟨s, halt, 0⟩
  | fuel + 1, s =>
      match s.settle setup with
      | .halted s halt => ⟨s, halt, fuel + 1⟩
      | .ready frame rest token world trace =>
          match step setup frame rest token world trace with
          | (s, some halt) => ⟨s, halt, fuel⟩
          | (s, none) => run setup fuel s

/-- Executes one instruction of the innermost activation and, if it enters a function, that
function to its end.  `none` means that the body had ended already. -/
def stepOver (setup : RunSetup) (fuel : Nat) (s : RunState) : Option (RunState × Option Halt) :=
  match s.frames with
  | [] => none
  | frame :: rest =>
      match frame.fetch with
      | .bodyEnd => none
      | .crash crash => some (s, some (.crashed crash))
      | .instruction token =>
          match step setup frame rest token s.world s.trace with
          | (s, some halt) => some (s, some halt)
          | (s, none) =>
              match s.frames with
              | callee :: caller :: below =>
                  if frame.depth < callee.depth then
                    match run setup fuel { s with frames := [callee] } with
                    | ⟨s, .finished, _⟩ => some ({ s with frames := caller :: below }, none)
                    | ⟨s, halt, _⟩ => some ({ s with frames := frame :: rest }, some halt)
                  else some (s, none)
              | _ => some (s, none)

end RunState

end StackMachine
