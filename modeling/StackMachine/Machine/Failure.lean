import StackMachine.Memory
import StackMachine.Output.Sink
import StackMachine.Recovery
import StackMachine.Text.Blank
import StackMachine.Token.Basic

/-!
# Failures of a run

A run that does not complete either halts at an instruction, for one of the causes
below, or crashes outside any instruction, or completes without having delivered
its output.
-/

namespace StackMachine

/-- Why the surroundings of a run stop it. -/
inductive Interruption where
  | cancelled
  | deadline
  deriving DecidableEq, Repr

/-- The wording of an interruption. -/
def Interruption.message : Interruption → String
  | .cancelled => "context canceled"
  | .deadline => "context deadline exceeded"

/-- Why an instruction fails. -/
inductive Cause where
  | stackUnderflow
  | operands (error : OperandError)
  | heapBounds (error : BoundsError)
  | heapLimit (error : LimitError)
  | unknownLabel (id : Int64)
  | unknownFunction (name : String)
  /-- A branch on a value that is no integer. -/
  | notCondition (value : Atom)
  | callDepth (limit : Int64)
  | invalidInstruction (opcode : Opcode)
  /-- A chain of references that never ends in a value. -/
  | referenceCycle
  /-- There is no word left to read an integer from. -/
  | inputEnded
  | inputFault (fault : ReadFault)
  | notInteger (word : String)
  | outputFault (fault : WriteFault)
  | interrupted (reason : Interruption)
  deriving DecidableEq, Repr

/-- The wording of a cause. -/
def Cause.message : Cause → String
  | .stackUnderflow => "stack underflow"
  | .operands error => error.message
  | .heapBounds error => error.message
  | .heapLimit error => error.message
  | .unknownLabel id => s!"label {id.toInt} not found"
  | .unknownFunction name => s!"function {quoted name} not found"
  | .notCondition value => s!"cannot branch on {value.diagnostic}"
  | .callDepth limit => s!"call depth limit {limit.toInt} exceeded"
  | .invalidInstruction opcode => s!"invalid instruction {opcode.name}"
  | .referenceCycle => "reference cycle"
  | .inputEnded => "readint: unexpected EOF"
  | .inputFault fault => s!"readint: {fault.message}"
  | .notInteger word => s!"readint: invalid integer {quoted word}"
  | .outputFault fault => fault.message
  | .interrupted reason => reason.message

/-- An instruction that failed: where it stands, what it is, and why. -/
structure RunError where
  function : String
  position : Nat
  token : Token
  cause : Cause
  deriving DecidableEq, Repr

/-- The wording of a run error. -/
def RunError.message (e : RunError) : String :=
  s!"{e.function}@{e.position} ({e.token.text}): {e.cause.message}"

/-- Why a run breaks off outside any instruction. -/
inductive Crash where
  /-- The trace log could not take a line. -/
  | traceRefused
  /-- A jump led to a position before the start of the code. -/
  | negativePosition (position : Int)
  deriving DecidableEq, Repr

/-- The wording of a crash. -/
def Crash.message : Crash → String
  | .traceRefused => "log failed"
  | .negativePosition position => s!"runtime error: index out of range [{position}]"

/-- Why a run is not a success. -/
inductive RunFailure where
  | halted (error : RunError)
  | crashed (crash : Crash)
  /-- The program completed, but its output could not be flushed at the end. -/
  | undelivered (fault : WriteFault)
  deriving DecidableEq, Repr

/-- The wording of a run failure. -/
def RunFailure.message : RunFailure → String
  | .halted error => error.message
  | .crashed crash => (Fault.broken "VM" (.text crash.message)).message
  | .undelivered fault => fault.message

end StackMachine
