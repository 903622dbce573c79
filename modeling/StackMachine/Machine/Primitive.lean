import StackMachine.Machine.Failure
import StackMachine.Number.Integer
import StackMachine.Output.Writer

/-!
# The world of a program and its primitives

An instruction acts on memory, the unread input and the output.  Three function
names are taken by primitives: `print` and `println` write the top of the stack,
`readint` reads an integer word.  Whatever fails, the effects up to that point stay.
-/

namespace StackMachine

/-- Everything that an instruction can change. -/
structure World where
  memory : Memory := {}
  input : Input := .empty
  output : Output := {}
  deriving DecidableEq, Repr

namespace World

/-- Pushes an atom. -/
def push (w : World) (a : Atom) : World := { w with memory := w.memory.push a }

/-- Replaces the operand stack. -/
def withStack (w : World) (stack : List Atom) : World :=
  { w with memory := { w.memory with stack } }

/-- Writes a text. -/
def emit (w : World) (text : String) : World × Except Cause Unit :=
  let (written, output) := w.output.write text
  ({ w with output },
    match written.fault with
    | some fault => .error (.outputFault fault)
    | none => .ok ())

/-- Flushes the output. -/
def flush (w : World) : World × Except Cause Unit :=
  let (fault, output) := w.output.flush
  ({ w with output },
    match fault with
    | some fault => .error (.outputFault fault)
    | none => .ok ())

end World

/-- Goes on with another action if the first succeeded. -/
def andThen {α β : Type} (result : World × Except Cause α)
    (next : α → World → World × Except Cause β) : World × Except Cause β :=
  match result with
  | (w, .ok value) => next value w
  | (w, .error cause) => (w, .error cause)

namespace Memory

/-- Follows references to the value at the end of their chain, through at most `hops` cells. -/
def followFrom (m : Memory) : Nat → Atom → Except Cause Atom
  | hops, .ref address =>
      match hops with
      | 0 => .error .referenceCycle
      | hops + 1 =>
          match m.load address with
          | .ok a => followFrom m hops a
          | .error error => .error (.heapBounds error)
  | _, a => .ok a

/-- Follows references.  A chain of more cells than there are comes back to one of them. -/
def follow (m : Memory) (a : Atom) : Except Cause Atom :=
  m.followFrom (m.heap.size + 1) a

end Memory

/-- The functions that every program has. -/
inductive Primitive where
  | print
  | println
  | readint
  deriving DecidableEq, Repr

namespace Primitive

/-- The primitive of a name. -/
def ofName? (name : String) : Option Primitive :=
  if name = "print" then some .print
  else if name = "println" then some .println
  else if name = "readint" then some .readint
  else none

/-- Pops an atom and writes the value it leads to, then `ending`. -/
def printing (ending : List String) (w : World) : World × Except Cause Unit :=
  match w.memory.stack with
  | [] => (w, .error .stackUnderflow)
  | a :: rest =>
      let w := w.withStack rest
      match w.memory.follow a with
      | .error cause => (w, .error cause)
      | .ok value =>
          ending.foldl (fun result text => andThen result fun _ w => w.emit text)
            (w.emit value.text)

/-- Reads an integer word, after everything written so far has been delivered. -/
def reading (w : World) : World × Except Cause Unit :=
  andThen w.flush fun _ w =>
    let (result, input) := w.input.readWord
    let w := { w with input }
    match result with
    | .ended => (w, .error .inputEnded)
    | .failed fault => (w, .error (.inputFault fault))
    | .word text =>
        match readInt32 text with
        | .ok value => (w.push (.int value), .ok ())
        | .error _ => (w, .error (.notInteger text))

/-- Carries out a primitive and flushes the output. -/
def run (primitive : Primitive) (w : World) : World × Except Cause Unit :=
  let result := match primitive with
    | .print => printing [] w
    | .println => printing ["\n"] w
    | .readint => reading w
  andThen result fun _ w => w.flush

end Primitive

end StackMachine
