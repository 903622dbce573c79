import StackMachine.Machine.Primitive
import StackMachine.Program.Basic

/-!
# Executing one instruction

The meaning of each opcode: what it does to the world and where control goes next.
Binary operators take the top of the stack as their left operand.  A branch looks up
its label before it looks at its condition.  A call goes to a primitive first, then
to the first function of the name.
-/

namespace StackMachine

/-- The settings of a run. -/
structure Setup where
  program : Program
  /-- The deepest nesting of calls; only positive settings restrict. -/
  maxDepth : Int64 := 0
  /-- The longest heap; see `Memory.effectiveLimit`. -/
  heapLimit : Int64 := 0

/-- Where control goes after an instruction. -/
inductive Control where
  | next
  | jump (position : CodeIndex)
  | enter (callee : Function)
  deriving DecidableEq

namespace Setup

/-- Calls a function from nesting depth `depth`. -/
def call (setup : Setup) (depth : Nat) (name : String) (w : World) :
    World × Except Cause Control :=
  match Primitive.ofName? name with
  | some primitive => andThen (primitive.run w) fun _ w => (w, .ok .next)
  | none =>
      match setup.program.lookup? name with
      | none => (w, .error (.unknownFunction name))
      | some callee =>
          if 0 < setup.maxDepth.toInt ∧ setup.maxDepth.toInt ≤ depth then
            (w, .error (.callDepth setup.maxDepth))
          else (w, .ok (.enter callee))

/-- Executes a token of a body at nesting depth `depth`. -/
def execute (setup : Setup) (body : Body) (depth : Nat) (token : Token) (w : World) :
    World × Except Cause Control :=
  match token.opcode with
  | .pushi => (w.push (.int token.int), .ok .next)
  | .pushf => (w.push (.float token.float), .ok .next)
  | .pop =>
      match w.memory.stack with
      | [] => (w, .error .stackUnderflow)
      | _ :: rest => (w.withStack rest, .ok .next)
  | .dup =>
      match w.memory.stack with
      | [] => (w, .error .stackUnderflow)
      | top :: _ => (w.push top, .ok .next)
  | .store =>
      match w.memory.stack with
      | [] => (w, .error .stackUnderflow)
      | top :: rest =>
          match Memory.checkStore token.index setup.heapLimit "store" with
          | .error error => (w, .error (.heapLimit error))
          | .ok () =>
              let w := w.withStack rest
              ({ w with memory := w.memory.store token.index.toInt.toNat top }, .ok .next)
  | .stores =>
      match Memory.checkStore token.index setup.heapLimit "stores" with
      | .error error => (w, .error (.heapLimit error))
      | .ok () =>
          ({ w with memory := w.memory.store token.index.toInt.toNat (.str token.name) }, .ok .next)
  | .load =>
      match w.memory.load token.index with
      | .error error => (w, .error (.heapBounds error))
      | .ok a => (w.push a, .ok .next)
  | .binary operator =>
      match w.memory.stack with
      | left :: right :: rest =>
          match operator.apply left right with
          | .error error => (w.withStack rest, .error (.operands error))
          | .ok a => (w.withStack (a :: rest), .ok .next)
      | _ => (w, .error .stackUnderflow)
  | .label => (w, .ok .next)
  | .goto =>
      match body.target? token.index with
      | none => (w, .error (.unknownLabel token.index))
      | some position => (w, .ok (.jump position))
  | .branch =>
      match body.target? token.index with
      | none => (w, .error (.unknownLabel token.index))
      | some position =>
          match w.memory.stack with
          | [] => (w, .error .stackUnderflow)
          | .int condition :: rest =>
              (w.withStack rest, .ok (if condition = 0 then .next else .jump position))
          | other :: rest => (w.withStack rest, .error (.notCondition other))
  | .call => setup.call depth token.name w
  | opcode => (w, .error (.invalidInstruction opcode))

end Setup

end StackMachine
