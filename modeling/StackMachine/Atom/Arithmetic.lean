import StackMachine.Atom.Basic

/-!
# Arithmetic and comparison

The operators that take two atoms.  Integers wrap around at 32 bits; division
truncates.  Operands must be of the same kind, and of a kind the operator knows:
numbers for arithmetic and order, integers only for the remainder, texts for
equality too.
-/

namespace StackMachine

/-- The operators of two operands. -/
inductive BinaryOperator where
  | add | sub | mul | div | rem
  | eq | ne | lt | le | gt | ge
  deriving DecidableEq, Repr

namespace BinaryOperator

/-- All operators, arithmetic first. -/
def all : List BinaryOperator := [.add, .sub, .mul, .div, .rem, .eq, .ne, .lt, .le, .gt, .ge]

/-- The keyword of an operator. -/
def name : BinaryOperator → String
  | .add => "add"
  | .sub => "sub"
  | .mul => "mul"
  | .div => "div"
  | .rem => "rem"
  | .eq => "eq"
  | .ne => "ne"
  | .lt => "lt"
  | .le => "le"
  | .gt => "gt"
  | .ge => "ge"

end BinaryOperator

/-- Why an operator gives no value. -/
inductive OperandError where
  /-- The operator does not take operands of these kinds. -/
  | mismatch (operator : BinaryOperator) (left right : Atom)
  | divisionByZero
  /-- The quotient of the least integer by minus one is out of range. -/
  | overflow
  deriving DecidableEq, Repr

/-- The wording of an operand error. -/
def OperandError.message : OperandError → String
  | .mismatch operator left right =>
      s!"cannot {operator.name} {left.diagnostic} and {right.diagnostic}"
  | .divisionByZero => "division by zero"
  | .overflow => "integer overflow"

namespace BinaryOperator

/-- Whether a comparison holds of operands in a given order. -/
def holds (operator : BinaryOperator) (order : Ordering) : Bool :=
  match operator with
  | .eq => order.isEq
  | .ne => order.isNe
  | .lt => order.isLT
  | .le => order.isLE
  | .gt => order.isGT
  | .ge => order.isGE
  | _ => false

/-- Arithmetic of two integers, modulo `2 ^ 32`. -/
def onInts (operator : BinaryOperator) (left right : Int32) : Except OperandError Atom :=
  match operator with
  | .add => .ok (.int (left + right))
  | .sub => .ok (.int (left - right))
  | .mul => .ok (.int (left * right))
  | .div =>
      if right = 0 then .error .divisionByZero
      else if left = Int32.minValue ∧ right = -1 then .error .overflow
      else .ok (.int (left / right))
  | .rem =>
      if right = 0 then .error .divisionByZero
      else if left = Int32.minValue ∧ right = -1 then .error .overflow
      else .ok (.int (left % right))
  | comparison => .ok (.ofBool (comparison.holds (compare left right)))

/-- Arithmetic of two floating-point numbers.  Every comparison with a NaN is false except
`ne`; there is no remainder. -/
def onFloats (operator : BinaryOperator) (left right : Binary32) : Except OperandError Atom :=
  match operator with
  | .add => .ok (.float (left.add right))
  | .sub => .ok (.float (left.sub right))
  | .mul => .ok (.float (left.mul right))
  | .div => if right.isZero then .error .divisionByZero else .ok (.float (left.div right))
  | .rem => .error (.mismatch .rem (.float left) (.float right))
  | comparison =>
      match left.compare? right with
      | some order => .ok (.ofBool (comparison.holds order))
      | none => .ok (.ofBool (comparison == .ne))

/-- Texts can be compared for equality only. -/
def onTexts (operator : BinaryOperator) (left right : String) : Except OperandError Atom :=
  match operator with
  | .eq => .ok (.ofBool (left == right))
  | .ne => .ok (.ofBool (left != right))
  | other => .error (.mismatch other (.str left) (.str right))

/-- The value of an operator on a left and a right operand. -/
def apply (operator : BinaryOperator) (left right : Atom) : Except OperandError Atom :=
  match left, right with
  | .int l, .int r => operator.onInts l r
  | .float l, .float r => operator.onFloats l r
  | .str l, .str r => operator.onTexts l r
  | l, r => .error (.mismatch operator l r)

end BinaryOperator

end StackMachine
