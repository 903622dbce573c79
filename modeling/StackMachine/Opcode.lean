import StackMachine.Atom.Arithmetic

/-!
# Opcodes

An instruction begins with an opcode, a byte.  The first twenty-eight have names;
the name of every opcode but the invalid one is a keyword of the source language.
-/

namespace StackMachine

/-- An opcode. -/
inductive Opcode where
  /-- The opcode of no instruction. -/
  | invalid
  | rawMark | classMark | functionMark
  | defun | endef
  | pushi | pushf | pop | dup | load | store | stores
  | binary (operator : BinaryOperator)
  | call | label | goto | branch
  /-- A byte without a meaning, counted from the first such byte. -/
  | reserved (offset : Fin 228)
  deriving DecidableEq, Repr

namespace Opcode

/-- The opcodes with a name, in the order of their bytes. -/
def named : List Opcode :=
  [.invalid, .rawMark, .classMark, .functionMark, .defun, .endef,
    .pushi, .pushf, .pop, .dup, .load, .store, .stores]
    ++ BinaryOperator.all.map .binary
    ++ [.call, .label, .goto, .branch]

/-- The spelling of an opcode. -/
def name : Opcode → String
  | .invalid => "<invalid>"
  | .rawMark => ".raw"
  | .classMark => ".class"
  | .functionMark => ".function"
  | .defun => "defun"
  | .endef => "endef"
  | .pushi => "pushi"
  | .pushf => "pushf"
  | .pop => "pop"
  | .dup => "dup"
  | .load => "load"
  | .store => "store"
  | .stores => "stores"
  | .binary operator => operator.name
  | .call => "call"
  | .label => "label"
  | .goto => "goto"
  | .branch => "branch"
  | .reserved offset => s!"Op({offset.val + 28})"

/-- The byte of an operator. -/
def operatorByte : BinaryOperator → UInt8
  | .add => 13
  | .sub => 14
  | .mul => 15
  | .div => 16
  | .rem => 17
  | .eq => 18
  | .ne => 19
  | .lt => 20
  | .le => 21
  | .gt => 22
  | .ge => 23

/-- The byte of an opcode. -/
def toByte : Opcode → UInt8
  | .invalid => 0
  | .rawMark => 1
  | .classMark => 2
  | .functionMark => 3
  | .defun => 4
  | .endef => 5
  | .pushi => 6
  | .pushf => 7
  | .pop => 8
  | .dup => 9
  | .load => 10
  | .store => 11
  | .stores => 12
  | .binary operator => operatorByte operator
  | .call => 24
  | .label => 25
  | .goto => 26
  | .branch => 27
  | .reserved offset => UInt8.ofNat (offset.val + 28)

/-- The opcode of a byte. -/
def ofByte (byte : UInt8) : Opcode :=
  match named[byte.toNat]? with
  | some opcode => opcode
  | none => .reserved ⟨(byte.toNat - 28) % 228, Nat.mod_lt _ (by decide)⟩

/-- The opcode that a keyword spells. -/
def ofKeyword? (word : String) : Option Opcode :=
  named.find? fun opcode => opcode != .invalid && opcode.name == word

/-- Section marks and function headers, which may not stand inside a function. -/
def isStructural : Opcode → Bool
  | .rawMark | .classMark | .functionMark | .defun => true
  | _ => false

/-- The opcodes a function body may hold. -/
def isExecutable : Opcode → Bool
  | .pushi | .pushf | .pop | .dup | .load | .store | .stores => true
  | .binary _ => true
  | .call | .label | .goto | .branch => true
  | _ => false

end Opcode

end StackMachine
