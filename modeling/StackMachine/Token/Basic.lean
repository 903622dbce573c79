import StackMachine.Opcode

/-!
# Tokens

A token is an opcode with its operands.  All tokens have the same operand fields;
each opcode uses some of them, and the source text of a token shows those only.
-/

namespace StackMachine

/-- The kind of a declared type. -/
inductive TypeKind where
  | void | int | float | string | object
  /-- A kind beyond the known ones, counted from the first such kind. -/
  | reserved (offset : Fin 251)
  deriving DecidableEq, Repr

namespace TypeKind

/-- The byte of a kind. -/
def toByte : TypeKind → UInt8
  | .void => 0
  | .int => 1
  | .float => 2
  | .string => 3
  | .object => 4
  | .reserved offset => UInt8.ofNat (offset.val + 5)

/-- The known kinds, in the order of their bytes. -/
def known : List TypeKind := [.void, .int, .float, .string, .object]

/-- The kind of a byte. -/
def ofByte (byte : UInt8) : TypeKind :=
  match known[byte.toNat]? with
  | some kind => kind
  | none => .reserved ⟨(byte.toNat - 5) % 251, Nat.mod_lt _ (by decide)⟩

end TypeKind

/-- A type in the declaration of a function.  Declarations are never checked. -/
structure DeclaredType where
  kind : TypeKind := .void
  /-- The name of a class. -/
  className : String := ""
  deriving DecidableEq, Repr

namespace DeclaredType

/-- The type that a word names: one of four words for the basic types, or a class. -/
def ofWord (word : String) : DeclaredType :=
  if word = "int" then ⟨.int, ""⟩
  else if word = "float" then ⟨.float, ""⟩
  else if word = "string" then ⟨.string, ""⟩
  else if word = "NULL" then ⟨.void, ""⟩
  else ⟨.object, word⟩

/-- The word of a type. -/
def text (type : DeclaredType) : String :=
  match type.kind with
  | .void => "NULL"
  | .int => "int"
  | .float => "float"
  | .string => "string"
  | .object => type.className
  | .reserved _ => type.className

end DeclaredType

/-- An opcode and its operands. -/
structure Token where
  opcode : Opcode := .invalid
  /-- The integer that `pushi` pushes. -/
  int : Int32 := 0
  /-- The number that `pushf` pushes. -/
  float : Binary32 := .zero
  /-- A heap address or the id of a label. -/
  index : Int64 := 0
  /-- The declared size of a text literal. -/
  size : Int64 := 0
  /-- A function's name or a text literal. -/
  name : String := ""
  /-- The parameter types of a function header. -/
  params : List DeclaredType := []
  /-- The result type of a function header. -/
  result : DeclaredType := {}
  deriving DecidableEq, Repr

/-- The source text of a token. -/
def Token.text (token : Token) : String :=
  match token.opcode with
  | .pushi => s!"pushi {token.int.toInt}"
  | .pushf => "pushf " ++ token.float.instructionText
  | .load | .store | .label | .goto | .branch =>
      token.opcode.name ++ s!" {token.index.toInt}"
  | .stores => s!"stores {token.index.toInt} {token.size.toInt} \"" ++ token.name ++ "\""
  | .call => "call " ++ token.name
  | .defun =>
      s!"defun {token.name} {token.params.length}"
        ++ String.join (token.params.map fun type => " " ++ type.text)
        ++ " " ++ token.result.text
  | opcode => opcode.name

/-- A token with the row of the source text, counted from zero, on which its keyword stands. -/
structure Instruction where
  token : Token
  row : Nat
  deriving DecidableEq, Repr

/-- A token on a row, as messages about a source show it. -/
def Token.textOnRow (token : Token) (row : Int) : String :=
  s!"{token.text} (row {row})"

/-- An instruction as messages about a source show it. -/
def Instruction.text (instruction : Instruction) : String :=
  instruction.token.textOnRow instruction.row

end StackMachine
