import StackMachine.Number.Decimal
import StackMachine.Text.Quoted

/-!
# Atoms

The values that a program computes with.  Kinds are numbered by a byte; the five
known kinds carry a value, the numbers left over are kinds that nothing in the
machine produces and everything refuses.
-/

namespace StackMachine

/-- A value of the machine. -/
inductive Atom where
  /-- The absence of a value; what a fresh heap cell holds. -/
  | null
  /-- A reference to a heap cell. -/
  | ref (address : Int64)
  | int (value : Int32)
  | float (value : Binary32)
  | str (text : String)
  /-- A kind beyond the known ones, counted from the first such kind. -/
  | unknown (offset : Fin 251)
  deriving DecidableEq, Repr

namespace Atom

/-- Fresh memory reads as null. -/
instance : Inhabited Atom := ⟨.null⟩

/-- An atom of which only the kind byte is known; its value is the kind's zero. -/
def ofKind (kind : UInt8) : Atom :=
  match kind.toNat with
  | 0 => .null
  | 1 => .ref 0
  | 2 => .int 0
  | 3 => .float .zero
  | 4 => .str ""
  | n => .unknown (Fin.ofNat 251 (n - 5))

/-- The name of an atom's kind. -/
def kindName : Atom → String
  | .null => "Null"
  | .ref _ => "Ref"
  | .int _ => "Int"
  | .float _ => "Float"
  | .str _ => "String"
  | .unknown offset => s!"Kind({offset.val + 5})"

/-- One for true, zero for false. -/
def ofBool (truth : Bool) : Atom := .int (if truth then 1 else 0)

/-- Whether an atom is the null atom. -/
def isNull (a : Atom) : Bool := a == .null

/-- The form used in diagnostics: the kind around the value, texts quoted. -/
def diagnostic : Atom → String
  | .null => "Null"
  | .ref address => s!"Ref({address.toInt})"
  | .int value => s!"Int({value.toInt})"
  | .float value => s!"Float({value.printedText})"
  | .str text => s!"String({quoted text})"
  | .unknown offset => s!"Kind({offset.val + 5})"

/-- The form a program prints: the bare value.  References are not followed. -/
def text : Atom → String
  | .int value => toString value.toInt
  | .float value => value.printedText
  | .str text => text
  | .ref address => s!"@{address.toInt}"
  | .null => "Null"
  | .unknown _ => "Null"

end Atom

end StackMachine
