import StackMachine.Atom.Basic

/-!
# Memory

A running program has an operand stack and a heap.  The heap is addressed by index
and grows on demand: storing at an address extends it with null cells up to that
address.  Reading needs an address below the current length, storing one below a
limit.
-/

namespace StackMachine

/-- A heap address outside the part of the heap that exists. -/
structure BoundsError where
  address : Int64
  length : Nat
  deriving DecidableEq, Repr

/-- The wording of a bounds error. -/
def BoundsError.message (e : BoundsError) : String :=
  s!"heap read @{e.address.toInt} out of bounds (heap length {e.length})"

/-- A store that would take the heap over its limit. -/
structure LimitError where
  address : Int64
  limit : Nat
  operation : String
  deriving DecidableEq, Repr

/-- The wording of a limit error. -/
def LimitError.message (e : LimitError) : String :=
  s!"heap limit {e.limit} exceeded by {e.operation} @{e.address.toInt}"

/-- The operand stack, top first, and the heap. -/
structure Memory where
  stack : List Atom := []
  heap : Array Atom := #[]
  deriving DecidableEq, Repr

namespace Memory

/-- No heap is longer than this. -/
def maxHeap : Nat := 0x1000000

/-- The limit in force under a setting: only settings from 1 to `maxHeap` restrict. -/
def effectiveLimit (setting : Int64) : Nat :=
  if 0 < setting.toInt ∧ setting.toInt ≤ maxHeap then setting.toInt.toNat else maxHeap

/-- The index of a heap cell that exists. -/
def cell? (m : Memory) (address : Int64) : Option (Fin m.heap.size) :=
  if h : 0 ≤ address.toInt ∧ address.toInt.toNat < m.heap.size then
    some ⟨address.toInt.toNat, h.2⟩
  else none

/-- Reads a heap cell. -/
def load (m : Memory) (address : Int64) : Except BoundsError Atom :=
  match m.cell? address with
  | some index => .ok m.heap[index]
  | none => .error ⟨address, m.heap.size⟩

/-- Whether a store at an address keeps the heap within a limit. -/
def checkStore (address setting : Int64) (operation : String) : Except LimitError Unit :=
  if 0 ≤ address.toInt ∧ address.toInt < effectiveLimit setting then .ok ()
  else .error ⟨address, effectiveLimit setting, operation⟩

/-- Extends a heap with null cells to a length. -/
def grow (heap : Array Atom) (length : Nat) : Array Atom :=
  heap ++ Array.replicate (length - heap.size) Atom.null

/-- Writes a heap cell, growing the heap as needed. -/
def store (m : Memory) (index : Nat) (a : Atom) : Memory :=
  { m with heap := (grow m.heap (index + 1)).setIfInBounds index a }

/-- Pushes an atom. -/
def push (m : Memory) (a : Atom) : Memory := { m with stack := a :: m.stack }

/-- The stack as it is listed: bottom first. -/
def bottomUp (m : Memory) : List Atom := m.stack.reverse

/-- The cells that hold a value, with their indices. -/
def occupied (m : Memory) : List (Nat × Atom) :=
  (m.heap.foldl (fun (found, index) a =>
    (if a.isNull then found else (index, a) :: found, index + 1)) ([], 0)).1.reverse

end Memory

end StackMachine
