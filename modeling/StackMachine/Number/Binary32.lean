import StackMachine.Number.Rounding

/-!
# Single-precision numbers

A number of the machine is a 32-bit pattern.  The arithmetic is exact on the values
of the operands and rounds once, to the nearest pattern; comparison looks at the
values only, so the two zeros are equal and a NaN is unordered.
-/

namespace StackMachine

/-- A single-precision number, given by its bits. -/
structure Binary32 where
  bits : UInt32
  deriving DecidableEq, Repr

namespace Binary32

/-- The sign bit is set. -/
def isNegative (x : Binary32) : Bool := 0x80000000 ≤ x.bits

/-- The bits below the sign. -/
def pattern (x : Binary32) : Nat := x.bits.toNat % BinaryFormat.single.signBit

/-- The number with a given sign and pattern. -/
def ofPattern (negative : Bool) (pattern : Nat) : Binary32 :=
  ⟨UInt32.ofNat (if negative then BinaryFormat.single.signBit + pattern else pattern)⟩

/-- The patterns above infinity are not numbers. -/
def isNaN (x : Binary32) : Bool := BinaryFormat.single.infinity < x.pattern

/-- One of the two infinities. -/
def isInfinite (x : Binary32) : Bool := x.pattern == BinaryFormat.single.infinity

/-- One of the two zeros. -/
def isZero (x : Binary32) : Bool := x.pattern == 0

/-- The NaN that operations give. -/
def nan : Binary32 := ⟨0x7FC00000⟩

/-- Positive zero. -/
def zero : Binary32 := ⟨0⟩

/-- The infinity of a given sign. -/
def infinity (negative : Bool) : Binary32 := ofPattern negative BinaryFormat.single.infinity

/-- The size of a finite number in units. -/
def units (x : Binary32) : Nat := BinaryFormat.single.magnitude x.pattern

/-- The value of a finite number in units; the infinities lie beyond every finite value. -/
def value (x : Binary32) : Int := if x.isNegative then -(x.units : Int) else x.units

/-- The number nearest to `num / den` units of a given sign. -/
def nearest (negative : Bool) (num den : Nat) : Binary32 :=
  ofPattern negative (BinaryFormat.single.nearest num den)

/-- The number of the opposite sign. -/
def negate (x : Binary32) : Binary32 := ⟨x.bits ^^^ 0x80000000⟩

/-- The sum.  A sum of zero is positive unless both operands are negative. -/
def add (x y : Binary32) : Binary32 :=
  if x.isNaN || y.isNaN then nan
  else if x.isInfinite then
    if y.isInfinite && x.isNegative != y.isNegative then nan else x
  else if y.isInfinite then y
  else
    let sum := x.value + y.value
    if sum = 0 then ofPattern (x.isNegative && y.isNegative) 0
    else nearest (sum < 0) sum.natAbs 1

/-- The difference: the sum with the second operand negated. -/
def sub (x y : Binary32) : Binary32 := x.add y.negate

/-- The product.  Zero times infinity is not a number. -/
def mul (x y : Binary32) : Binary32 :=
  let negative := x.isNegative != y.isNegative
  if x.isNaN || y.isNaN then nan
  else if x.isInfinite || y.isInfinite then
    if x.isZero || y.isZero then nan else infinity negative
  else nearest negative (x.units * y.units) (Nat.pow 2 BinaryFormat.single.unitExponent)

/-- The quotient by a number that is not zero. -/
def div (x y : Binary32) : Binary32 :=
  let negative := x.isNegative != y.isNegative
  if x.isNaN || y.isNaN then nan
  else if x.isInfinite then
    if y.isInfinite then nan else infinity negative
  else if y.isInfinite then ofPattern negative 0
  else nearest negative (x.units * Nat.pow 2 BinaryFormat.single.unitExponent) y.units

/-- The order of two numbers; none if one of them is a NaN. -/
def compare? (x y : Binary32) : Option Ordering :=
  if x.isNaN || y.isNaN then none else some (compare x.value y.value)

end Binary32

end StackMachine
