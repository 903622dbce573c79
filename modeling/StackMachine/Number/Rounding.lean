/-!
# Binary floating-point formats

A format is fixed by its precision and the width of its exponent field.  Every
finite magnitude of a format is a whole multiple of its smallest positive one, the
*unit* `2 ^ (-unitExponent)`, so exact arithmetic is arithmetic of natural numbers
of units.  The magnitudes in order, infinity last, are numbered by the bits below
the sign; `magnitude` goes from the number to the units, `nearest` from any
nonnegative ratio of units back to a number.
-/

namespace StackMachine

/-- The integer nearest to `num / den`; an exact half goes to the even neighbour. -/
def divNearestEven (num den : Nat) : Nat :=
  let quotient := num / den
  let remainder := num % den
  if 2 * remainder < den then quotient
  else if den < 2 * remainder then quotient + 1
  else quotient + quotient % 2

/-- A binary interchange format. -/
structure BinaryFormat where
  /-- Bits of a significand, the leading one included. -/
  precision : Nat
  /-- Bits of the exponent field. -/
  exponentWidth : Nat
  deriving DecidableEq, Repr

namespace BinaryFormat

/-- The half, single and double formats. -/
def half : BinaryFormat := ⟨11, 5⟩

@[inherit_doc half]
def single : BinaryFormat := ⟨24, 8⟩

@[inherit_doc half]
def double : BinaryFormat := ⟨53, 11⟩

variable (format : BinaryFormat)

/-- Patterns that share an exponent field. -/
def binade : Nat := Nat.pow 2 (format.precision - 1)

/-- The smallest positive magnitude is two to the minus this. -/
def unitExponent : Nat := Nat.pow 2 (format.exponentWidth - 1) + format.precision - 3

/-- The pattern of infinity; larger patterns are not numbers. -/
def infinity : Nat := (Nat.pow 2 format.exponentWidth - 1) * format.binade

/-- The pattern of the sign alone. -/
def signBit : Nat := Nat.pow 2 format.exponentWidth * format.binade

/-- The units of a finite pattern.  At infinity this is the first magnitude out of range. -/
def magnitude (pattern : Nat) : Nat :=
  let exponent := pattern / format.binade
  let fraction := pattern % format.binade
  if exponent = 0 then fraction else (format.binade + fraction) * Nat.pow 2 (exponent - 1)

/-- The pattern nearest to `num / den` units, a tie going to the even pattern.  Magnitudes
that round beyond the largest finite one give infinity. -/
def nearest (num den : Nat) : Nat :=
  let excess := Nat.log2 (num / den) + 1 - format.precision
  min (excess * format.binade + divNearestEven num (den * Nat.pow 2 excess)) format.infinity

end BinaryFormat

end StackMachine
