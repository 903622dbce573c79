import StackMachine.Number.Binary32

/-!
# Shortest decimals

A finite single-precision number is written with the fewest decimal digits that
read back as the same number, and of the decimals of that length with the one
closest to it.  The decimals that read back are those between the midpoints to
the two neighbouring numbers, the midpoints themselves included exactly when the
pattern is even.  Nine digits always suffice.
-/

namespace StackMachine

/-- The decimal number `digits * 10 ^ exponent`. -/
structure Decimal where
  digits : Nat
  exponent : Int
  deriving DecidableEq, Repr

namespace Decimal

/-- A step of the grid of multiples of `10 ^ exponent`, as a ratio of single-precision units. -/
def gridStep (exponent : Int) : Nat × Nat :=
  (Nat.pow 10 exponent.toNat * Nat.pow 2 BinaryFormat.single.unitExponent,
    Nat.pow 10 (-exponent).toNat)

/-- The decimal lies between the midpoints around a pattern, so that reading it gives the
pattern back. -/
def readsBackAs (pattern : Nat) (decimal : Decimal) : Bool :=
  let (num, den) := gridStep decimal.exponent
  let here := BinaryFormat.single.magnitude pattern
  let below := (here + BinaryFormat.single.magnitude (pattern - 1)) * den
  let above := (here + BinaryFormat.single.magnitude (pattern + 1)) * den
  let point := 2 * decimal.digits * num
  if pattern % 2 = 0 then below ≤ point && point ≤ above else below < point && point < above

/-- The multiple of `10 ^ exponent` that reads back as a pattern, if there is one: of the two
neighbours of the value on that grid the closer, and of two equally close the even one. -/
def onGrid? (pattern : Nat) (exponent : Int) : Option Decimal :=
  let (num, den) := gridStep exponent
  let here := BinaryFormat.single.magnitude pattern * den
  let low : Decimal := ⟨here / num, exponent⟩
  let high : Decimal := ⟨here / num + 1, exponent⟩
  match readsBackAs pattern low, readsBackAs pattern high with
  | false, false => none
  | true, false => some low
  | false, true => some high
  | true, true =>
      match compare (here - low.digits * num) (high.digits * num - here) with
      | .lt => some low
      | .gt => some high
      | .eq => some (if low.digits % 2 = 0 then low else high)

/-- The power of ten of the leading digit of a positive finite pattern. -/
def leadingExponent (pattern : Nat) : Int :=
  let scaled := BinaryFormat.single.magnitude pattern * Nat.pow 10 45
    / Nat.pow 2 BinaryFormat.single.unitExponent
  ((Nat.toDigits 10 scaled).length : Int) - 46

/-- Tries ever finer grids, at most `count` of them. -/
def search (pattern : Nat) : Nat → Int → Option Decimal
  | 0, _ => none
  | count + 1, exponent =>
      match onGrid? pattern exponent with
      | some decimal => some decimal
      | none => search pattern count (exponent - 1)

/-- The shortest decimal of a finite pattern; zero is a single digit. -/
def shortest (pattern : Nat) : Decimal :=
  if pattern = 0 then ⟨0, 0⟩
  else (search pattern 9 (leadingExponent pattern)).getD ⟨0, 0⟩

/-- The digits without trailing zeros, and the place of the decimal point counted from the
left of the first digit. -/
def significant (decimal : Decimal) : List Char × Int :=
  let digits := Nat.toDigits 10 decimal.digits
  let kept := (digits.reverse.dropWhile (· == '0')).reverse
  if kept.isEmpty then (['0'], 1) else (kept, digits.length + decimal.exponent)

/-- Plain decimal notation, with zeros filled in up to the point. -/
def positional (digits : List Char) (point : Int) : List Char :=
  if point ≤ 0 then
    '0' :: '.' :: (List.replicate (-point).toNat '0' ++ digits)
  else
    let whole := point.toNat
    let fraction := digits.drop whole
    digits.take whole ++ List.replicate (whole - digits.length) '0'
      ++ (if fraction.isEmpty then [] else '.' :: fraction)

/-- Exponent notation: one digit before the point, a signed exponent of at least two digits. -/
def scientific (digits : List Char) (point : Int) : List Char :=
  let exponent := point - 1
  let size := Nat.toDigits 10 exponent.natAbs
  let fraction := digits.drop 1
  digits.take 1 ++ (if fraction.isEmpty then [] else '.' :: fraction)
    ++ ['e', if exponent < 0 then '-' else '+']
    ++ List.replicate (2 - size.length) '0' ++ size

end Decimal

namespace Binary32

/-- A finite number's sign and shortest decimal, laid out by `layout`. -/
def finiteText (layout : List Char → Int → List Char) (x : Binary32) : String :=
  let (digits, point) := (Decimal.shortest x.pattern).significant
  String.ofList ((if x.isNegative then ['-'] else []) ++ layout digits point)

/-- How instructions write a number: exponent notation below `1e-4` and from `1e6` on. -/
def instructionText (x : Binary32) : String :=
  if x.isNaN then "NaN"
  else if x.isInfinite then (if x.isNegative then "-Inf" else "+Inf")
  else x.finiteText fun digits point =>
    if point - 1 < -4 || 6 ≤ point - 1 then Decimal.scientific digits point
    else Decimal.positional digits point

/-- How values are printed: never with an exponent. -/
def printedText (x : Binary32) : String :=
  if x.isNaN then "NaN"
  else if x.isInfinite then (if x.isNegative then "-inf" else "inf")
  else x.finiteText Decimal.positional

end Binary32

end StackMachine
