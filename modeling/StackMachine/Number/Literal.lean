import StackMachine.Number.Binary32
import StackMachine.Number.Integer

/-!
# Floating-point literals

A literal is a decimal or hexadecimal number, an infinity or a NaN.  Its exact
value is rounded once, straight to single precision; a value out of range becomes
an infinity.  Hexadecimal literals must have a binary exponent.  Underscores may
separate digits.
-/

namespace StackMachine

/-- The digits before the exponent of a literal: their value, how many of them stand after the
point, and whether there were any. -/
structure Significand where
  value : Nat := 0
  places : Nat := 0
  pointSeen : Bool := false
  digitSeen : Bool := false
  deriving DecidableEq, Repr

namespace Significand

/-- One more digit. -/
def push (base digit : Nat) (s : Significand) : Significand :=
  { s with
    value := s.value * base + digit
    places := if s.pointSeen then s.places + 1 else s.places
    digitSeen := true }

/-- Reads digits, underscores and at most one point, up to the first other character. -/
def read (base : Nat) : Significand → List Char → Significand × List Char
  | s, [] => (s, [])
  | s, c :: rest =>
      if c == '_' then read base s rest
      else if c == '.' then
        if s.pointSeen then (s, c :: rest) else read base { s with pointSeen := true } rest
      else
        match alphanumericValue? c with
        | some digit => if digit < base then read base (s.push base digit) rest else (s, c :: rest)
        | none => (s, c :: rest)

end Significand

namespace Literal

/-- The digits of an exponent.  Beyond ten thousand the digits no longer count: the number is
zero or infinite whatever they are. -/
def readExponentDigits : Nat → List Char → Option Nat
  | size, [] => some size
  | size, c :: rest =>
      if c == '_' then readExponentDigits size rest
      else if c.isDigit then
        readExponentDigits (if size < 10000 then size * 10 + digitValue c else size) rest
      else none

/-- An exponent that ends the literal: optional sign, a digit, more digits. -/
def readExponent? (text : List Char) : Option Int :=
  let magnitude? (digits : List Char) : Option Nat :=
    match digits with
    | c :: _ => if c.isDigit then readExponentDigits 0 digits else none
    | [] => none
  match text with
  | '+' :: digits => (magnitude? digits).map fun size => (size : Int)
  | '-' :: digits => (magnitude? digits).map fun size => -(size : Int)
  | digits => (magnitude? digits).map fun size => (size : Int)

/-- A decimal literal without its sign: a whole number and the power of ten it is to be multiplied
with. -/
def decimalParts? (text : List Char) : Option (Nat × Int) := do
  let (significand, rest) := Significand.read 10 {} text
  guard significand.digitSeen
  let exponent ← match rest with
    | [] => some 0
    | c :: digits => if c == 'e' || c == 'E' then readExponent? digits else none
  return (significand.value, exponent - significand.places)

/-- A decimal literal whose number double precision can hold. -/
def isFiniteDouble (text : List Char) : Bool :=
  match decimalParts? text with
  | none => false
  | some (value, exponent) =>
      let format := BinaryFormat.double
      format.nearest (value * Nat.pow 10 exponent.toNat * Nat.pow 2 format.unitExponent)
        (Nat.pow 10 (-exponent).toNat) < format.infinity

end Literal

namespace Binary32

/-- The number nearest to `value * base ^ exponent`. -/
def ofScaled (negative : Bool) (value base : Nat) (exponent : Int) : Binary32 :=
  nearest negative
    (value * Nat.pow base exponent.toNat * Nat.pow 2 BinaryFormat.single.unitExponent)
    (Nat.pow base (-exponent).toNat)

/-- The number of a decimal literal without its sign. -/
def readDecimal? (negative : Bool) (text : List Char) : Option Binary32 :=
  (Literal.decimalParts? text).map fun (value, exponent) => ofScaled negative value 10 exponent

/-- A hexadecimal literal without its sign and base mark. -/
def readHexadecimal? (negative : Bool) (text : List Char) : Option Binary32 := do
  let (significand, rest) := Significand.read 16 {} text
  guard significand.digitSeen
  let exponent ← match rest with
    | [] => none
    | c :: digits => if c == 'p' || c == 'P' then Literal.readExponent? digits else none
  return ofScaled negative significand.value 2 (exponent - 4 * significand.places)

/-- A finite literal without its sign. -/
def readUnsigned? (negative : Bool) (text : List Char) : Option Binary32 :=
  match text with
  | '0' :: c :: d :: rest =>
      if c == 'x' || c == 'X' then readHexadecimal? negative (d :: rest)
      else readDecimal? negative text
  | _ => readDecimal? negative text

/-- The words for infinity, in any case. -/
def isInfinityWord (text : List Char) : Bool :=
  let lower := text.map Char.toLower
  lower == "inf".toList || lower == "infinity".toList

/-- A literal of known sign. -/
def readMagnitude? (negative : Bool) (text : List Char) : Option Binary32 :=
  if isInfinityWord text then some (infinity negative) else readUnsigned? negative text

/-- The number a word spells.  A NaN takes no sign. -/
def read? (word : String) : Option Binary32 :=
  let text := word.toList
  if text.map Char.toLower == "nan".toList then some nan
  else if text.contains '_' && !underscoresSeparate text then none
  else match text with
    | '+' :: rest => readMagnitude? false rest
    | '-' :: rest => readMagnitude? true rest
    | rest => readMagnitude? false rest

end Binary32

end StackMachine
