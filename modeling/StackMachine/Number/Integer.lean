/-!
# Integer words

Decimal integers in a given range.  A word is refused at its first fault from the
left: a character that is no digit, or a digit that takes the number out of range.
-/

namespace StackMachine

/-- Why a word is not a number. -/
inductive NumberFault where
  | syntactic
  | range
  deriving DecidableEq, Repr

/-- The wording of a fault. -/
def NumberFault.message : NumberFault → String
  | .syntactic => "invalid syntax"
  | .range => "value out of range"

/-- The value of an ASCII digit. -/
def digitValue (c : Char) : Nat := c.toNat - '0'.toNat

/-- Reads the remaining digits of a number of which `value` has been read already. -/
def readDigitsFrom (largest : Nat) : Nat → List Char → Except NumberFault Nat
  | value, [] => .ok value
  | value, c :: rest =>
      if c.isDigit then
        let value := value * 10 + digitValue c
        if value ≤ largest then readDigitsFrom largest value rest else .error .range
      else .error .syntactic

/-- A nonempty run of digits whose value is at most `largest`. -/
def readDigits (largest : Nat) (digits : List Char) : Except NumberFault Nat :=
  if digits.isEmpty then .error .syntactic else readDigitsFrom largest 0 digits

/-- The digits of a number are read up to the largest unsigned word before the sign is
considered; a negative number may be one larger in size than a positive one. -/
def readSigned (width : Nat) (negative : Bool) (digits : List Char) : Except NumberFault Int :=
  match readDigits (Nat.pow 2 width - 1) digits with
  | .error fault => .error fault
  | .ok size =>
      if negative then
        if size ≤ Nat.pow 2 (width - 1) then .ok (-(size : Int)) else .error .range
      else
        if size < Nat.pow 2 (width - 1) then .ok size else .error .range

/-- A word with an optional sign, in the range of the integers of `width` bits. -/
def readInteger (width : Nat) (word : String) : Except NumberFault Int :=
  match word.toList with
  | '+' :: digits => readSigned width false digits
  | '-' :: digits => readSigned width true digits
  | digits => readSigned width false digits

/-- A 32-bit integer word. -/
def readInt32 (word : String) : Except NumberFault Int32 :=
  (readInteger 32 word).map Int32.ofInt

/-- An index word: digits only, below `2 ^ 63`. -/
def readIndex (word : String) : Except NumberFault Int64 :=
  (readDigits 0x7FFFFFFFFFFFFFFF word.toList).map Int64.ofNat

/-- A prefix that chooses a base, and the rest of the number. -/
def splitBase : List Char → Nat × List Char
  | '0' :: c :: rest =>
      if (c == 'x' || c == 'X') && !rest.isEmpty then (16, rest)
      else if (c == 'b' || c == 'B') && !rest.isEmpty then (2, rest)
      else if (c == 'o' || c == 'O') && !rest.isEmpty then (8, rest)
      else (8, c :: rest)
  | digits => (10, digits)

/-- The value of a digit in any base up to 36. -/
def alphanumericValue? (c : Char) : Option Nat :=
  if c.isDigit then some (digitValue c)
  else if 'a' ≤ c ∧ c ≤ 'z' then some (c.toNat - 'a'.toNat + 10)
  else if 'A' ≤ c ∧ c ≤ 'Z' then some (c.toNat - 'A'.toNat + 10)
  else none

/-- Reads digits of a base, passing over underscores. -/
def readBaseDigits (base largest : Nat) : Nat → List Char → Except NumberFault Nat
  | value, [] => .ok value
  | value, '_' :: rest => readBaseDigits base largest value rest
  | value, c :: rest =>
      match alphanumericValue? c with
      | some digit =>
          if digit < base then
            let value := value * base + digit
            if value ≤ largest then readBaseDigits base largest value rest else .error .range
          else .error .syntactic
      | none => .error .syntactic

/-- What stands before an underscore: a digit (or base mark), an underscore, or neither. -/
inductive Separated where
  | digit
  | underscore
  | other
  deriving DecidableEq, Repr

/-- Each underscore stands between two digits. -/
def underscoresSeparateFrom (hex : Bool) : Separated → List Char → Bool
  | last, [] => last != .underscore
  | last, c :: rest =>
      if c.isDigit || (hex && (('a' ≤ c && c ≤ 'f') || ('A' ≤ c && c ≤ 'F'))) then
        underscoresSeparateFrom hex .digit rest
      else if c == '_' then
        last == .digit && underscoresSeparateFrom hex .underscore rest
      else
        last != .underscore && underscoresSeparateFrom hex .other rest

/-- The underscores of a number are between digits, or between a base mark and a digit. -/
def underscoresSeparate (word : List Char) : Bool :=
  let unsigned := match word with
    | '+' :: rest => rest
    | '-' :: rest => rest
    | rest => rest
  match unsigned with
  | '0' :: c :: rest =>
      if c == 'x' || c == 'X' then underscoresSeparateFrom true .digit rest
      else if c == 'b' || c == 'B' || c == 'o' || c == 'O' then
        underscoresSeparateFrom false .digit rest
      else underscoresSeparateFrom false .other unsigned
  | _ => underscoresSeparateFrom false .other unsigned

/-- The size of an unsigned literal with an optional base prefix and underscores. -/
def readLiteralSize (largest : Nat) (word : List Char) : Except NumberFault Nat :=
  if word.isEmpty then .error .syntactic
  else
    let (base, digits) := splitBase word
    match readBaseDigits base largest 0 digits with
    | .error fault => .error fault
    | .ok size =>
        if word.contains '_' && !underscoresSeparate word then .error .syntactic else .ok size

/-- A 64-bit integer literal: optional sign, base prefix and underscores. -/
def readLiteral (word : String) : Except NumberFault Int :=
  let signed (negative : Bool) (digits : List Char) : Except NumberFault Int :=
    match readLiteralSize 0xFFFFFFFFFFFFFFFF digits with
    | .error fault => .error fault
    | .ok size =>
        if negative then
          if size ≤ 0x8000000000000000 then .ok (-(size : Int)) else .error .range
        else
          if size < 0x8000000000000000 then .ok size else .error .range
  match word.toList with
  | '+' :: digits => signed false digits
  | '-' :: digits => signed true digits
  | digits => signed false digits

end StackMachine
