import StackMachine.Number.Rounding
import StackMachine.Text.Quoted
import StackMachine.Text.Utf8

/-!
# Durations

A duration is a signed number of nanoseconds.  Its written form is a sign and a
sequence of parts, each a decimal number with a unit; the parts are added up.  The
fraction of a part is converted in double precision and then cut to whole
nanoseconds.
-/

namespace StackMachine

/-- A signed span of time. -/
structure Duration where
  nanoseconds : Int64 := 0
  deriving DecidableEq, Repr, Inhabited

namespace Duration

/-- Why a text is not a duration. -/
inductive Fault where
  | invalid
  | missingUnit
  | unknownUnit (unit : Bytes)
  deriving DecidableEq, Repr

/-- A text that is not a duration. -/
structure Malformed where
  text : Bytes
  fault : Fault
  deriving DecidableEq, Repr

/-- Bytes between double quotes: control bytes and bytes beyond ASCII are shown by their number. -/
def quotedBytes (bytes : Bytes) : String :=
  let shown (byte : UInt8) : List Char :=
    let c := Char.ofNat byte.toNat
    if byte < 0x20 || 0x7F < byte then '\\' :: 'x' :: hexadecimal 2 byte.toNat
    else if c == '"' || c == '\\' then ['\\', c]
    else [c]
  String.ofList ('"' :: bytes.flatMap shown ++ ['"'])

/-- The wording of the error. -/
def Malformed.message (e : Malformed) : String :=
  match e.fault with
  | .invalid => "time: invalid duration " ++ quotedBytes e.text
  | .missingUnit => "time: missing unit in duration " ++ quotedBytes e.text
  | .unknownUnit unit =>
      "time: unknown unit " ++ quotedBytes unit ++ " in duration " ++ quotedBytes e.text

/-! ## Reading -/

/-- The units and their lengths in nanoseconds.  The micro sign may also be the Greek letter. -/
def units : List (String × Nat) :=
  [("ns", 1), ("us", 1000), ("µs", 1000), ("μs", 1000), ("ms", 1000000), ("s", 1000000000),
    ("m", 60000000000), ("h", 3600000000000)]

/-- The length of a unit. -/
def unitLength? (unit : Bytes) : Option Nat :=
  (units.find? fun (name, _) => Utf8.encode name == unit).map Prod.snd

/-- The largest size of a duration, which only a negative one can have. -/
def largest : Nat := 0x8000000000000000

/-- A byte that is an ASCII digit. -/
def isDigit (byte : UInt8) : Bool := 0x30 ≤ byte && byte ≤ 0x39

/-- The value of a digit. -/
def digitOf (byte : UInt8) : Nat := byte.toNat - 0x30

/-- A decimal point. -/
def point : UInt8 := 0x2E

/-- A byte that can belong to a unit. -/
def isUnitByte (byte : UInt8) : Bool := !isDigit byte && byte != point

/-- The number that digits spell, unless it is too large. -/
def wholeFrom : (value : Nat) → (digits : Bytes) → Option Nat
  | value, [] => some value
  | value, digit :: rest =>
      let value := value * 10 + digitOf digit
      if value ≤ largest then wholeFrom value rest else none

/-- The number that the digits of a fraction spell, and how many of them it took: from the first
digit that would make it too large on, digits are dropped. -/
def fractionFrom : (value places : Nat) → (digits : Bytes) → Nat × Nat
  | value, places, [] => (value, places)
  | value, places, digit :: rest =>
      let next := value * 10 + digitOf digit
      if next ≤ largest then fractionFrom next (places + 1) rest else (value, places)

/-- The double nearest to `num / den`, in units of the format. -/
def roundedUnits (num den : Nat) : Nat :=
  BinaryFormat.double.magnitude (BinaryFormat.double.nearest num den)

/-- The whole nanoseconds of `value / 10 ^ places` of a unit: the unit is divided and the quotient
multiplied in double precision. -/
def fractionLength (value places unit : Nat) : Nat :=
  let one := Nat.pow 2 BinaryFormat.double.unitExponent
  let share := roundedUnits (unit * one) (Nat.pow 10 places)
  roundedUnits (roundedUnits (value * one) 1 * share) one / one

/-- A decimal number and its unit at the start of a text. -/
structure Part where
  whole : Bytes
  fraction : Bytes
  unit : Bytes
  rest : Bytes
  deriving DecidableEq, Repr

namespace Part

/-- The digits after a decimal point, and what follows them. -/
def splitFraction : Bytes → Bytes × Bytes
  | [] => ([], [])
  | byte :: rest =>
      if byte == point then (rest.takeWhile isDigit, rest.dropWhile isDigit)
      else ([], byte :: rest)

/-- Takes the first part off a text. -/
def split (text : Bytes) : Part :=
  let (fraction, tail) := splitFraction (text.dropWhile isDigit)
  { whole := text.takeWhile isDigit
    fraction
    unit := tail.takeWhile isUnitByte
    rest := tail.dropWhile isUnitByte }

theorem length_splitFraction_le (text : Bytes) :
    (splitFraction text).2.length ≤ text.length := by
  cases text with
  | nil => simp [splitFraction]
  | cons byte rest =>
      simp only [splitFraction]
      split
      · have := (List.dropWhile_suffix (l := rest) isDigit).length_le
        simp only [List.length_cons]
        omega
      · simp

/-- A part with a unit is not empty. -/
theorem length_rest_lt {text : Bytes} (h : (split text).unit ≠ []) :
    (split text).rest.length < text.length := by
  simp only [split] at h ⊢
  have whole := (List.dropWhile_suffix (l := text) isDigit).length_le
  have fraction := length_splitFraction_le (text.dropWhile isDigit)
  have tail := congrArg List.length
    (List.takeWhile_append_dropWhile (p := isUnitByte)
      (l := (splitFraction (text.dropWhile isDigit)).2))
  have unit := List.length_pos_iff.mpr h
  simp only [List.length_append] at tail
  omega

/-- The length of a part in nanoseconds, with the length of its unit given. -/
def length? (part : Part) (whole unit : Nat) : Option Nat :=
  if largest / unit < whole then none
  else
    let (value, places) := fractionFrom 0 0 part.fraction
    let length := whole * unit + (if value = 0 then 0 else fractionLength value places unit)
    if length ≤ largest then some length else none

end Part

/-- Adds up the parts of a text.  The sum is kept in a word of 64 bits and checked after each
part. -/
def sumFrom (total : Nat) (text : Bytes) : Except Fault Nat :=
  if text.isEmpty then .ok total
  else
    let part := Part.split text
    if part.whole.isEmpty && part.fraction.isEmpty then .error .invalid
    else
      match wholeFrom 0 part.whole with
      | none => .error .invalid
      | some whole =>
          if _h : part.unit = [] then .error .missingUnit
          else
            match unitLength? part.unit with
            | none => .error (.unknownUnit part.unit)
            | some unit =>
                match part.length? whole unit with
                | none => .error .invalid
                | some length =>
                    let total := (total + length) % 0x10000000000000000
                    if largest < total then .error .invalid else sumFrom total part.rest
termination_by text.length
decreasing_by exact Part.length_rest_lt _h

/-- The size of a duration without its sign: parts, or a lone zero. -/
def readSize (text : Bytes) : Except Fault Nat :=
  if text == Utf8.encode "0" then .ok 0
  else if text.isEmpty then .error .invalid
  else sumFrom 0 text

/-- A duration with an optional sign. -/
def readFault (text : Bytes) : Except Fault Duration :=
  let positive (size : Bytes) : Except Fault Duration :=
    match readSize size with
    | .error fault => .error fault
    | .ok size => if size < largest then .ok ⟨Int64.ofNat size⟩ else .error .invalid
  match text with
  | [] => .error .invalid
  | first :: rest =>
      if first == 0x2D then (readSize rest).map fun size => ⟨Int64.ofInt (-(size : Int))⟩
      else if first == 0x2B then positive rest
      else positive text

/-- Reads a duration such as `1h2.5s`. -/
def read (text : Bytes) : Except Malformed Duration :=
  match readFault text with
  | .ok duration => .ok duration
  | .error fault => .error ⟨text, fault⟩

/-! ## Writing -/

/-- A number of units of `10 ^ (-places)`, without trailing zeros after the point. -/
def decimalText (size places : Nat) : String :=
  let digits := Nat.toDigits 10 (size % Nat.pow 10 places)
  let padded := List.replicate (places - digits.length) '0' ++ digits
  let kept := (padded.reverse.dropWhile (· == '0')).reverse
  toString (size / Nat.pow 10 places)
    ++ (if kept.isEmpty then "" else String.ofList ('.' :: kept))

/-- The text of a size: below a second in the largest fitting unit, else in hours, minutes and
seconds from the first that is not zero on. -/
def sizeText (size : Nat) : String :=
  if size = 0 then "0s"
  else if size < 1000 then decimalText size 0 ++ "ns"
  else if size < 1000000 then decimalText size 3 ++ "µs"
  else if size < 1000000000 then decimalText size 6 ++ "ms"
  else
    let minute := 60000000000
    let seconds := decimalText (size % minute) 9 ++ "s"
    let minutes := size / minute
    if minutes = 0 then seconds
    else if minutes < 60 then toString minutes ++ "m" ++ seconds
    else toString (minutes / 60) ++ "h" ++ toString (minutes % 60) ++ "m" ++ seconds

/-- The text of a duration. -/
def text (d : Duration) : String :=
  let size := d.nanoseconds.toInt.natAbs
  if d.nanoseconds < 0 then "-" ++ sizeText size else sizeText size

end Duration

end StackMachine
