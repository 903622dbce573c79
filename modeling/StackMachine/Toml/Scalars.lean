import StackMachine.Number.Literal
import StackMachine.Text.Calendar
import StackMachine.Toml.Strings

/-!
# Numbers, dates and times of TOML documents

The readers take a scalar off the start of a text.  What follows it is left to the
reader of the document, which lets no scalar be followed by more of itself.
-/

namespace StackMachine.Toml

/-- Removes the underscores of a run of digits; each must stand between two digits. -/
def digitsWithout? : List Char → Option (List Char)
  | [] => none
  | ['_'] => none
  | [c] => some [c]
  | '_' :: _ => none
  | c :: '_' :: rest => (digitsWithout? rest).map (c :: ·)
  | c :: rest => (digitsWithout? rest).map (c :: ·)

/-- A run of digits of a class, with separating underscores. -/
def digits? (isDigit : Char → Bool) (text : List Char) : Option (List Char × List Char) :=
  let belongs (c : Char) : Bool := isDigit c || c == '_'
  (digitsWithout? (text.takeWhile belongs)).map fun digits => (digits, text.dropWhile belongs)

/-- A decimal number has no leading zero. -/
def hasLeadingZero (digits : List Char) : Bool :=
  digits.head? == some '0' && digits.length != 1

/-- The bases with a mark of their own. -/
def baseOf? : Char → Option Nat
  | 'b' => some 2
  | 'o' => some 8
  | 'x' => some 16
  | _ => none

/-- A digit of a base. -/
def isDigitOf (base : Nat) (c : Char) : Bool := (alphanumericValue? c).any (· < base)

/-- An integer behind its base mark. -/
def baseInteger? (base : Nat) (text : List Char) : Option (Int × List Char) := do
  let (digits, rest) ← digits? (isDigitOf base) text
  let value := digits.foldl (fun n c => n * base + (alphanumericValue? c).getD 0) 0
  guard (value < 0x8000000000000000)
  return ((value : Int), rest)

/-- A signed decimal integer. -/
def signedInteger? (negative : Bool) (digits : List Char) : Option Int := do
  guard !hasLeadingZero digits
  let size := Calendar.number digits
  let value : Int := if negative then -size else size
  guard (-0x8000000000000000 ≤ value ∧ value < 0x8000000000000000)
  return value

/-- The fraction of a number, if a point follows. -/
def fraction? : List Char → Option (List Char × List Char)
  | '.' :: rest => digits? Char.isDigit rest
  | rest => some ([], rest)

/-- The exponent of a number, if one follows. -/
def exponent? : List Char → Option (List Char × List Char)
  | c :: rest =>
      if c == 'e' || c == 'E' then
        match rest with
        | '+' :: rest => (digits? Char.isDigit rest).map fun (digits, rest) => (digits, rest)
        | '-' :: rest =>
            (digits? Char.isDigit rest).map fun (digits, rest) => ('-' :: digits, rest)
        | rest => digits? Char.isDigit rest
      else some ([], c :: rest)
  | [] => some ([], [])

/-- The text behind a floating-point number with the whole part given; the number must be finite
in double precision. -/
def float? (whole rest : List Char) : Option (List Char) := do
  guard !hasLeadingZero whole
  let (fraction, rest) ← fraction? rest
  let (exponent, rest) ← exponent? rest
  let written := whole ++ (if fraction.isEmpty then [] else '.' :: fraction)
    ++ (if exponent.isEmpty then [] else 'e' :: exponent)
  guard (Literal.isFiniteDouble written)
  return rest

/-- The text behind a time of day.  Seconds may be left out. -/
def time? (text : List Char) : Option (List Char) := do
  let rest ← Calendar.hourMinute? (Calendar.fixedNumber? 2) text
  match Calendar.seconds? (Calendar.fixedNumber? 2) rest with
  | none => return rest
  | some ('.' :: c :: rest) =>
      return if c.isDigit then rest.dropWhile Char.isDigit else '.' :: c :: rest
  | some rest => return rest

/-- The text behind a time zone, if there is one. -/
def skipZone (text : List Char) : List Char :=
  match text with
  | 'Z' :: rest => rest
  | 'z' :: rest => rest
  | _ => (Calendar.offset? text).getD text

/-- The text behind a date, a date with a time, or a time of day. -/
def dateTime? (text : List Char) : Option (List Char) :=
  match Calendar.date? (Calendar.fixedNumber? 2) text with
  | none => time? text
  | some (c :: d :: rest) =>
      if c == 'T' || c == 't' || (c == ' ' && d.isDigit) then (time? (d :: rest)).map skipZone
      else some (c :: d :: rest)
  | some rest => some rest

/-- A scalar that is not a string: those that no setting takes are not kept apart. -/
inductive Scalar where
  | integer (value : Int)
  | boolean (value : Bool)
  | other
  deriving DecidableEq, Repr

/-- What follows a given word. -/
def afterWord? (word : String) (text : List Char) : Option (List Char) :=
  if word.toList.isPrefixOf text then some (text.drop word.length) else none

/-- A decimal integer or floating-point number behind its sign. -/
def decimal? (negative : Bool) (text : List Char) : Option (Scalar × List Char) := do
  let (digits, rest) ← digits? Char.isDigit text
  if rest.head?.any fun c => c == '.' || c == 'e' || c == 'E' then
    let rest ← float? digits rest
    return (.other, rest)
  else
    let value ← signedInteger? negative digits
    return (.integer value, rest)

/-- The special floating-point numbers. -/
def specialNumber? (text : List Char) : Option (Scalar × List Char) :=
  ((afterWord? "inf" text).or (afterWord? "nan" text)).map fun rest => (.other, rest)

/-- A number with a sign. -/
def signedNumber? (negative : Bool) (text : List Char) : Option (Scalar × List Char) :=
  (specialNumber? text).or (decimal? negative text)

/-- A number without a sign, a date or a time. -/
def unsignedNumber? (text : List Char) : Option (Scalar × List Char) :=
  match text with
  | '0' :: mark :: rest =>
      match baseOf? mark with
      | some base => (baseInteger? base rest).map fun (value, rest) => (.integer value, rest)
      | none => plain text
  | _ => plain text
where
  /-- A hyphen or a colon behind the first digits is the mark of a date or a time. -/
  plain (text : List Char) : Option (Scalar × List Char) :=
    if (text.dropWhile Char.isDigit).head?.any fun c => c == '-' || c == ':' then
      (dateTime? text).map fun rest => (.other, rest)
    else decimal? false text

/-- Any scalar that is not a string. -/
def scalar? (text : List Char) : Option (Scalar × List Char) :=
  match text with
  | [] => none
  | '+' :: rest => signedNumber? false rest
  | '-' :: rest => signedNumber? true rest
  | c :: _ =>
      if c.isDigit then unsignedNumber? text
      else
        ((afterWord? "true" text).map fun rest => (Scalar.boolean true, rest))
          |>.or ((afterWord? "false" text).map fun rest => (Scalar.boolean false, rest))
          |>.or (specialNumber? text)

end StackMachine.Toml
