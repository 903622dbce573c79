import StackMachine.Number.Literal
import StackMachine.Text.Calendar

/-!
# Plain scalars that are not text

A scalar without quotes may read as something other than a text: nothing, a truth
value, a number, a date.  A text that looks like one of these has to be quoted.
-/

namespace StackMachine.Yaml

/-- The words for nothing, for truth values and for special numbers. -/
def reservedWords : List String :=
  ["", "~", "null", "Null", "NULL",
    "y", "Y", "yes", "Yes", "YES", "true", "True", "TRUE", "on", "On", "ON",
    "n", "N", "no", "No", "NO", "false", "False", "FALSE", "off", "Off", "OFF",
    ".nan", ".NaN", ".NAN", ".inf", ".Inf", ".INF",
    "+.inf", "+.Inf", "+.INF", "-.inf", "-.Inf", "-.INF"]

/-- A text without its sign. -/
def unsigned : List Char → List Char
  | '+' :: rest => rest
  | '-' :: rest => rest
  | rest => rest

/-- An integer or unsigned integer of 64 bits, with an optional base mark. -/
def isInteger (text : List Char) : Bool :=
  (readLiteral (String.ofList text)).isOk || (readLiteralSize 0xFFFFFFFFFFFFFFFF text).isOk

/-- Binary digits with an optional sign that fit into 64 bits. -/
def isBinaryDigits (text : List Char) : Bool :=
  let size? (digits : List Char) : Option Nat :=
    if digits.isEmpty || !digits.all (fun c => c == '0' || c == '1') then none
    else some (digits.foldl (fun n c => n * 2 + digitValue c) 0)
  match text with
  | '+' :: digits => (size? digits).any (· < 0x8000000000000000)
  | '-' :: digits => (size? digits).any (· ≤ 0x8000000000000000)
  | digits => (size? digits).any (· ≤ 0xFFFFFFFFFFFFFFFF)

/-- A number, once its underscores have been dropped. -/
def isNumber (text : List Char) : Bool :=
  isInteger text || Literal.isFiniteDouble (unsigned text)
    || (match text with
      | '0' :: 'b' :: digits => isBinaryDigits digits
      | _ => false)

/-! ## Dates and times -/

/-- A fraction of a second, if there is one. -/
def skipFraction : List Char → List Char
  | c :: d :: rest =>
      if (c == '.' || c == ',') && d.isDigit then rest.dropWhile Char.isDigit else c :: d :: rest
  | rest => rest

/-- A time of day.  Its numbers have one or two digits. -/
def time? (text : List Char) : Option (List Char) := do
  let rest ← Calendar.hourMinute? Calendar.shortNumber? text
  let rest ← Calendar.seconds? Calendar.shortNumber? rest
  return skipFraction rest

/-- A time zone that ends the text. -/
def isZone (text : List Char) : Bool :=
  text == ['Z'] || (Calendar.offset? text).any List.isEmpty

/-- A date; or a date and a time, with a time zone after a `T` and without one after a space. -/
def isTimestamp (text : List Char) : Bool :=
  match Calendar.date? Calendar.shortNumber? text with
  | none => false
  | some [] => true
  | some (c :: rest) =>
      if c == 'T' || c == 't' then (time? rest).any isZone
      else if c == ' ' then (time? (rest.dropWhile (· == ' '))).any List.isEmpty
      else false

/-! ## Numbers in base sixty -/

/-- Groups of a colon and a number below sixty, then an optional fraction.  `seen` says whether
there has been a group. -/
def isSexagesimalTail (seen : Bool) : List Char → Bool
  | [] => seen
  | '.' :: rest => seen && rest.all (fun c => c.isDigit || c == '_')
  | ':' :: a :: b :: rest =>
      if a.isDigit && b.isDigit then a ≤ '5' && isSexagesimalTail true rest
      else a.isDigit && isSexagesimalTail true (b :: rest)
  | [':', a] => a.isDigit
  | _ => false

/-- Numbers such as `1:30`, which older readers take to be in base sixty. -/
def isSexagesimal (text : List Char) : Bool :=
  match unsigned text with
  | c :: rest =>
      c.isDigit && isSexagesimalTail false (rest.dropWhile fun c => c.isDigit || c == '_')
  | [] => false

/-- A text that would read as something else if it were not quoted. -/
def resolves (text : String) : Bool :=
  let chars := text.toList
  reservedWords.contains text
    || (match chars with
      | '.' :: _ =>
          (!chars.contains '_' || underscoresSeparate chars) && Literal.isFiniteDouble chars
      | c :: _ =>
          (c.isDigit || c == '+' || c == '-')
            && (isTimestamp chars || isNumber (chars.filter (· != '_')) || isSexagesimal chars)
      | [] => false)

end StackMachine.Yaml
