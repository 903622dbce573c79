import StackMachine.Number.Integer

/-!
# Calendar dates in text

What the notations for dates and times have in common.
-/

namespace StackMachine.Calendar

/-- The number of days in a month. -/
def daysIn (year month : Nat) : Nat :=
  if month = 2 then
    if year % 4 = 0 ∧ (year % 100 ≠ 0 ∨ year % 400 = 0) then 29 else 28
  else if month = 4 ∨ month = 6 ∨ month = 9 ∨ month = 11 then 30
  else 31

/-- There is such a day. -/
def isDay (year month day : Nat) : Bool :=
  1 ≤ month && month ≤ 12 && 1 ≤ day && day ≤ daysIn year month

/-- The number that digits spell. -/
def number (digits : List Char) : Nat :=
  digits.foldl (fun n c => n * 10 + digitValue c) 0

/-- A number of exactly `count` digits at the start of a text. -/
def fixedNumber? (count : Nat) (text : List Char) : Option (Nat × List Char) :=
  let digits := text.take count
  if digits.length = count ∧ digits.all Char.isDigit then some (number digits, text.drop count)
  else none

/-- A number of one or two digits. -/
def shortNumber? (text : List Char) : Option (Nat × List Char) :=
  (fixedNumber? 2 text).or (fixedNumber? 1 text)

/-- A given character. -/
def after? (c : Char) : List Char → Option (List Char)
  | d :: rest => if c == d then some rest else none
  | [] => none

/-- A year of four digits, a month and a day with the given readers, between hyphens. -/
def date? (field : List Char → Option (Nat × List Char)) (text : List Char) :
    Option (List Char) := do
  let (year, rest) ← fixedNumber? 4 text
  let rest ← after? '-' rest
  let (month, rest) ← field rest
  let rest ← after? '-' rest
  let (day, rest) ← field rest
  guard (isDay year month day)
  return rest

/-- A number below a bound. -/
def below? (field : List Char → Option (Nat × List Char)) (bound : Nat) (text : List Char) :
    Option (List Char) := do
  let (n, rest) ← field text
  guard (n < bound)
  return rest

/-- Hours and minutes of a day. -/
def hourMinute? (field : List Char → Option (Nat × List Char)) (text : List Char) :
    Option (List Char) := do
  let rest ← below? field 24 text
  let rest ← after? ':' rest
  below? field 60 rest

/-- Colon and seconds. -/
def seconds? (field : List Char → Option (Nat × List Char)) (text : List Char) :
    Option (List Char) := do
  let rest ← after? ':' text
  below? field 60 rest

/-- The distance of a time zone: sign, hours and minutes, each of two digits. -/
def offset? : List Char → Option (List Char)
  | [] => none
  | sign :: text => do
      guard (sign == '+' || sign == '-')
      let rest ← below? (fixedNumber? 2) 25 text
      let rest ← after? ':' rest
      below? (fixedNumber? 2) 61 rest

end StackMachine.Calendar
