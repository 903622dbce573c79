/-!
# Message formats

A format is a text with verbs, each of which an argument replaces.  Where verbs
and arguments do not fit together, the result says so in place.
-/

namespace StackMachine

/-- An argument of a message. -/
inductive Argument where
  | text (content : String)
  | number (value : Int)
  deriving DecidableEq, Repr

namespace Argument

/-- The argument by itself. -/
def plain : Argument → String
  | .text content => content
  | .number value => toString value

/-- The argument with its type, as misplaced arguments are shown. -/
def typed : Argument → String
  | .text content => "string=" ++ content
  | .number value => "int=" ++ toString value

/-- Whether a verb can show an argument. -/
def suits (verb : Char) : Argument → Bool
  | .text _ => verb == 'v' || verb == 's'
  | .number _ => verb == 'v' || verb == 'd'

/-- What a verb makes of an argument. -/
def shown (verb : Char) (a : Argument) : String :=
  if a.suits verb then a.plain else "%!" ++ verb.toString ++ "(" ++ a.typed ++ ")"

end Argument

/-- Replaces the verbs of a format in order. -/
def formatFrom : List Char → List Argument → String
  | [], [] => ""
  | [], arguments => "%!(EXTRA " ++ ", ".intercalate (arguments.map Argument.typed) ++ ")"
  | ['%'], arguments => "%!(NOVERB)" ++ formatFrom [] arguments
  | '%' :: '%' :: rest, arguments => "%" ++ formatFrom rest arguments
  | '%' :: verb :: rest, a :: arguments => a.shown verb ++ formatFrom rest arguments
  | '%' :: verb :: rest, [] => "%!" ++ verb.toString ++ "(MISSING)" ++ formatFrom rest []
  | c :: rest, arguments => c.toString ++ formatFrom rest arguments

/-- A message.  Without arguments the format stands for itself. -/
def formatted (format : String) (arguments : List Argument) : String :=
  if arguments.isEmpty then format else formatFrom format.toList arguments

end StackMachine
