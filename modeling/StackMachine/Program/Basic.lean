import Std.Data.ExtTreeMap
import StackMachine.Token.Basic

/-!
# Programs

A program is a table of functions in the order of their declaration.  A function has
a declared signature and a body: its code and the place of each of its labels.
Lists and tables that nobody has given are told apart from empty ones, since an
image of the program shows the difference; to everything else they are empty.
-/

namespace StackMachine

/-- Where a label leads.  The labels of a source lead to places in its code; a table that was
made otherwise may hold any number. -/
structure CodeIndex where
  toInt : Int
  deriving DecidableEq, Repr

instance : Coe Int64 CodeIndex := ⟨fun word => ⟨word.toInt⟩⟩

/-- The code index of each label id. -/
abbrev LabelTable := Std.ExtTreeMap Int64 CodeIndex

/-- The code of a function. -/
structure Body where
  code? : Option (Array Token) := none
  labels? : Option LabelTable := none
  deriving DecidableEq

namespace Body

/-- The tokens of a body. -/
def code (body : Body) : Array Token := body.code?.getD #[]

/-- The labels of a body. -/
def labels (body : Body) : LabelTable := body.labels?.getD ∅

/-- The code index of a label id. -/
def target? (body : Body) (id : Int64) : Option CodeIndex := body.labels[id]?

end Body

/-- A function: its declared signature, which is never checked, and its body. -/
structure Function where
  name : String
  params? : Option (List DeclaredType) := none
  result : DeclaredType := {}
  body : Body := {}
  deriving DecidableEq

namespace Function

/-- The declared parameter types. -/
def params (function : Function) : List DeclaredType := function.params?.getD []

/-- The header that declares a function. -/
def header (function : Function) : Token :=
  { opcode := .defun, name := function.name, params := function.params, result := function.result }

end Function

/-- A table of functions.  Names need not be unique. -/
structure Program where
  functions? : Option (List Function) := none
  deriving DecidableEq

namespace Program

/-- The functions in the order of their declaration. -/
def functions (program : Program) : List Function := program.functions?.getD []

/-- The first function of a name. -/
def lookup? (program : Program) (name : String) : Option Function :=
  program.functions.find? (·.name == name)

/-- The place of the first function of a name. -/
def position? (program : Program) (name : String) : Option Nat :=
  program.functions.findIdx? (·.name == name)

end Program

/-- A list as it is recorded when it has been collected element by element: a list to which
nothing was added was never given. -/
def collected {α : Type} (items : List α) : Option (List α) :=
  if items.isEmpty then none else some items

end StackMachine
