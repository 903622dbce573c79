/-!
# Recovering from abnormal ends

An action may return with or without an error, halt with an error from any depth,
break off with a value, or leave altogether.  Recovery turns each of these ends
into a plain result at the nearest guard around it.
-/

namespace StackMachine

mutual

/-- An error value. -/
inductive Fault where
  | plain (text : String)
  /-- An error with a remark on where it arose. -/
  | wrapped (context : String) (cause : Fault)
  /-- The guarded action broke off. -/
  | broken (guard : String) (value : BreakValue)
  /-- The guarded action left without returning. -/
  | left (guard : String)

/-- What an action breaks off with. -/
inductive BreakValue where
  | text (content : String)
  | number (value : Int)
  | fault (error : Fault)

end

/-- How an action ends. -/
inductive Ending where
  | returned (error : Option Fault)
  | halted (error : Option Fault)
  | broke (value : BreakValue)
  | left

instance : Inhabited Ending := ⟨.returned none⟩

mutual

/-- The wording of an error. -/
def Fault.message : Fault → String
  | .plain text => text
  | .wrapped context cause => context ++ ": " ++ cause.message
  | .broken guard value =>
      (if guard.isEmpty then "paniced: " else guard ++ " paniced: ") ++ value.message
  | .left guard =>
      if guard.isEmpty then "runtime.Goexit called" else guard ++ " called runtime.Goexit"

/-- The wording of what an action broke off with. -/
def BreakValue.message : BreakValue → String
  | .text content => content
  | .number value => toString value
  | .fault error => error.message

end

namespace Fault

/-- The error directly inside an error. -/
def inner? : Fault → Option Fault
  | .wrapped _ cause => some cause
  | .broken _ (.fault error) => some error
  | _ => none

/-- An action broke off somewhere along the chain of errors. -/
def isBreak : Fault → Bool
  | .plain _ => false
  | .wrapped _ cause => cause.isBreak
  | .broken _ _ => true
  | .left _ => false

/-- The head of the report that comes with a stack. -/
def stackHead : String := "Panic stack: "

/-- The detailed report of an error: only one that is itself a broken action has a stack. -/
def report (error : Fault) (stack : String) : String :=
  match error with
  | .broken _ _ => error.message ++ "\n" ++ stackHead ++ stack
  | _ => error.message

end Fault

/-- What breaking off without any value counts as. -/
def BreakValue.missing : BreakValue :=
  .fault (.plain "panic called with nil argument (use GODEBUG=panicnil=1 to disable)")

namespace Ending

/-- The result that a guard makes of an ending. -/
def recover (guard : String) : Ending → Option Fault
  | .returned error => error
  | .halted error => error
  | .broke value => some (.broken guard value)
  | .left => some (.left guard)

/-- Adds a remark to a returned error. -/
def wrap (context : String) : Ending → Ending
  | .returned (some cause) => .returned (some (.wrapped context cause))
  | ending => ending

/-- Halts with what has been returned. -/
def halt : Ending → Ending
  | .returned error => .halted error
  | ending => ending

/-- Breaks off with the error that has been returned. -/
def breakOff : Ending → Ending
  | .returned (some error) => .broke (.fault error)
  | .returned none => .broke .missing
  | ending => ending

end Ending

end StackMachine
