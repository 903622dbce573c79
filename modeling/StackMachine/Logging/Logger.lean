import StackMachine.Logging.Format

/-!
# A logger with an exit code

Messages become lines of an output that may refuse any of them.  The exit code
remembers what went wrong: one for a logged error, two for a line that the output
refused; the later of the two counts.
-/

namespace StackMachine

/-- A logger. -/
structure Logger where
  /-- Whether the output refuses a write, by the number of writes before it. -/
  refuses : Nat → Bool := fun _ => false
  /-- The writes so far, refused ones included. -/
  writes : Nat := 0
  /-- The text that the output has taken. -/
  accepted : String := ""
  exitCode : Nat := 0

namespace Logger

/-- The text of a message at a level.  A line end is added where it is missing; nothing at all
remains nothing. -/
def line (level message : String) : String :=
  let text := if level.isEmpty then message else level ++ ": " ++ message
  if text.isEmpty || text.toList.getLast? == some '\n' then text else text ++ "\n"

/-- Writes a text, unless it is empty. -/
def write (text : String) (log : Logger) : Logger :=
  if text.isEmpty then log
  else if log.refuses log.writes then { log with writes := log.writes + 1, exitCode := 2 }
  else { log with writes := log.writes + 1, accepted := log.accepted ++ text }

/-- Logs a message at a level. -/
def print (level message : String) (log : Logger) : Logger :=
  log.write (line level message)

/-- Logs an error. -/
def error (message : String) (log : Logger) : Logger :=
  { log.print "ERROR" message with exitCode := 1 }

/-- Logs an error if there is one, and tells whether there was. -/
def errorIf (message : Option String) (log : Logger) : Bool × Logger :=
  match message with
  | none => (false, log)
  | some message => (true, log.error message)

end Logger

end StackMachine
