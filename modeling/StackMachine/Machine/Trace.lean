import StackMachine.Atom.Basic

/-!
# Trace lines

A traced run logs what it does, one line at a time.  Each line has a mark; marks
that are narrower than the widest one used so far are padded on the left with their
first character.  A log may refuse a line, which breaks the run off.
-/

namespace StackMachine

/-- A log for trace lines. -/
structure Tracer where
  /-- Whether the log refuses a line, given the number of lines it has taken in this run. -/
  refuses : Nat → String → Bool := fun _ _ => false

/-- What a run has logged. -/
structure Trace where
  /-- The lines, last one first. -/
  lines : List String := []
  /-- The number of lines. -/
  count : Nat := 0
  /-- The width of the widest mark, also of earlier runs. -/
  width : Nat := 0
  deriving DecidableEq, Repr

namespace Trace

/-- A mark padded to a width. -/
def padded (mark : List Char) (width : Nat) : List Char :=
  List.replicate (width - mark.length) (mark.headD ' ') ++ mark

/-- Logs a line, if there is a log; says whether the log refused it. -/
@[inline]
def log (tracer : Option Tracer) (mark : String) (message : Unit → String) (trace : Trace) :
    Trace × Bool :=
  match tracer with
  | none => (trace, false)
  | some tracer =>
      let line := String.ofList (padded mark.toList trace.width) ++ " " ++ message ()
      let width := max trace.width mark.length
      if tracer.refuses trace.count line then ({ trace with width }, true)
      else (⟨line :: trace.lines, trace.count + 1, width⟩, false)

end Trace

/-- The stack as trace lines show it, bottom first. -/
def stackText (stack : List Atom) : String :=
  "[" ++ " ".intercalate (stack.reverse.map Atom.diagnostic) ++ "]"

end StackMachine
