import StackMachine.Text.Utf8

/-!
# Splitting written bytes into lines

Bytes arrive in pieces of any size; each line is logged with a prefix as soon as
its line end has been written.  Flushing logs what is left without one.
-/

namespace StackMachine

/-- A writer that logs lines. -/
structure LineWriter where
  /-- What stands before each line. -/
  lead : Bytes := []
  /-- The beginning of a line that has not ended yet. -/
  pending : Bytes := []
  /-- The lines logged so far. -/
  logged : List Bytes := []
  deriving DecidableEq, Repr

namespace LineWriter

/-- The byte that ends a line. -/
def lineEnd : UInt8 := 0x0A

/-- The lines of a text that have ended, and what follows the last of them. -/
def splitLines : Bytes → List Bytes × Bytes
  | [] => ([], [])
  | byte :: rest =>
      match splitLines rest with
      | (lines, last) =>
          if byte == lineEnd then ([] :: lines, last)
          else
            match lines with
            | [] => ([], byte :: last)
            | line :: lines => ((byte :: line) :: lines, last)

/-- Logs lines. -/
def log (lines : List Bytes) (w : LineWriter) : LineWriter :=
  { w with logged := w.logged ++ lines.map (w.lead ++ ·) }

/-- Takes a piece of any size; all of it counts as written. -/
def write (piece : Bytes) (w : LineWriter) : Nat × LineWriter :=
  let (lines, last) := splitLines (w.pending ++ piece)
  (piece.length, { w.log lines with pending := last })

/-- Logs what is left, if anything is. -/
def flush (w : LineWriter) : LineWriter :=
  if w.pending.isEmpty then w else { w.log [w.pending] with pending := [] }

/-- Closing a writer flushes it. -/
def close (w : LineWriter) : LineWriter := w.flush

end LineWriter

end StackMachine
