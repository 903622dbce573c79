import Mathlib
import StackMachine.Logging.Lines

/-!
# Lines of a text that arrives in pieces

A text is split into lines in one way only: lines without a line end in them, each followed by one,
and behind them the beginning of another line (`LineWriter.Splits`).  A writer that has received a
text has logged exactly these lines and holds the beginning (`LineWriter.Received`).  A piece more
keeps this up, wherever the text is cut, and so do any number of pieces: the state of the writer is
a function of the text.
-/

namespace StackMachine.LineWriter

/-- Takes pieces in order and tells for each how much of it counts as written. -/
def writes : List Bytes → LineWriter → List Nat × LineWriter
  | [], w => ([], w)
  | piece :: rest, w =>
      let (count, w) := w.write piece
      let (counts, w) := writes rest w
      (count :: counts, w)

/-- A text consists of lines that have ended and the beginning of another. -/
structure Splits (text : Bytes) (lines : List Bytes) (last : Bytes) : Prop where
  joined : text = lines.flatMap (· ++ [lineEnd]) ++ last
  whole : ∀ line ∈ lines, lineEnd ∉ line
  unended : lineEnd ∉ last

/-- A writer that has received a text since it was made. -/
structure Received (lead text : Bytes) (w : LineWriter) : Prop where
  lead_eq : w.lead = lead
  split : ∃ lines, Splits text lines w.pending ∧ w.logged = lines.map (lead ++ ·)

section Splits

variable {text piece last rest : Bytes} {lines more : List Bytes}

/-- Only the beginning of a line that has not ended yet is split again with what follows. -/
theorem Splits.append (first : Splits text lines last) (second : Splits (last ++ piece) more rest) :
    Splits (text ++ piece) (lines ++ more) rest where
  joined := by
    rw [first.joined, List.append_assoc, second.joined, List.flatMap_append, List.append_assoc]
  whole line mem := (List.mem_append.mp mem).elim (first.whole line) (second.whole line)
  unended := second.unended

/-- Lines with their ends are parts with the line end between them. -/
theorem flatMap_append_eq_intercalate (lines : List Bytes) (last : Bytes) :
    lines.flatMap (· ++ [lineEnd]) ++ last = [lineEnd].intercalate (lines ++ [last]) := by
  induction lines with
  | nil => simp
  | cons line lines ih =>
      rw [List.flatMap_cons, List.append_assoc, ih, List.cons_append,
        List.intercalate_cons_of_ne_nil (by simp), List.append_assoc]

/-- The parts of a text are what stands between its line ends. -/
theorem Splits.splitOn_eq (splits : Splits text lines last) :
    text.splitOn lineEnd = lines ++ [last] := by
  have parts : ∀ part ∈ lines ++ [last], lineEnd ∉ part := by
    intro part mem
    rcases List.mem_append.mp mem with mem | mem
    · exact splits.whole part mem
    · rw [List.mem_singleton.mp mem]
      exact splits.unended
  rw [splits.joined, flatMap_append_eq_intercalate]
  exact List.splitOn_intercalate lineEnd parts (by simp)

end Splits

/-- Splitting finds the lines of a text. -/
theorem splitLines_splits (text : Bytes) : Splits text (splitLines text).1 (splitLines text).2 := by
  induction text with
  | nil => exact ⟨rfl, by simp [splitLines], by simp [splitLines]⟩
  | cons byte rest ih =>
      obtain ⟨joined, whole, unended⟩ := ih
      rw [splitLines]
      generalize splitLines rest = split at joined whole unended ⊢
      obtain ⟨lines, last⟩ := split
      by_cases ends : byte = lineEnd
      · simp only [ends, beq_self_eq_true, if_true]
        exact ⟨by simp [joined], by simpa using whole, unended⟩
      · simp only [beq_iff_eq, ends, if_false]
        cases lines with
        | nil => exact ⟨by simp [joined], by simp, by simpa [Ne.symm ends] using unended⟩
        | cons line lines =>
            obtain ⟨first, later⟩ := List.forall_mem_cons.mp whole
            have longer : lineEnd ∉ byte :: line := by simpa [Ne.symm ends] using first
            exact ⟨by simp [joined], List.forall_mem_cons.mpr ⟨longer, later⟩, unended⟩

namespace Received

variable {lead text : Bytes} {w other : LineWriter}

theorem fresh (lead : Bytes) : Received lead [] { lead } where
  lead_eq := rfl
  split := ⟨[], ⟨rfl, by simp, by simp⟩, rfl⟩

/-- What a writer has logged and holds back are the parts of the text. -/
theorem splitOn_eq (received : Received lead text w) :
    ∃ lines, text.splitOn lineEnd = lines ++ [w.pending] ∧ w.logged = lines.map (lead ++ ·) := by
  obtain ⟨lines, splits, logged⟩ := received.split
  exact ⟨lines, splits.splitOn_eq, logged⟩

/-- The text decides the state of the writer. -/
theorem unique (received : Received lead text w) (again : Received lead text other) :
    w = other := by
  obtain ⟨lines, parts, logged⟩ := received.splitOn_eq
  obtain ⟨others, otherParts, otherLogged⟩ := again.splitOn_eq
  obtain ⟨rfl, pending⟩ := List.append_inj' (parts.symm.trans otherParts) rfl
  obtain ⟨_, _, _⟩ := w
  obtain ⟨_, _, _⟩ := other
  have lead_eq := received.lead_eq.trans again.lead_eq.symm
  simp_all

/-- One piece more. -/
theorem write (received : Received lead text w) (piece : Bytes) :
    Received lead (text ++ piece) (w.write piece).2 := by
  obtain ⟨rfl, lines, splits, logged⟩ := received
  refine ⟨rfl, lines ++ (splitLines (w.pending ++ piece)).1, ?_, ?_⟩
  · exact splits.append (splitLines_splits (w.pending ++ piece))
  · rw [List.map_append, ← logged]
    rfl

/-- Any number of pieces more, each of which counts as written in full. -/
theorem writes (received : Received lead text w) (pieces : List Bytes) :
    (w.writes pieces).1 = pieces.map List.length ∧
      Received lead (text ++ pieces.flatten) (w.writes pieces).2 := by
  induction pieces generalizing w text with
  | nil => exact ⟨rfl, (List.append_nil text).symm ▸ received⟩
  | cons piece pieces ih =>
      obtain ⟨counts, later⟩ := ih (received.write piece)
      rw [List.append_assoc, ← List.flatten_cons] at later
      exact ⟨congrArg (piece.length :: ·) counts, later⟩

/-- Closing adds the beginning of a line that has not ended, if there is one. -/
theorem logged_close (received : Received lead text w) :
    w.close.logged = w.logged ++ (if w.pending = [] then [] else [lead ++ w.pending]) := by
  by_cases nothing : w.pending = []
  · simp [close, flush, nothing]
  · simp [close, flush, nothing, log, received.lead_eq]

end Received

/-- The lines that a writer logs do not depend on how the text was cut.  For all pieces, empty ones
and such as begin or end with a line end included, every piece counts as written in full, and the
writer is in the state that the whole text in one piece leads to.  Among what stands between the
line ends of the text, all but the last part have been logged with the lead before them, in order;
closing the writer adds the last part if it is not empty. -/
theorem logged_writes (lead : Bytes) (pieces : List Bytes) :
    let w := ({ lead } : LineWriter).writes pieces
    w.1 = pieces.map List.length ∧
    w.2 = (({ lead } : LineWriter).write pieces.flatten).2 ∧
    ∃ lines last, pieces.flatten.splitOn lineEnd = lines ++ [last] ∧
      w.2.logged = lines.map (lead ++ ·) ∧
      w.2.close.logged = (lines ++ if last = [] then [] else [last]).map (lead ++ ·) := by
  intro w
  obtain ⟨counts, received⟩ := (Received.fresh lead).writes pieces
  obtain ⟨lines, parts, logged⟩ := received.splitOn_eq
  refine ⟨counts, received.unique ((Received.fresh lead).write pieces.flatten),
    lines, w.2.pending, parts, logged, ?_⟩
  rw [received.logged_close, logged, List.map_append]
  split <;> rfl

end StackMachine.LineWriter
