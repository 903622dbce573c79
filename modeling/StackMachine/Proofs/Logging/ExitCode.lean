import Mathlib
import StackMachine.Logging.Logger

/-!
# What an exit code remembers

The output of a logger may refuse any of the writes that the calls of the logger make.  A call is an
incident if it logs an error or makes a write that is refused, and only incidents change the exit
code.  Among the calls so far there is a last incident, unless there is none at all, and the exit
code tells of which kind it is (`Logger.exitCode_performs`): an error counts as one even if its own
line is refused, and also if a line was refused before.
-/

namespace StackMachine.Logger

/-- A call of a logger.  A function that prints at a fixed level makes calls of the first kind. -/
inductive Call where
  | print (level format : String) (arguments : List Argument)
  | error (format : String) (arguments : List Argument)
  | errorIf (fault : Option String)
  deriving DecidableEq, Repr

/-- The calls that log an error. -/
def Call.isError : Call → Bool
  | .print .. => false
  | .error .. => true
  | .errorIf fault => fault.isSome

/-- Carries out a call. -/
def perform (log : Logger) : Call → Logger
  | .print level format arguments => log.print level (formatted format arguments)
  | .error format arguments => log.error (formatted format arguments)
  | .errorIf fault => (log.errorIf fault).2

/-- Carries out calls in order. -/
def performs (log : Logger) (calls : List Call) : Logger := calls.foldl perform log

/-- Between two states of a logger a write was refused. -/
def Refused (log later : Logger) : Prop :=
  ∃ index, log.writes ≤ index ∧ index < later.writes ∧ log.refuses index = true

/-- Calls of which none is an incident. -/
def Quiet (log : Logger) (calls : List Call) : Prop :=
  (∀ call ∈ calls, call.isError = false) ∧ ¬ log.Refused (log.performs calls)

/-- The last incident is an error. -/
def ErrorLast (log : Logger) (calls : List Call) : Prop :=
  ∃ before call later, calls = before ++ call :: later ∧ call.isError = true ∧
    (log.performs (before ++ [call])).Quiet later

/-- The last incident is a refused line that tells of no error. -/
def RefusalLast (log : Logger) (calls : List Call) : Prop :=
  ∃ before call later, calls = before ++ call :: later ∧ call.isError = false ∧
    (log.performs before).Refused (log.performs (before ++ [call])) ∧
    (log.performs (before ++ [call])).Quiet later

variable {log : Logger} {call : Call} {calls more : List Call}

/-! ## One call -/

/-- Every call comes down to the writing of a text, and an error sets the code to one behind it. -/
theorem exists_perform_eq (log : Logger) (call : Call) :
    ∃ text, log.perform call =
      if call.isError then { log.write text with exitCode := 1 } else log.write text := by
  cases call with
  | print level format arguments => exact ⟨line level (formatted format arguments), rfl⟩
  | error format arguments => exact ⟨line "ERROR" (formatted format arguments), rfl⟩
  | errorIf fault =>
      cases fault with
      | none => exact ⟨"", rfl⟩
      | some message => exact ⟨line "ERROR" message, rfl⟩

/-- A text is left alone if it is empty, and else taken or refused. -/
theorem write_cases (text : String) (log : Logger) :
    log.write text = log ∨
    log.refuses log.writes = false ∧ log.write text =
      { log with writes := log.writes + 1, accepted := log.accepted ++ text } ∨
    log.refuses log.writes = true ∧ log.write text =
      { log with writes := log.writes + 1, exitCode := 2 } := by
  by_cases empty : text.isEmpty = true
  · exact .inl (by rw [write, if_pos empty])
  · cases refused : log.refuses log.writes with
    | false => exact .inr (.inl ⟨rfl, by simp [write, empty, refused]⟩)
    | true => exact .inr (.inr ⟨rfl, by simp [write, empty, refused]⟩)

/-- A call leaves the output as it is, and asks it at most once. -/
theorem perform_writes (log : Logger) (call : Call) :
    (log.perform call).refuses = log.refuses ∧ log.writes ≤ (log.perform call).writes := by
  obtain ⟨text, performed⟩ := log.exists_perform_eq call
  rw [performed]
  obtain written | ⟨-, written⟩ | ⟨-, written⟩ := log.write_cases text <;> rw [written] <;>
    split <;> simp

/-- An error is remembered as one, whether or not its line is refused. -/
theorem exitCode_perform_of_isError (isError : call.isError = true) :
    (log.perform call).exitCode = 1 := by
  obtain ⟨text, performed⟩ := log.exists_perform_eq call
  rw [performed, if_pos isError]

theorem not_refused_self (log : Logger) : ¬ log.Refused log := by
  rintro ⟨index, atLeast, below, -⟩
  exact absurd below (Nat.not_lt.mpr atLeast)

/-- A call that logs no error is remembered if its line is refused. -/
theorem exitCode_perform (noError : call.isError = false) :
    (log.Refused (log.perform call) → (log.perform call).exitCode = 2) ∧
      (¬ log.Refused (log.perform call) → (log.perform call).exitCode = log.exitCode) := by
  obtain ⟨text, performed⟩ := log.exists_perform_eq call
  rw [performed, noError, if_neg Bool.false_ne_true]
  obtain written | ⟨taken, written⟩ | ⟨refused, written⟩ := log.write_cases text <;> rw [written]
  · exact ⟨fun refused => absurd refused log.not_refused_self, fun _ => rfl⟩
  · refine ⟨?_, fun _ => rfl⟩
    rintro ⟨index, atLeast, below, refused⟩
    obtain rfl : index = log.writes := by
      simp only at below
      omega
    exact absurd refused (by simp [taken])
  · refine ⟨fun _ => rfl, fun taken => absurd ?_ taken⟩
    exact ⟨log.writes, le_rfl, Nat.lt_succ_self _, refused⟩

/-! ## Any number of calls -/

@[simp]
theorem performs_nil (log : Logger) : log.performs [] = log := rfl

theorem performs_append (log : Logger) (calls more : List Call) :
    log.performs (calls ++ more) = (log.performs calls).performs more :=
  List.foldl_append

theorem performs_concat (log : Logger) (calls : List Call) (call : Call) :
    log.performs (calls ++ [call]) = (log.performs calls).perform call :=
  log.performs_append calls [call]

theorem performs_writes (log : Logger) (calls : List Call) :
    (log.performs calls).refuses = log.refuses ∧ log.writes ≤ (log.performs calls).writes := by
  induction calls using List.reverseRecOn with
  | nil => exact ⟨rfl, Nat.le_refl _⟩
  | append_singleton calls call ih =>
      obtain ⟨same, more⟩ := (log.performs calls).perform_writes call
      rw [performs_concat]
      exact ⟨same.trans ih.1, ih.2.trans more⟩

/-- A refused write is one of those of the first calls or of those of the later ones. -/
theorem refused_performs_iff :
    log.Refused ((log.performs calls).performs more) ↔
      log.Refused (log.performs calls) ∨
        (log.performs calls).Refused ((log.performs calls).performs more) := by
  obtain ⟨same, begun⟩ := log.performs_writes calls
  obtain ⟨-, later⟩ := (log.performs calls).performs_writes more
  constructor
  · rintro ⟨index, atLeast, below, refused⟩
    rcases Nat.lt_or_ge index (log.performs calls).writes with early | late
    · exact .inl ⟨index, atLeast, early, refused⟩
    · exact .inr ⟨index, late, below, same ▸ refused⟩
  · rintro (⟨index, atLeast, below, refused⟩ | ⟨index, atLeast, below, refused⟩)
    · exact ⟨index, atLeast, below.trans_le later, refused⟩
    · exact ⟨index, begun.trans atLeast, below, same ▸ refused⟩

theorem quiet_nil (log : Logger) : log.Quiet [] := ⟨by simp, log.not_refused_self⟩

/-- Calls are quiet if each of them is where it stands. -/
theorem quiet_append_iff :
    log.Quiet (calls ++ more) ↔ log.Quiet calls ∧ (log.performs calls).Quiet more := by
  simp only [Quiet, List.forall_mem_append, performs_append, refused_performs_iff, not_or]
  tauto

/-- Without an incident the code stays. -/
theorem Quiet.exitCode_eq (quiet : log.Quiet calls) :
    (log.performs calls).exitCode = log.exitCode := by
  induction calls using List.reverseRecOn with
  | nil => rfl
  | append_singleton calls call ih =>
      obtain ⟨before, noError, taken⟩ := quiet_append_iff.mp quiet
      rw [performs_concat]
      exact ((exitCode_perform (noError call (by simp))).2 taken).trans (ih before)

theorem ErrorLast.exitCode_eq (last : log.ErrorLast calls) :
    (log.performs calls).exitCode = 1 := by
  obtain ⟨before, call, later, rfl, isError, since⟩ := last
  rw [List.append_cons, performs_append, since.exitCode_eq, performs_concat]
  exact exitCode_perform_of_isError isError

theorem RefusalLast.exitCode_eq (last : log.RefusalLast calls) :
    (log.performs calls).exitCode = 2 := by
  obtain ⟨before, call, later, rfl, noError, refused, since⟩ := last
  rw [List.append_cons, performs_append, since.exitCode_eq, performs_concat]
  rw [performs_concat] at refused
  exact (exitCode_perform noError).1 refused

/-- A quiet call changes nothing about the last incident. -/
theorem quiet_or_last_concat (quiet : (log.performs calls).Quiet [call])
    (last : log.Quiet calls ∨ log.ErrorLast calls ∨ log.RefusalLast calls) :
    log.Quiet (calls ++ [call]) ∨ log.ErrorLast (calls ++ [call]) ∨
      log.RefusalLast (calls ++ [call]) := by
  have still {before later : List Call} {incident : Call}
      (isCalls : calls = before ++ incident :: later)
      (since : (log.performs (before ++ [incident])).Quiet later) :
      (log.performs (before ++ [incident])).Quiet (later ++ [call]) := by
    rw [isCalls, List.append_cons, performs_append] at quiet
    exact quiet_append_iff.mpr ⟨since, quiet⟩
  obtain all | ⟨before, incident, later, isCalls, isError, since⟩ |
    ⟨before, incident, later, isCalls, noError, refused, since⟩ := last
  · exact .inl (quiet_append_iff.mpr ⟨all, quiet⟩)
  · exact .inr (.inl ⟨before, incident, later ++ [call], by simp [isCalls], isError,
      still isCalls since⟩)
  · exact .inr (.inr ⟨before, incident, later ++ [call], by simp [isCalls], noError, refused,
      still isCalls since⟩)

/-- Either all calls are quiet or one of them is the last incident. -/
theorem quiet_or_last (log : Logger) (calls : List Call) :
    log.Quiet calls ∨ log.ErrorLast calls ∨ log.RefusalLast calls := by
  induction calls using List.reverseRecOn with
  | nil => exact .inl log.quiet_nil
  | append_singleton calls call ih =>
      cases isError : call.isError with
      | true => exact .inr (.inl ⟨calls, call, [], rfl, isError, quiet_nil _⟩)
      | false =>
          by_cases refused : (log.performs calls).Refused (log.performs (calls ++ [call]))
          · exact .inr (.inr ⟨calls, call, [], rfl, isError, refused, quiet_nil _⟩)
          · rw [performs_append] at refused
            exact quiet_or_last_concat ⟨by simpa using isError, refused⟩ ih

/-- Once a line is refused, the last incident is a refusal unless an error follows. -/
theorem refusalLast_of_refused (refused : log.Refused (log.performs calls))
    (noError : ∀ front call, front ++ [call] <+: calls → call.isError = true →
      ¬ log.Refused (log.performs (front ++ [call]))) : log.RefusalLast calls := by
  obtain quiet | ⟨before, call, later, rfl, isError, since⟩ | last := log.quiet_or_last calls
  · exact absurd refused quiet.2
  · have front : before ++ [call] <+: before ++ call :: later := ⟨later, by simp⟩
    rw [List.append_cons, performs_append, refused_performs_iff] at refused
    exact absurd refused (not_or.mpr ⟨noError before call front isError, since.2⟩)
  · exact last

/-- The exit code of a logger, whatever calls are made and whichever writes its output refuses.  It
is zero if and only if no call logged an error and no write was refused; else the last call that did
either decides: the code is one if that call logged an error and two if its line was refused only.
The code is therefore two from the first refused write on if and only if no error is logged by that
call or a later one. -/
theorem exitCode_performs (refuses : Nat → Bool) (calls : List Call) :
    let log : Logger := { refuses }
    let refusedIn (calls : List Call) := ∃ index < (log.performs calls).writes, refuses index = true
    ((log.performs calls).exitCode = 0 ↔
      (∀ call ∈ calls, call.isError = false) ∧ ¬ refusedIn calls) ∧
    ((log.performs calls).exitCode = 1 ↔ log.ErrorLast calls) ∧
    ((log.performs calls).exitCode = 2 ↔ log.RefusalLast calls) ∧
    ((∀ front, front <+: calls → refusedIn front → (log.performs front).exitCode = 2) ↔
      ∀ front call, front ++ [call] <+: calls → call.isError = true →
        ¬ refusedIn (front ++ [call])) := by
  intro log refusedIn
  have refused_iff (calls : List Call) : refusedIn calls ↔ log.Refused (log.performs calls) := by
    simp [refusedIn, Refused, log]
  have zero (quiet : log.Quiet calls) : (log.performs calls).exitCode = 0 := quiet.exitCode_eq
  simp only [refused_iff]
  refine ⟨⟨fun isZero => ?_, zero⟩, ⟨fun isOne => ?_, ErrorLast.exitCode_eq⟩,
    ⟨fun isTwo => ?_, RefusalLast.exitCode_eq⟩, fun always front call isFront isError refused => ?_,
    fun noError front isFront refused => ?_⟩
  · obtain quiet | last | last := log.quiet_or_last calls
    · exact quiet
    · exact absurd (last.exitCode_eq.symm.trans isZero) (by decide)
    · exact absurd (last.exitCode_eq.symm.trans isZero) (by decide)
  · obtain quiet | last | last := log.quiet_or_last calls
    · exact absurd ((zero quiet).symm.trans isOne) (by decide)
    · exact last
    · exact absurd (last.exitCode_eq.symm.trans isOne) (by decide)
  · obtain quiet | last | last := log.quiet_or_last calls
    · exact absurd ((zero quiet).symm.trans isTwo) (by decide)
    · exact absurd (last.exitCode_eq.symm.trans isTwo) (by decide)
    · exact last
  · have isTwo := always (front ++ [call]) isFront refused
    rw [performs_concat, exitCode_perform_of_isError isError] at isTwo
    exact absurd isTwo (by decide)
  · exact (refusalLast_of_refused refused fun before call within =>
      noError before call (within.trans isFront)).exitCode_eq

/-- An error that cannot be logged hides that the output failed. -/
example : (({ refuses := fun _ => true } : Logger).performs [.error "boom" []]).exitCode = 1 := by
  decide

end StackMachine.Logger
