import Mathlib
import StackMachine.Proofs.Machine.Safety
import StackMachine.Proofs.Machine.Untraced

/-!
# Tracing changes nothing

A run with a log does the same as the run without one, whatever the log does with the line about a
halt: the error that caused the halt is the one reported.  Any other line that a log refuses breaks
the run off.  So the two runs end alike exactly if the log refuses no line, but perhaps that one
(`Machine.run_traced_iff`).

The lines of a run are those that a log gets which takes every line.  A run with another log goes
the same way as long as that log takes the lines, which is the invariant here.
-/

namespace StackMachine

/-! ## Lines -/

/-- Whether a log takes some lines, of which the last comes first. -/
def Tracer.takes (tracer : Tracer) : List String → Bool
  | [] => true
  | line :: earlier => !tracer.refuses earlier.length line && tracer.takes earlier

namespace Tracer

variable {tracer : Tracer}

theorem takes_cons_iff {line : String} {earlier : List String} :
    tracer.takes (line :: earlier) = true ↔
      tracer.refuses earlier.length line = false ∧ tracer.takes earlier = true := by
  simp [takes]

theorem takes_of_suffix {lines earlier : List String} (suffix : earlier <:+ lines)
    (taken : tracer.takes lines = true) : tracer.takes earlier = true := by
  induction lines with
  | nil =>
      cases List.suffix_nil.mp suffix
      rfl
  | cons line rest ih =>
      rcases List.suffix_cons_iff.mp suffix with same | shorter
      · rw [same]
        exact taken
      · exact ih shorter (takes_cons_iff.mp taken).2

theorem not_takes_of_suffix {lines earlier : List String} (suffix : earlier <:+ lines)
    (refused : tracer.takes earlier = false) : tracer.takes lines = false := by
  by_contra taken
  rw [takes_of_suffix suffix (Bool.eq_true_of_not_eq_false taken)] at refused
  cases refused

/-- A log takes some lines if it takes each of them after those before it. -/
theorem takes_iff (lines : List String) :
    tracer.takes lines = true ↔
      ∀ (count : Nat) (line : String), lines.reverse[count]? = some line →
        tracer.refuses count line = false := by
  induction lines with
  | nil => simp [takes]
  | cons line earlier ih =>
      rw [takes_cons_iff, ih, List.reverse_cons]
      constructor
      · rintro ⟨last, others⟩ count found isLine
        rcases Nat.lt_or_ge count earlier.length with before | atEnd
        · rw [List.getElem?_append_left (by simpa using before)] at isLine
          exact others count found isLine
        · rw [List.getElem?_append_right (by simpa using atEnd),
            List.getElem?_singleton] at isLine
          split at isLine
          · next place =>
              cases isLine
              rw [List.length_reverse] at place
              rw [show count = earlier.length by omega]
              exact last
          · cases isLine
      · intro each
        constructor
        · apply each
          simp
        · intro count found isLine
          apply each
          rw [List.getElem?_append_left]
          · exact isLine
          · exact (List.getElem?_eq_some_iff.mp isLine).1

/-- A log takes some lines if, with one more line after them, it refuses none but that. -/
theorem takes_iff_of_last (lines : List String) (last : String) :
    tracer.takes lines = true ↔
      ∀ (count : Nat) (line : String), (last :: lines).reverse[count]? = some line →
        tracer.refuses count line = true →
          count + 1 = (last :: lines).reverse.length ∧ line = last := by
  rw [takes_iff, List.reverse_cons, List.length_append, List.length_singleton]
  constructor
  · intro each count line found refused
    rcases Nat.lt_or_ge count lines.reverse.length with before | atEnd
    · rw [List.getElem?_append_left before] at found
      rw [each count line found] at refused
      cases refused
    · rw [List.getElem?_append_right atEnd, List.getElem?_singleton] at found
      split at found
      · cases found
        exact ⟨by omega, rfl⟩
      · cases found
  · intro each count line found
    have before : count < lines.reverse.length := (List.getElem?_eq_some_iff.mp found).1
    by_contra refused
    have atEnd := (each count line (by rw [List.getElem?_append_left before, found])
      (Bool.eq_true_of_not_eq_false refused)).1
    omega

end Tracer

namespace Trace

/-- The lines are counted. -/
def Counted (trace : Trace) : Prop := trace.count = trace.lines.length

variable {trace : Trace}

theorem Counted.log_full (counted : trace.Counted) (mark : String) (message : Unit → String) :
    (trace.log (some {}) mark message).1.Counted :=
  congrArg (· + 1) counted

theorem suffix_log_full (mark : String) (message : Unit → String) (trace : Trace) :
    trace.lines <:+ (trace.log (some {}) mark message).1.lines :=
  List.suffix_cons _ _

/-- A log that has taken all lines so far takes the next one as well, or refuses it. -/
theorem log_cases {tracer : Tracer} (counted : trace.Counted)
    (taken : tracer.takes trace.lines = true) (mark : String) (message : Unit → String) :
    (tracer.takes (trace.log (some {}) mark message).1.lines = true ∧
        trace.log (some tracer) mark message = trace.log (some {}) mark message) ∨
      (tracer.takes (trace.log (some {}) mark message).1.lines = false ∧
        (trace.log (some tracer) mark message).2 = true) := by
  have lines : (trace.log (some {}) mark message).1.lines =
      (String.ofList (padded mark.toList trace.width) ++ " " ++ message ()) :: trace.lines := rfl
  have length : trace.lines.length = trace.count := counted.symm
  rw [lines, Tracer.takes, taken, Bool.and_true, length, log]
  cases tracer.refuses trace.count
    (String.ofList (padded mark.toList trace.width) ++ " " ++ message ())
  · exact .inl ⟨rfl, rfl⟩
  · exact .inr ⟨rfl, rfl⟩

end Trace

/-- The line about a halt, under a mark of some width. -/
def haltLine (width : Nat) (error : RunError) : String :=
  String.ofList (Trace.padded "#".toList width) ++ " " ++ s!"halt error: {error.message}"

/-- The settings of a run with another log, or with none. -/
def RunSetup.withTracer (setup : RunSetup) (tracer : Option Tracer) : RunSetup :=
  { setup with tracer }

/-- The settings of a run with a log that takes every line. -/
def RunSetup.transcribed (setup : RunSetup) : RunSetup := setup.withTracer (some {})

/-! ## The lines of a run -/

namespace RunState

/-- The trace of a run whose finished activations have been ended. -/
def Settled.trace : Settled → Trace
  | .halted state _ => state.trace
  | .ready _ _ _ _ trace => trace

/-- The lines of a run, without the line about its halt. -/
def progress (s : RunState) : Option Halt → List String
  | some (.failed _) => s.trace.lines.tail
  | _ => s.trace.lines

/-- The lines of a run that has ended, without the line about its halt. -/
def Ending.progress (ending : Ending) : List String := ending.state.progress (some ending.halt)

theorem progress_of_not_failed {s : RunState} {halt : Halt}
    (notFailed : ∀ error, halt ≠ .failed error) : s.progress (some halt) = s.trace.lines := by
  cases halt with
  | failed error => exact absurd rfl (notFailed error)
  | finished => rfl
  | crashed crash => rfl

section Transcribed

variable (setup : RunSetup) {trace : Trace} (counted : trace.Counted)
include counted

/-- The end of activations only adds lines. -/
theorem settleFrom_lines (world : World) (frames : List Frame) :
    (settleFrom setup.transcribed world frames trace).trace.Counted ∧
      trace.lines <:+ (settleFrom setup.transcribed world frames trace).trace.lines := by
  induction frames generalizing trace with
  | nil => exact ⟨counted, List.suffix_rfl⟩
  | cons frame rest ih =>
      cases fetched : frame.fetch with
      | instruction token =>
          rw [settleFrom, fetched]
          exact ⟨counted, List.suffix_rfl⟩
      | crash crash =>
          rw [settleFrom, fetched]
          exact ⟨counted, List.suffix_rfl⟩
      | bodyEnd =>
          obtain ⟨stillCounted, suffix⟩ := ih (counted.log_full "<" (frame.returnMessage world))
          rw [settleFrom_of_bodyEnd fetched]
          exact ⟨stillCounted, (Trace.suffix_log_full ..).trans suffix⟩

/-- An instruction adds the line about it, and perhaps others after that. -/
theorem step_lines (frame : Frame) (rest : List Frame) (token : Token) (world : World) :
    ((step setup.transcribed frame rest token world trace).2 = none →
        (step setup.transcribed frame rest token world trace).1.trace.Counted) ∧
      (trace.log (some {}) "exec" (frame.executeMessage token world)).1.lines <:+
        (step setup.transcribed frame rest token world trace).1.progress
          (step setup.transcribed frame rest token world trace).2 := by
  have logged : trace.log setup.transcribed.tracer "exec" (frame.executeMessage token world) =
      (_, false) := rfl
  have counts := counted.log_full "exec" (frame.executeMessage token world)
  rcases executed : setup.transcribed.execute frame.function.body frame.depth token world with
    ⟨after, cause | control⟩
  · rw [step_of_error logged executed]
    exact ⟨nofun, List.suffix_rfl⟩
  · by_cases entered : ∃ callee, control = .enter callee
    · obtain ⟨callee, rfl⟩ := entered
      rw [step_of_enter logged executed, enter_eq]
      exact ⟨fun _ => counts.log_full ">" (callee.enterMessage (frame.depth + 1)),
        Trace.suffix_log_full ..⟩
    · rw [step_of_stay logged executed (not_exists.mp entered)]
      exact ⟨fun _ => counts, List.suffix_rfl⟩

end Transcribed

theorem run_of_halted {setup : RunSetup} {s state : RunState} {halt : Halt}
    (settled : s.settle setup = .halted state halt) (fuel : Nat) :
    s.run setup fuel = ⟨state, halt, fuel⟩ := by
  cases fuel <;> rw [run, settled]

theorem run_lines (setup : RunSetup) (fuel : Nat) {s : RunState} (counted : s.trace.Counted) :
    (s.settle setup.transcribed).trace.lines <:+ (s.run setup.transcribed fuel).progress := by
  induction fuel generalizing s with
  | zero =>
      cases settled : s.settle setup.transcribed with
      | halted state halt =>
          rw [run_of_halted settled, Ending.progress,
            progress_of_not_failed (settleFrom_halts settled).2]
          exact List.suffix_rfl
      | ready frame rest token world trace =>
          rw [run, settled]
          exact List.suffix_rfl
  | succ fuel ih =>
      cases settled : s.settle setup.transcribed with
      | halted state halt =>
          rw [run_of_halted settled, Ending.progress,
            progress_of_not_failed (settleFrom_halts settled).2]
          exact List.suffix_rfl
      | ready frame rest token world trace =>
          have counts := (settleFrom_lines setup counted s.world s.frames).1
          rw [← settle, settled] at counts
          have begun := trace.suffix_log_full "exec" (frame.executeMessage token world)
          have steps := step_lines setup (show trace.Counted from counts) frame rest token world
          rw [run, settled]
          dsimp only
          revert steps
          rcases step setup.transcribed frame rest token world trace with ⟨next, _ | halt⟩
          · rintro ⟨counted, more⟩
            have settles := (settleFrom_lines setup (counted rfl) next.world next.frames).2
            exact begun.trans (more.trans (settles.trans (ih (counted rfl))))
          · rintro ⟨-, more⟩
            exact begun.trans more

/-- A run only adds lines. -/
theorem suffix_run (setup : RunSetup) (fuel : Nat) {s : RunState} (counted : s.trace.Counted) :
    s.trace.lines <:+ (s.run setup.transcribed fuel).progress :=
  (settleFrom_lines setup counted s.world s.frames).2.trans (run_lines setup fuel counted)

/-! ## Runs with any log -/

section Any

variable (setup : RunSetup) {tracer : Tracer} {trace : Trace} (counted : trace.Counted)
  (taken : tracer.takes trace.lines = true)
include counted taken

/-- Activations end alike, unless the log refuses a line about it. -/
theorem settleFrom_traced (world : World) (frames : List Frame) :
    (tracer.takes (settleFrom setup.transcribed world frames trace).trace.lines = true ∧
        settleFrom (setup.withTracer (some tracer)) world frames trace =
          settleFrom setup.transcribed world frames trace) ∨
      (tracer.takes (settleFrom setup.transcribed world frames trace).trace.lines = false ∧
        ∃ state, settleFrom (setup.withTracer (some tracer)) world frames trace =
          .halted state (.crashed .traceRefused)) := by
  induction frames generalizing trace with
  | nil => exact .inl ⟨taken, rfl⟩
  | cons frame rest ih =>
      cases fetched : frame.fetch with
      | instruction token =>
          simp only [settleFrom, fetched]
          exact .inl ⟨taken, trivial⟩
      | crash crash =>
          simp only [settleFrom, fetched]
          exact .inl ⟨taken, trivial⟩
      | bodyEnd =>
          have counts := counted.log_full "<" (frame.returnMessage world)
          have full : settleFrom setup.transcribed world (frame :: rest) trace =
              settleFrom setup.transcribed world rest _ :=
            settleFrom_of_bodyEnd fetched setup.transcribed world rest trace
          have cut : settleFrom (setup.withTracer (some tracer)) world (frame :: rest) trace = _ :=
            settleFrom_of_bodyEnd fetched (setup.withTracer (some tracer)) world rest trace
          rcases trace.log_cases counted taken "<" (frame.returnMessage world) with
            ⟨stillTaken, same⟩ | ⟨refused, breaks⟩
          · have accepts : settleFrom (setup.withTracer (some tracer)) world (frame :: rest) trace =
                settleFrom (setup.withTracer (some tracer)) world rest _ :=
              cut.trans (by rw [RunSetup.withTracer, same]; rfl)
            rw [full, accepts]
            exact ih counts stillTaken
          · right
            rw [full]
            refine ⟨Tracer.not_takes_of_suffix (settleFrom_lines setup counts world rest).2 refused,
              _, cut.trans (if_pos breaks)⟩

/-- A function is entered alike, unless the log refuses the line about it. -/
theorem enter_traced {frames : List Frame} {world : World} (callee : Function) (depth : Nat) :
    (tracer.takes (enter setup.transcribed callee depth ⟨frames, world, trace⟩).1.trace.lines =
          true ∧
        enter (setup.withTracer (some tracer)) callee depth ⟨frames, world, trace⟩ =
          enter setup.transcribed callee depth ⟨frames, world, trace⟩) ∨
      (tracer.takes (enter setup.transcribed callee depth ⟨frames, world, trace⟩).1.trace.lines =
          false ∧
        (enter (setup.withTracer (some tracer)) callee depth ⟨frames, world, trace⟩).2 =
          some (.crashed .traceRefused)) := by
  rcases trace.log_cases counted taken ">" (callee.enterMessage depth) with
    ⟨stillTaken, same⟩ | ⟨refused, breaks⟩
  · have alike : trace.log (setup.withTracer (some tracer)).tracer ">" _ =
      trace.log setup.transcribed.tracer ">" _ := same
    refine .inl ⟨stillTaken, ?_⟩
    rw [enter_eq, enter_eq, alike]
  · exact .inr ⟨refused, if_pos breaks⟩

/-- An instruction does the same, unless the log refuses a line about it other than the one about
a halt. -/
theorem step_traced (frame : Frame) (rest : List Frame) (token : Token) (world : World) :
    let full := step setup.transcribed frame rest token world trace
    let cut := step (setup.withTracer (some tracer)) frame rest token world trace
    (tracer.takes (full.1.progress full.2) = true ∧ cut.2 = full.2 ∧
        cut.1.untraced = full.1.untraced ∧ (full.2 = none → cut.1 = full.1)) ∨
      (tracer.takes (full.1.progress full.2) = false ∧
        cut.2 = some (.crashed .traceRefused)) := by
  have logged : trace.log setup.transcribed.tracer "exec" (frame.executeMessage token world) =
      ((trace.log (some {}) "exec" (frame.executeMessage token world)).1, false) := rfl
  have counts := counted.log_full "exec" (frame.executeMessage token world)
  rcases trace.log_cases counted taken "exec" (frame.executeMessage token world) with
    ⟨stillTaken, same⟩ | ⟨refused, breaks⟩
  · have accepts : trace.log (setup.withTracer (some tracer)).tracer "exec"
        (frame.executeMessage token world) = (_, false) := same.trans logged
    rcases executed : setup.execute frame.function.body frame.depth token world with
      ⟨after, cause | control⟩
    · have fails := step_of_error logged executed rest
      have failsToo := step_of_error accepts executed rest
      dsimp only
      rw [fails, failsToo]
      exact .inl ⟨stillTaken, rfl, rfl, nofun⟩
    · by_cases entered : ∃ callee, control = .enter callee
      · obtain ⟨callee, rfl⟩ := entered
        have enters := step_of_enter logged executed rest
        have entersToo := step_of_enter accepts executed rest
        dsimp only
        rw [enters, entersToo]
        rcases enter_traced setup counts stillTaken callee (frame.depth + 1) with
          ⟨takenToo, alike⟩ | ⟨refused, breaks⟩
        · rw [alike]
          exact .inl ⟨takenToo, rfl, rfl, fun _ => rfl⟩
        · exact .inr ⟨refused, breaks⟩
      · have stays := step_of_stay logged executed (not_exists.mp entered) rest
        have staysToo := step_of_stay accepts executed (not_exists.mp entered) rest
        dsimp only
        rw [stays, staysToo]
        exact .inl ⟨stillTaken, rfl, rfl, fun _ => rfl⟩
  · have stops : step (setup.withTracer (some tracer)) frame rest token world trace = _ :=
      step_of_refused breaks rest
    dsimp only
    rw [stops]
    exact .inr ⟨Tracer.not_takes_of_suffix (step_lines setup counted frame rest token world).2
      refused, rfl⟩

end Any

/-- What becomes of a run with a log, compared with the run whose log takes every line. -/
def Ending.Follows (tracer : Tracer) (full cut : Ending) : Prop :=
  (tracer.takes full.progress = true ∧ cut.untraced = full.untraced) ∨
    (tracer.takes full.progress = false ∧ cut.halt = .crashed .traceRefused)

section Runs

variable (setup : RunSetup) {tracer : Tracer} {s : RunState} (counted : s.trace.Counted)
  (taken : tracer.takes s.trace.lines = true)
include counted taken

/-- Two runs that compare once an instruction is due compare before that. -/
theorem follows_of_ready {fuel : Nat}
    (goesOn : ∀ frame rest token world trace, trace.Counted → tracer.takes trace.lines = true →
      s.settle setup.transcribed = .ready frame rest token world trace →
      s.settle (setup.withTracer (some tracer)) = .ready frame rest token world trace →
      Ending.Follows tracer (s.run setup.transcribed fuel)
        (s.run (setup.withTracer (some tracer)) fuel)) :
    Ending.Follows tracer (s.run setup.transcribed fuel)
      (s.run (setup.withTracer (some tracer)) fuel) := by
  have counts := (settleFrom_lines setup counted s.world s.frames).1
  rcases settleFrom_traced setup counted taken s.world s.frames with
    ⟨stillTaken, same⟩ | ⟨refused, state, breaks⟩
  · rw [← settle] at stillTaken counts
    rw [← settle, ← settle] at same
    cases settled : s.settle setup.transcribed with
    | halted state halt =>
        rw [settled] at same stillTaken
        rw [run_of_halted settled, run_of_halted same]
        refine .inl ⟨?_, rfl⟩
        rw [Ending.progress, progress_of_not_failed (settleFrom_halts settled).2]
        exact stillTaken
    | ready frame rest token world trace =>
        rw [settled] at same stillTaken counts
        exact goesOn frame rest token world trace counts stillTaken settled same
  · rw [← settle] at refused breaks
    rw [run_of_halted breaks]
    exact .inr ⟨Tracer.not_takes_of_suffix (run_lines setup fuel counted) refused, rfl⟩

end Runs

/-- A run goes the same way, unless the log refuses a line other than the one about a halt. -/
theorem run_follows (setup : RunSetup) {tracer : Tracer} (fuel : Nat) {s : RunState}
    (counted : s.trace.Counted) (taken : tracer.takes s.trace.lines = true) :
    Ending.Follows tracer (s.run setup.transcribed fuel)
      (s.run (setup.withTracer (some tracer)) fuel) := by
  induction fuel generalizing s with
  | zero =>
      apply follows_of_ready setup counted taken
      intro frame rest token world trace _ stillTaken full cut
      rw [run, full, run, cut]
      exact .inl ⟨stillTaken, rfl⟩
  | succ fuel ih =>
      apply follows_of_ready setup counted taken
      intro frame rest token world trace counts stillTaken full cut
      rw [run, full, run, cut]
      have lines := step_lines setup counts frame rest token world
      have compared := step_traced setup counts stillTaken frame rest token world
      dsimp only at compared ⊢
      revert lines compared
      rcases step setup.transcribed frame rest token world trace with ⟨next, _ | halt⟩ <;>
        rcases step (setup.withTracer (some tracer)) frame rest token world trace with
          ⟨other, result⟩
      · rintro ⟨counted, -⟩ (⟨takenOn, rfl, -, same⟩ | ⟨refused, rfl⟩)
        · cases same rfl
          exact ih (counted rfl) takenOn
        · exact .inr ⟨Tracer.not_takes_of_suffix (suffix_run setup fuel (counted rfl)) refused, rfl⟩
      · rintro - (⟨takenOn, rfl, same, -⟩ | ⟨refused, rfl⟩)
        · exact .inl ⟨takenOn, congrArg (fun state => Ending.mk state halt fuel) same⟩
        · exact .inr ⟨refused, rfl⟩

/-! ## How a run ends -/

/-- Only a log breaks a run off with a line that it refuses. -/
theorem settleFrom_not_refused {setup : RunSetup} (accepts : setup.LogAccepts) {world : World}
    {frames : List Frame} {trace : Trace} {state : RunState} {halt : Halt}
    (settled : settleFrom setup world frames trace = .halted state halt) :
    halt ≠ .crashed .traceRefused := by
  induction frames generalizing trace with
  | nil =>
      cases settled
      rintro ⟨⟩
  | cons frame rest ih =>
      cases fetched : frame.fetch with
      | instruction token =>
          rw [settleFrom, fetched] at settled
          cases settled
      | crash crash =>
          rw [settleFrom, fetched] at settled
          cases settled
          rintro ⟨⟩
          unfold Frame.fetch at fetched
          split at fetched
          · cases fetched
          · split at fetched <;> cases fetched
      | bodyEnd =>
          rw [settleFrom_of_bodyEnd fetched] at settled
          dsimp only at settled
          rw [Trace.log_accepted accepts] at settled
          exact ih settled

variable {setup : RunSetup} {fuel : Nat} {s : RunState} {ending : Ending}

theorem Stops.not_refused (accepts : setup.LogAccepts) (stops : Stops setup fuel s ending) :
    ending.halt ≠ .crashed .traceRefused := by
  cases stops with
  | halted settled => exact settleFrom_not_refused accepts settled
  | spent settled failed =>
      cases failed
      rintro ⟨⟩
  | failed settled stepped =>
      obtain ⟨cause, -, rfl⟩ := step_eq_some accepts stepped
      rintro ⟨⟩

/-- The last line of a run that halts at an instruction is the one about the halt. -/
theorem Stops.last_line {error : RunError} (stops : Stops setup.transcribed fuel s ending)
    (failed : ending.halt = .failed error) :
    ∃ width, ending.state.trace.lines = haltLine width error :: ending.progress := by
  cases stops with
  | halted settled => exact absurd failed ((settleFrom_halts settled).2 error)
  | @spent _ _ _ _ _ trace _ _ settled stopped =>
      cases stopped
      cases failed
      exact ⟨trace.width, rfl⟩
  | @failed _ _ frame rest token world trace state _ settled stepped =>
      cases failed
      have logged : trace.log setup.transcribed.tracer "exec"
          (frame.executeMessage token world) = (_, false) := rfl
      rcases step_halts stepped with ⟨-, crashed⟩ | ⟨cause, executed, same⟩
      · cases crashed
      · generalize state.world = after at executed
        rw [step_of_error logged executed rest] at stepped
        cases stepped
        exact ⟨_, rfl⟩

end RunState

namespace Machine

/-- A machine with another log, or with none. -/
def withTracer (machine : Machine) (tracer : Option Tracer) : Machine :=
  { machine with setup := machine.setup.withTracer tracer }

/-- Two runs that give the same result, whatever they log. -/
def Alike (first second : RunReport × Machine) : Prop :=
  first.1.failure = second.1.failure ∧ first.1.fuel = second.1.fuel ∧
    first.2.memory = second.2.memory ∧ first.2.input = second.2.input ∧
    first.2.output = second.2.output

theorem alike_of_untraced {first second : Machine} {fuel : Nat}
    (same : (first.execution fuel).untraced = (second.execution fuel).untraced) :
    Alike (first.run fuel) (second.run fuel) := by
  obtain ⟨states, halts, fuels⟩ := RunState.Ending.mk.injEq .. ▸ same
  have worlds : (first.execution fuel).state.world = (second.execution fuel).state.world :=
    (RunState.mk.injEq .. ▸ states).2.1
  unfold Alike run
  dsimp only
  rw [halts, worlds, fuels]
  exact ⟨rfl, rfl, rfl, rfl, rfl⟩

variable (machine : Machine)

/-- The state of a machine that has entered its `main`. -/
def entered (main : Function) (trace : Trace) : RunState :=
  ⟨[⟨main, 0, 1⟩], machine.initial.world, trace⟩

theorem execution_of_main {main : Function}
    (found : machine.setup.program.lookup? "main" = some main) (fuel : Nat) :
    machine.execution fuel =
      let logged := machine.initial.trace.log machine.setup.tracer ">" (main.enterMessage 1)
      if logged.2 then ⟨machine.entered main logged.1, .crashed .traceRefused, fuel⟩
      else (machine.entered main logged.1).run machine.setup fuel := by
  rw [execution_eq, start, found]
  dsimp only
  rw [RunState.enter_eq]
  rcases machine.initial.trace.log machine.setup.tracer ">" (main.enterMessage 1) with
    ⟨trace, _ | _⟩
  · rfl
  · rfl

theorem execution_of_no_main (missing : machine.setup.program.lookup? "main" = none) (fuel : Nat) :
    machine.execution fuel =
      let logged := machine.initial.trace.log machine.setup.tracer "#" fun _ => "no main function"
      ⟨{ machine.initial with trace := logged.1 },
        if logged.2 then .crashed .traceRefused else .finished, fuel⟩ := by
  rw [execution_eq, start, missing]

theorem execution_untraced (fuel : Nat) :
    ((machine.withTracer (some {})).execution fuel).untraced =
      ((machine.withTracer none).execution fuel).untraced := by
  have accepts : (machine.withTracer (some {})).setup.LogAccepts := by
    rintro _ ⟨⟩ _ _
    rfl
  have silent : (machine.withTracer none).setup.LogAccepts := by
    rintro _ ⟨⟩
  cases found : machine.setup.program.lookup? "main" with
  | some main =>
      have full := execution_of_main (machine.withTracer (some {})) found fuel
      have plain := execution_of_main (machine.withTracer none) found fuel
      dsimp only at full plain
      rw [Trace.log_accepted accepts, if_neg Bool.false_ne_true] at full
      rw [Trace.log_accepted silent, if_neg Bool.false_ne_true] at plain
      rw [full, plain, RunState.run_untraced accepts, RunState.run_untraced silent]
      rfl
  | none =>
      rw [execution_of_no_main (machine.withTracer (some {})) found,
        execution_of_no_main (machine.withTracer none) found]
      rfl

/-- The line about a missing `main` is the only one of its run. -/
theorem execution_follows (tracer : Tracer) (fuel : Nat) :
    RunState.Ending.Follows tracer ((machine.withTracer (some {})).execution fuel)
      ((machine.withTracer (some tracer)).execution fuel) := by
  have counted : machine.initial.trace.Counted := rfl
  have taken : tracer.takes machine.initial.trace.lines = true := rfl
  cases found : machine.setup.program.lookup? "main" with
  | some main =>
      have counts := counted.log_full ">" (main.enterMessage 1)
      have full : (machine.withTracer (some {})).execution fuel =
          (machine.entered main
            (machine.initial.trace.log (some {}) ">" (main.enterMessage 1)).1).run
              machine.setup.transcribed fuel :=
        execution_of_main (machine.withTracer (some {})) found fuel
      have cut : (machine.withTracer (some tracer)).execution fuel =
          let logged := machine.initial.trace.log (some tracer) ">" (main.enterMessage 1)
          if logged.2 then ⟨machine.entered main logged.1, .crashed .traceRefused, fuel⟩
          else (machine.entered main logged.1).run (machine.setup.withTracer (some tracer)) fuel :=
        execution_of_main (machine.withTracer (some tracer)) found fuel
      rw [full, cut]
      rcases Trace.log_cases counted taken ">" (main.enterMessage 1) with
        ⟨stillTaken, same⟩ | ⟨refused, breaks⟩
      · rw [same]
        exact RunState.run_follows machine.setup fuel counts stillTaken
      · have more := RunState.suffix_run machine.setup fuel
          (s := machine.entered main _) counts
        dsimp only
        rw [if_pos breaks]
        exact .inr ⟨Tracer.not_takes_of_suffix more refused, rfl⟩
  | none =>
      have full := execution_of_no_main (machine.withTracer (some {})) found fuel
      have cut : (machine.withTracer (some tracer)).execution fuel =
          let logged := machine.initial.trace.log (some tracer) "#" fun _ => "no main function"
          ⟨{ machine.initial with trace := logged.1 },
            if logged.2 then .crashed .traceRefused else .finished, fuel⟩ :=
        execution_of_no_main (machine.withTracer (some tracer)) found fuel
      rw [full, cut]
      rcases Trace.log_cases counted taken "#" (fun _ => "no main function") with
        ⟨stillTaken, same⟩ | ⟨refused, breaks⟩
      · rw [same]
        exact .inl ⟨stillTaken, rfl⟩
      · exact .inr ⟨refused, if_pos breaks⟩

variable {machine}

theorem halt_not_refused (accepts : machine.setup.LogAccepts) (fuel : Nat) :
    (machine.execution fuel).halt ≠ .crashed .traceRefused := by
  rcases machine.execution_stops fuel with
    ⟨state, halt, started, ended⟩ | ⟨left, last, -, -, stops⟩
  · rw [ended, start_eq_some accepts started]
    rintro ⟨⟩
  · exact stops.not_refused accepts

variable (machine)

/-- The last line of a run that halts at an instruction is the one about the halt. -/
theorem last_line {fuel : Nat} {error : RunError}
    (failed : ((machine.withTracer (some {})).execution fuel).halt = .failed error) :
    ∃ width, ((machine.withTracer (some {})).execution fuel).state.trace.lines =
      haltLine width error :: ((machine.withTracer (some {})).execution fuel).progress := by
  rcases (machine.withTracer (some {})).execution_stops fuel with
    ⟨state, halt, started, ended⟩ | ⟨left, last, -, -, stops⟩
  · rw [ended] at failed
    exact absurd failed ((start_halts started).2 error)
  · exact stops.last_line failed

/-- The runs with and without a log give the same result exactly if the log takes the lines that
come before one about a halt. -/
theorem alike_iff_takes (tracer : Tracer) (fuel : Nat) :
    Alike ((machine.withTracer (some tracer)).run fuel) ((machine.withTracer none).run fuel) ↔
      tracer.takes ((machine.withTracer (some {})).execution fuel).progress = true := by
  rcases machine.execution_follows tracer fuel with ⟨taken, same⟩ | ⟨refused, breaks⟩
  · exact iff_of_true (alike_of_untraced (same.trans (machine.execution_untraced fuel))) taken
  · rw [refused]
    refine iff_of_false ?_ Bool.false_ne_true
    rintro ⟨failures, -⟩
    have silent : (machine.withTracer none).setup.LogAccepts := by
      rintro _ ⟨⟩
    apply halt_not_refused silent fuel
    rw [← failureOf_eq_crashed_iff, ← (failureOf_eq_crashed_iff _ _ _).mpr breaks]
    exact failures.symm

/-- A run with a log gives the same result as the run without one exactly if the log takes every
line, but perhaps the one about a halt. -/
theorem run_traced_iff (tracer : Tracer) (fuel : Nat) :
    Alike ((machine.withTracer (some tracer)).run fuel) ((machine.withTracer none).run fuel) ↔
      ∀ count line, ((machine.withTracer (some {})).run fuel).1.lines[count]? = some line →
        tracer.refuses count line = true →
          ∃ error width,
            ((machine.withTracer (some {})).run fuel).1.failure = some (.halted error) ∧
              count + 1 = ((machine.withTracer (some {})).run fuel).1.lines.length ∧
              line = haltLine width error := by
  have halted : ∀ error,
      ((machine.withTracer (some {})).run fuel).1.failure = some (.halted error) ↔
        ((machine.withTracer (some {})).execution fuel).halt = .failed error :=
    failureOf_eq_halted_iff _ _
  have lines : ((machine.withTracer (some {})).run fuel).1.lines =
      ((machine.withTracer (some {})).execution fuel).state.trace.lines.reverse := rfl
  rw [alike_iff_takes, lines]
  simp only [halted]
  by_cases failed : ∃ error, ((machine.withTracer (some {})).execution fuel).halt = .failed error
  · obtain ⟨error, failed⟩ := failed
    obtain ⟨width, lastLine⟩ := machine.last_line failed
    rw [lastLine, Tracer.takes_iff_of_last _ (haltLine width error)]
    constructor
    · intro each count line found refused
      exact ⟨error, width, failed, each count line found refused⟩
    · intro each count line found refused
      obtain ⟨-, -, -, atEnd, -⟩ := each count line found refused
      refine ⟨atEnd, ?_⟩
      rw [List.reverse_cons, List.length_append, List.length_singleton, Nat.add_right_cancel_iff]
        at atEnd
      rw [List.reverse_cons, atEnd, List.getElem?_concat_length] at found
      exact (Option.some.inj found).symm
  · rw [RunState.Ending.progress, RunState.progress_of_not_failed (not_exists.mp failed),
      Tracer.takes_iff]
    apply forall_congr'
    intro count
    apply forall_congr'
    intro line
    apply imp_congr_right
    intro _
    rw [← Bool.not_eq_true]
    apply imp_congr_right
    intro _
    apply iff_of_false not_false
    rintro ⟨error, -, isFailed, -⟩
    exact failed ⟨error, isFailed⟩

end Machine

end StackMachine
