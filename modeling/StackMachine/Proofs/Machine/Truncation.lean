import Mathlib
import StackMachine.Proofs.Machine.Operations
import StackMachine.Proofs.Source.Truncation

/-!
# Runs whose input fails

A run on an input that fails early goes the way of the run on the whole input, instruction for
instruction, until a read reports the failure (`Machine.after?_failsIn`).  So it has in its memory
nothing that the other does not have: what is left of a word that the failure cuts is never taken
for a number.
-/

namespace StackMachine

/-- The world with another input. -/
def World.withInput (w : World) (input : Input) : World := { w with input }

theorem World.memory_withInput (w : World) (input : Input) :
    (w.withInput input).memory = w.memory :=
  rfl

/-- An action that, on an input that fails early, reports the failure or does what it does on the
whole input. -/
def HeedsFailure (fault : ReadFault) {α : Type} (action : World → World × Except Cause α) : Prop :=
  ∀ w whole, w.input.FailsIn fault whole →
    (action w).2 = .error (.inputFault fault) ∨
      ∃ rest, (action w).1.input.FailsIn fault rest ∧
        action (w.withInput whole) = ((action w).1.withInput rest, (action w).2)

variable {fault : ReadFault}

namespace HeedsFailure

/-- An action that has nothing to do with the input. -/
theorem of_withInput {α : Type} {action : World → World × Except Cause α}
    (same : ∀ w input,
      action (w.withInput input) = ((action w).1.withInput input, (action w).2)) :
    HeedsFailure fault action := by
  intro w whole failsIn
  have kept : (action w).1.input = w.input :=
    congrArg (fun result : World × Except Cause α => result.1.input) (same w w.input)
  exact .inr ⟨whole, kept ▸ failsIn, same w whole⟩

theorem andThen {α β : Type} {action : World → World × Except Cause α}
    {next : α → World → World × Except Cause β} (first : HeedsFailure fault action)
    (second : ∀ a, HeedsFailure fault (next a)) :
    HeedsFailure fault fun w => StackMachine.andThen (action w) next := by
  intro w whole failsIn
  have done := first w whole failsIn
  dsimp only
  rcases acted : action w with ⟨between, cause | value⟩
  · rw [acted] at done
    rcases done with failed | ⟨rest, stays, same⟩
    · cases failed
      exact .inl rfl
    · rw [same]
      exact .inr ⟨rest, stays, rfl⟩
  · rw [acted] at done
    rcases done with failed | ⟨rest, stays, same⟩
    · cases failed
    · rw [same]
      exact second value between rest stays

end HeedsFailure

theorem World.emit_heedsFailure (text : String) : HeedsFailure fault (World.emit · text) :=
  .of_withInput fun _ _ => rfl

theorem World.flush_heedsFailure : HeedsFailure fault World.flush :=
  .of_withInput fun _ _ => rfl

namespace Primitive

theorem foldl_heedsFailure (ending : List String) {action : World → World × Except Cause Unit}
    (first : HeedsFailure fault action) :
    HeedsFailure fault fun w => ending.foldl
      (fun result text => StackMachine.andThen result fun _ w => w.emit text) (action w) := by
  induction ending generalizing action with
  | nil => exact first
  | cons text texts ih => exact ih (first.andThen fun _ => World.emit_heedsFailure text)

theorem printing_heedsFailure (ending : List String) : HeedsFailure fault (printing ending) := by
  intro w whole failsIn
  unfold printing
  rw [World.memory_withInput]
  cases w.memory.stack with
  | nil => exact .inr ⟨whole, failsIn, rfl⟩
  | cons a rest =>
      have follows : ((w.withInput whole).withStack rest).memory.follow a =
          (w.withStack rest).memory.follow a := rfl
      dsimp only
      rw [follows]
      cases (w.withStack rest).memory.follow a with
      | error cause => exact .inr ⟨whole, failsIn, rfl⟩
      | ok value =>
          exact foldl_heedsFailure ending (World.emit_heedsFailure value.text)
            (w.withStack rest) whole failsIn

/-- A number is read from a word that the whole input has, or the failure is reported. -/
theorem reading_heedsFailure : HeedsFailure fault reading := by
  refine World.flush_heedsFailure.andThen fun _ w whole failsIn => ?_
  have input : (w.withInput whole).input = whole := rfl
  dsimp only
  rw [input]
  rcases failsIn.readWord with failed | ⟨text, isWord, isWordToo, behind⟩
  · left
    rw [failed]
  · right
    rw [isWord, isWordToo]
    dsimp only
    cases readInt32 text with
    | ok value => exact ⟨whole.readWord.2, behind, rfl⟩
    | error wrong => exact ⟨whole.readWord.2, behind, rfl⟩

theorem run_heedsFailure (primitive : Primitive) : HeedsFailure fault primitive.run := by
  cases primitive with
  | print => exact (printing_heedsFailure []).andThen fun _ => World.flush_heedsFailure
  | println => exact (printing_heedsFailure ["\n"]).andThen fun _ => World.flush_heedsFailure
  | readint => exact reading_heedsFailure.andThen fun _ => World.flush_heedsFailure

end Primitive

namespace Setup

theorem call_heedsFailure (setup : Setup) (depth : Nat) (name : String) :
    HeedsFailure fault (setup.call depth name) := by
  unfold call
  cases Primitive.ofName? name with
  | some primitive => exact primitive.run_heedsFailure.andThen fun _ => .of_withInput fun _ _ => rfl
  | none =>
      refine .of_withInput fun w input => ?_
      dsimp only
      cases setup.program.lookup? name with
      | none => rfl
      | some callee =>
          dsimp only
          split <;> rfl

theorem execute_heedsFailure (setup : Setup) (body : Body) (depth : Nat) (token : Token) :
    HeedsFailure fault (setup.execute body depth token) := by
  by_cases isCall : token.opcode = .call
  · have same : setup.execute body depth token = setup.call depth token.name := by
      funext w
      rw [execute, isCall]
    rw [same]
    exact setup.call_heedsFailure depth token.name
  · refine .of_withInput fun w input => ?_
    rw [setup.execute_of_notCall body depth isCall w,
      setup.execute_of_notCall body depth isCall (w.withInput input)]
    rfl

end Setup

namespace RunState

/-- The state with another input. -/
def withInput (s : RunState) (input : Input) : RunState := { s with world := s.world.withInput input }

/-- What a run is ready for does not depend on its input. -/
theorem settleFrom_withInput {setup : RunSetup} {world after : World} {frames rest : List Frame}
    {frame : Frame} {token : Token} {trace logged : Trace}
    (settled : settleFrom setup world frames trace = .ready frame rest token after logged)
    (input : Input) :
    settleFrom setup (world.withInput input) frames trace =
      .ready frame rest token (after.withInput input) logged := by
  induction frames generalizing trace with
  | nil => cases settled
  | cons first below ih =>
      unfold settleFrom at settled ⊢
      cases fetched : first.fetch with
      | instruction found =>
          rw [fetched] at settled
          cases settled
          rfl
      | crash crash =>
          rw [fetched] at settled
          cases settled
      | bodyEnd =>
          rw [fetched] at settled
          dsimp only at settled ⊢
          rw [World.memory_withInput]
          split at settled
          · cases settled
          · next taken =>
              rw [if_neg taken]
              exact ih settled

theorem enter_withInput (setup : RunSetup) (callee : Function) (depth : Nat) (s : RunState)
    (input : Input) :
    (s.withInput input).enter setup callee depth =
      ((s.enter setup callee depth).1.withInput input, (s.enter setup callee depth).2) :=
  rfl

/-- A step that the failure does not stop is a step on the whole input. -/
theorem step_failsIn {setup : RunSetup} {frame : Frame} {below : List Frame} {token : Token}
    {world : World} {trace : Trace} {next : RunState} {whole : Input}
    (failsIn : world.input.FailsIn fault whole)
    (stepped : step setup frame below token world trace = (next, none)) :
    ∃ rest, next.world.input.FailsIn fault rest ∧
      step setup frame below token (world.withInput whole) trace = (next.withInput rest, none) := by
  have executes := setup.execute_heedsFailure frame.function.body frame.depth token world whole
    failsIn
  unfold step at stepped ⊢
  rw [World.memory_withInput]
  dsimp only at stepped ⊢
  split at stepped
  · cases stepped
  · next taken =>
      rw [if_neg taken]
      rcases executed : setup.execute frame.function.body frame.depth token world with
        ⟨after, cause | control⟩
      · rw [executed] at stepped
        cases stepped
      · rw [executed] at stepped executes
        rcases executes with failed | ⟨rest, stays, same⟩
        · cases failed
        · rw [same]
          cases control with
          | next =>
              cases stepped
              exact ⟨rest, stays, rfl⟩
          | jump position =>
              cases stepped
              exact ⟨rest, stays, rfl⟩
          | enter callee =>
              dsimp only at stepped ⊢
              refine ⟨rest, ?_, ?_⟩
              · have same : next.world = after := congrArg (·.1.world) stepped.symm
                rw [same]
                exact stays
              · refine (enter_withInput setup callee (frame.depth + 1) ⟨_, after, _⟩ rest).trans ?_
                rw [stepped]

/-- An instruction that is executed before the failure is executed on the whole input. -/
theorem advance?_failsIn {setup : RunSetup} {s next : RunState} {whole : Input}
    (failsIn : s.world.input.FailsIn fault whole) (advanced : s.advance? setup = some next) :
    ∃ rest, next.world.input.FailsIn fault rest ∧
      (s.withInput whole).advance? setup = some (next.withInput rest) := by
  obtain ⟨frame, below, token, world, trace, settled, stepped⟩ :=
    (advance?_eq_some_iff setup s next).mp advanced
  obtain ⟨-, rfl, -⟩ := settleFrom_eq_ready settled
  obtain ⟨rest, stays, steppedToo⟩ := step_failsIn failsIn stepped
  exact ⟨rest, stays, (advance?_eq_some_iff setup _ _).mpr
    ⟨frame, below, token, _, trace, settleFrom_withInput settled whole, steppedToo⟩⟩

theorem after?_failsIn {setup : RunSetup} {count : Nat} {s last : RunState} {whole : Input}
    (failsIn : s.world.input.FailsIn fault whole) (reached : s.after? setup count = some last) :
    ∃ rest, last.world.input.FailsIn fault rest ∧
      (s.withInput whole).after? setup count = some (last.withInput rest) := by
  induction count generalizing s whole with
  | zero =>
      cases reached
      exact ⟨whole, failsIn, rfl⟩
  | succ count ih =>
      obtain ⟨next, advanced, reached⟩ := (after?_succ_eq_some_iff setup count s last).mp reached
      obtain ⟨between, stays, advancedToo⟩ := advance?_failsIn failsIn advanced
      obtain ⟨rest, stays, reachedToo⟩ := ih stays reached
      exact ⟨rest, stays, (after?_succ_eq_some_iff setup count _ _).mpr
        ⟨_, advancedToo, reachedToo⟩⟩

end RunState

namespace Machine

theorem start_withInput (setup : RunSetup) (s : RunState) (input : Input) :
    start setup (s.withInput input) = ((start setup s).1.withInput input, (start setup s).2) := by
  unfold start
  cases setup.program.lookup? "main" <;> rfl

theorem start_input (machine : Machine) :
    (start machine.setup machine.initial).1.world.input = machine.input := by
  unfold start
  cases machine.setup.program.lookup? "main" <;> rfl

/-- The states of a run before the failure are those of the run on the whole input, up to what is
left to read. -/
theorem after?_failsIn {machine : Machine} {whole : Input} {count : Nat} {s : RunState}
    (failsIn : machine.input.FailsIn fault whole) (reached : machine.after? count = some s) :
    ∃ rest, s.world.input.FailsIn fault rest ∧
      (machine.configure (.input whole)).after? count = some (s.withInput rest) := by
  have starts : start (machine.configure (.input whole)).setup
      (machine.configure (.input whole)).initial = _ :=
    start_withInput machine.setup machine.initial whole
  have begins := machine.start_input
  unfold after? at reached ⊢
  rw [starts]
  rcases begun : start machine.setup machine.initial with ⟨first, _ | halt⟩
  · rw [begun] at reached begins
    exact RunState.after?_failsIn (begins ▸ failsIn) reached
  · rw [begun] at reached
    cases reached

end Machine

namespace Input

/-- A reader that fails after some bytes of a text gives nothing that the text does not hold.  The
instructions before the failure are the first ones of the text, and what ends them is the failure
or the error that ends the instructions of the text.  The words before the failure are the first
ones of the text.  A run goes the way of the run on the whole text as far as it gets, with the same
memory: no number comes from a word that the failure cuts. -/
theorem failingAfter_invents_nothing (count : Nat) (fault : ReadFault) (bytes : Bytes) :
    (∀ cut whole : Source, cut.name = whole.name → cut.input = .failingAfter count fault bytes →
      whole.input = .ofBytes bytes → ¬ whole.Overreaches →
        cut.instructions.instructions <+: whole.instructions.instructions ∧
          (cut.instructions.failure = some (.unreadable fault) ∨
            ∃ error, cut.instructions.failure = some (.malformed error) ∧
              cut.instructions = whole.instructions)) ∧
      (∀ reads, ∃ words : List String,
        words.map .word <+: (Input.ofBytes bytes).readWords reads ∧
          ((Input.failingAfter count fault bytes).readWords reads = words.map .word ∨
            (Input.failingAfter count fault bytes).readWords reads =
              words.map .word ++ [.failed fault])) ∧
      ∀ (machine : Machine) (steps : Nat) (s : RunState),
        (machine.configure (.input (.failingAfter count fault bytes))).after? steps = some s →
          ∃ t, (machine.configure (.input (.ofBytes bytes))).after? steps = some t ∧
            t.frames = s.frames ∧ t.world.memory = s.world.memory ∧
            t.world.output = s.world.output ∧ t.trace = s.trace := by
  have failsIn := failsIn_failingAfter count fault bytes
  refine ⟨?_, failsIn.readWords, ?_⟩
  · intro cut whole sameName isCut isWhole small
    have sourceFails : cut.FailsIn fault whole := ⟨sameName, by rwa [isCut, isWhole]⟩
    exact sourceFails.instructions small
  · intro machine steps s reached
    obtain ⟨rest, -, reachedToo⟩ := Machine.after?_failsIn failsIn reached
    exact ⟨s.withInput rest, reachedToo, rfl, rfl, rfl, rfl⟩

/-- A source with a name of two bytes. -/
def accentedBytes : Bytes := Utf8.encode "pop call é "

/-- The source, and what is delivered of it if the reader fails within the name. -/
def accentedSource : Source := ⟨"accented", .ofBytes accentedBytes⟩

@[inherit_doc accentedSource]
def halvedSource : Source := ⟨"accented", .failingAfter 10 ⟨"broken"⟩ accentedBytes⟩

/-- Two numbers. -/
def numberBytes : Bytes := Utf8.encode "12 345 "

/-- A program that reads two numbers. -/
def readingProgram : Program where
  functions? := some
    [{ name := "main"
       body.code? := some #[{ opcode := .call, name := "readint" },
        { opcode := .call, name := "readint" }] }]

theorem failingAfter_invents_nothing_halved :
    halvedSource.instructions = ⟨[⟨{ opcode := .pop }, 0⟩], some (.unreadable ⟨"broken"⟩)⟩ ∧
      halvedSource.instructions.instructions <+: accentedSource.instructions.instructions ∧
      (Input.failingAfter 5 ⟨"broken"⟩ numberBytes).readWords 2 =
        [.word "12", .failed ⟨"broken"⟩] ∧
      (∃ words : List String, words.map .word <+: (Input.ofBytes numberBytes).readWords 2 ∧
        ((Input.failingAfter 5 ⟨"broken"⟩ numberBytes).readWords 2 = words.map .word ∨
          (Input.failingAfter 5 ⟨"broken"⟩ numberBytes).readWords 2 =
            words.map .word ++ [.failed ⟨"broken"⟩])) ∧
      ∃ t, ((Machine.new readingProgram #[] []).configure
          (.input (.ofBytes numberBytes))).after? 1 = some t ∧
        t.world.memory.stack = [.int 12] := by
  have small : ¬ accentedSource.Overreaches := by
    rw [← Source.failure_eq_oversized_iff]
    decide +kernel
  have stack : (((Machine.new readingProgram #[] []).configure
      (.input (.failingAfter 5 ⟨"broken"⟩ numberBytes))).after? 1).map
        (·.world.memory.stack) = some [.int 12] := by decide +kernel
  obtain ⟨source, -, -⟩ := failingAfter_invents_nothing 10 ⟨"broken"⟩ accentedBytes
  obtain ⟨-, words, runs⟩ := failingAfter_invents_nothing 5 ⟨"broken"⟩ numberBytes
  refine ⟨by decide +kernel, (source halvedSource accentedSource rfl rfl rfl small).1,
    by decide +kernel, words 2, ?_⟩
  obtain ⟨s, reached, isStack⟩ := Option.map_eq_some_iff.mp stack
  obtain ⟨t, reachedToo, -, memory, -⟩ := runs _ 1 s reached
  exact ⟨t, reachedToo, by rw [memory, isStack]⟩

end Input

end StackMachine
