import Mathlib
import StackMachine.Proofs.Image.RoundTrip
import StackMachine.Proofs.Machine.Safety
import StackMachine.Proofs.Machine.Simulation

/-!
# What a program does after it has been through an image

An assembled program and the program that is loaded from its image differ in one kind of
instruction: `pushf -0` comes back as `pushf 0`.  So the two behave alike exactly as long as no
such instruction is due.
-/

namespace StackMachine

/-- The zero below zero. -/
def Binary32.negativeZero : Binary32 := .ofPattern true 0

/-- The numbers that an image keeps are all but the negative zero and the NaNs that no operation
gives. -/
theorem Binary32.canonical_eq_self_iff (x : Binary32) :
    x.canonical = x ↔ (x.isNaN = true → x = .nan) ∧ x ≠ .negativeZero := by
  by_cases nan : x.isNaN = true
  · rw [Binary32.canonical, if_pos nan]
    constructor
    · rintro rfl
      exact ⟨fun _ => rfl, by decide⟩
    · rintro ⟨isNan, -⟩
      exact (isNan nan).symm
  by_cases zero : x.isZero = true
  · have pattern : x.pattern = 0 := by simpa [Binary32.isZero] using zero
    have sign := x.ofPattern_pattern
    rw [pattern] at sign
    rw [Binary32.canonical_of_isZero zero, ← sign]
    generalize x.isNegative = negative
    cases negative <;> decide
  · rw [Binary32.canonical, if_neg nan, if_neg zero]
    refine ⟨fun _ => ⟨fun isNan => absurd isNan nan, ?_⟩, fun _ => rfl⟩
    rintro rfl
    exact zero (by decide)

/-- An instruction that pushes the negative zero. -/
def Token.PushesNegativeZero (token : Token) : Prop :=
  token.opcode = .pushf ∧ token.float = .negativeZero

/-- The instructions of a source are canonical unless they push the negative zero. -/
theorem Token.Scanned.canonical_eq_self_iff {token : Token} (scanned : token.Scanned) :
    token.canonical = token ↔ ¬ token.PushesNegativeZero := by
  have float : token.canonical = token ↔ token.float.canonical = token.float := by
    constructor
    · exact congrArg Token.float
    · intro same
      rw [Token.canonical, same]
  rw [float, token.float.canonical_eq_self_iff, Token.PushesNegativeZero]
  constructor
  · rintro ⟨-, positive⟩ ⟨-, negative⟩
    exact positive negative
  · intro other
    refine ⟨scanned.eq_nan, fun negative => other ⟨?_, negative⟩⟩
    by_contra notPush
    rw [scanned.eq_zero notPush] at negative
    exact absurd negative (by decide)

theorem Body.mapTokens_eq_self_iff (change : Token → Token) (body : Body) :
    body.mapTokens change = body ↔ ∀ token ∈ body.code, change token = token := by
  rcases body with ⟨_ | code, labels⟩
  · simp [Body.mapTokens, Body.code]
  · have unchanged := @Array.map_inj_left _ _ code change id
    simpa [Body.mapTokens, Body.code] using unchanged

theorem Function.mapTokens_eq_self_iff (change : Token → Token) (function : Function) :
    function.mapTokens change = function ↔
      ∀ token ∈ function.body.code, change token = token := by
  rw [← Body.mapTokens_eq_self_iff]
  cases function
  simp [Function.mapTokens]

/-- Changing the tokens of a program changes nothing exactly if it changes none of them. -/
theorem Program.mapTokens_eq_self_iff (change : Token → Token) (program : Program) :
    program.mapTokens change = program ↔
      ∀ function ∈ program.functions, ∀ token ∈ function.body.code, change token = token := by
  simp only [← Function.mapTokens_eq_self_iff]
  rcases program with ⟨_ | functions⟩
  · simp [Program.mapTokens, Program.functions]
  · have unchanged := @List.map_inj_left _ _ functions (Function.mapTokens change) id
    simpa [Program.mapTokens, Program.functions] using unchanged

/-- What is loaded from the image of an assembled program is that program with canonical
numbers. -/
theorem Program.canonical_eq_mapTokens {program : Program}
    (assembled : ∀ function ∈ program.functions, function.body.Assembled) :
    program.canonical = program.mapTokens Token.canonical :=
  program.canonical_of_given fun function mem => (assembled function mem).labels_given

namespace Machine

/-- An instruction that is due in a run of a sound program is one of the program. -/
theorem Meets.mem {machine : Machine} (sound : machine.setup.program.Sound) {limit : Nat}
    {token : Token} (met : machine.Meets limit token) :
    ∃ function ∈ machine.setup.program.functions, token ∈ function.body.code := by
  obtain ⟨first, count, s, -, started, reached, frame, rest, world, trace, settled⟩ := met
  have visited : machine.Visits s := ⟨first, count, started, reached⟩
  obtain ⟨suffix, -, fetched⟩ := RunState.settleFrom_eq_ready settled
  have placed := visited.placedIn sound frame (suffix.mem List.mem_cons_self)
  obtain ⟨-, found⟩ := (frame.fetch_eq_instruction_iff token).mp fetched
  exact ⟨frame.function, placed.mem, Array.mem_of_getElem? found⟩

/-- A program that is loaded from the image of an assembled program is the program itself exactly
if no instruction of it pushes the negative zero.  In any case a machine does the same with both,
at whatever moment up to a limit its run is interrupted, exactly if no such instruction is due up to
then: same report, same memory, same input left and same output. -/
theorem run_loaded_image {source : Source} {program loaded : Program}
    (assembled : source.assemble = .ok program)
    (read : Image.decode (Image.encode program) = .ok loaded) :
    (loaded = program ↔
        ∀ function ∈ program.functions, ∀ token ∈ function.body.code,
          ¬ token.PushesNegativeZero) ∧
      ∀ (machine : Machine) (limit : Nat),
        (∀ fuel ≤ limit, (machine.withProgram loaded).run fuel =
            (((machine.withProgram program).run fuel).1,
              ((machine.withProgram program).run fuel).2.withProgram loaded)) ↔
          ∀ token, (machine.withProgram program).Meets limit token →
            ¬ token.PushesNegativeZero := by
  have bodies : ∀ function ∈ program.functions, function.body.Assembled :=
    fun function mem => Source.assembled_of_assemble assembled mem
  obtain ⟨-, checked⟩ := Image.checked_of_decode_encode read
  obtain ⟨-, rfl⟩ := (Image.checked_canonical_eq_ok_iff program loaded).mp checked
  rw [Program.canonical_eq_mapTokens bodies]
  constructor
  · rw [Program.mapTokens_eq_self_iff]
    exact forall₂_congr fun function mem => forall₂_congr fun token tokenMem =>
      ((bodies function mem).scanned token tokenMem).canonical_eq_self_iff
  · intro machine limit
    refine ((machine.withProgram program).run_mapTokens_iff Token.canonical limit).trans ?_
    refine forall₂_congr fun token met => ?_
    obtain ⟨function, mem, tokenMem⟩ := met.mem (Source.sound_of_assemble assembled)
    exact ((bodies function mem).scanned token tokenMem).canonical_eq_self_iff

/-- A source that prints the negative zero. -/
def negativeZeroSource : Source where
  name := "zero"
  input := ⟨".raw .class .function defun main 0 NULL pushf -0 call print endef".toList, none⟩

/-- A program that prints a number. -/
def printProgram (x : Binary32) : Program where
  functions? := some
    [Assembly.function { opcode := .defun, name := "main" }
      [{ opcode := .pushf, float := x }, { opcode := .call, name := "print" }]]

/-- What a program writes to a sink that takes everything. -/
def printed (program : Program) : List (Array UInt8) :=
  ((new program #[{}] [.output 0]).run 3).2.output.sinks.toList.map Sink.received

theorem run_loaded_image_negativeZero :
    negativeZeroSource.assemble = .ok (printProgram .negativeZero) ∧
      Image.decode (Image.encode (printProgram .negativeZero)) = .ok (printProgram .zero) ∧
      printProgram .zero ≠ printProgram .negativeZero ∧
      printed (printProgram .negativeZero) = ["-0".toUTF8.data] ∧
      printed (printProgram .zero) = ["0".toUTF8.data] := by
  have assembled : negativeZeroSource.assemble = .ok (printProgram .negativeZero) := by
    decide +kernel
  have read : Image.decode (Image.encode (printProgram .negativeZero)) =
      .ok (printProgram .zero) := by
    decide +kernel
  refine ⟨assembled, read, fun same => ?_, by decide +kernel, by decide +kernel⟩
  have positive := (run_loaded_image assembled read).1.mp same
  exact positive _ List.mem_cons_self { opcode := .pushf, float := .negativeZero } (by simp)
    ⟨rfl, rfl⟩

end Machine

end StackMachine
