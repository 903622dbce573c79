import Mathlib
import StackMachine.Proofs.Machine.Insertion
import StackMachine.Proofs.Machine.Nesting
import StackMachine.Proofs.Machine.Provenance

/-!
# Runs that must end

Without jumps backward an activation goes through its body once, so that only calls can make a run
long.  A limit on the depth of calls bounds these too: an instruction costs at most one more than a
whole body at the next level, `callCost` adds this up from the deepest level on, and `Table.work`
over what remains of every body that is being executed.  Each instruction lowers the work; a call
trades one instruction of the caller for a body that costs less (`Table.Acts.work_lt`).  A run
therefore ends within a number of instructions that depends on the program and the limit alone.
-/

namespace StackMachine

namespace Program

/-- No jump of the program leads backward: the label that it names, if there is one, stands behind
it. -/
def JumpsForward (program : Program) : Prop :=
  ∀ function ∈ program.functions, ∀ (position : Nat) (token : Token),
    function.body.code[position]? = some token →
      token.opcode = .goto ∨ token.opcode = .branch →
        ∀ target, function.body.target? token.index = some target → position < target.toInt

instance (program : Program) : Decidable program.JumpsForward :=
  decidable_of_iff
    (∀ function ∈ program.functions, ∀ position : Fin function.body.code.size,
      function.body.code[position].opcode = .goto ∨ function.body.code[position].opcode = .branch →
        (function.body.target? function.body.code[position].index).all
          (fun target => (position.val : Int) < target.toInt) = true)
    (forall₂_congr fun function _ => by
      simp only [Option.all_eq_true, decide_eq_true_eq]
      constructor
      · intro checked position token found
        obtain ⟨inRange, rfl⟩ := Array.getElem?_eq_some_iff.mp found
        exact checked ⟨position, inRange⟩
      · intro forward position
        exact forward position _ (Array.getElem?_eq_getElem position.isLt))

/-- The length of the longest body. -/
def longest (program : Program) : Nat :=
  (program.functions.map (·.body.code.size)).foldr max 0

/-- The most instructions of one activation without jumps backward and of all that it calls, where
so many levels of activations are allowed, its own included. -/
def callCost (program : Program) : (levels : Nat) → Nat
  | 0 => 0
  | levels + 1 => program.longest * (program.callCost levels + 1)

theorem size_le_longest {program : Program} {function : Function}
    (mem : function ∈ program.functions) : function.body.code.size ≤ program.longest :=
  List.le_max_of_le (List.mem_map_of_mem mem) (Nat.le_refl _)

/-- The body of a function, at the first of some levels. -/
theorem size_mul_le_callCost {program : Program} {function : Function}
    (mem : function ∈ program.functions) (levels : Nat) :
    function.body.code.size * (program.callCost levels + 1) ≤ program.callCost (levels + 1) :=
  Nat.mul_le_mul_right _ (size_le_longest mem)

end Program

namespace Table

/-- The work that is left at some places, innermost first, if `limit` levels are allowed. -/
def work (program : Program) (limit : Nat) : List (Function × Int) → Nat
  | [] => 0
  | (function, position) :: rest =>
      (function.body.code.size - position.toNat) *
        (program.callCost (limit - (rest.length + 1)) + 1) + work program limit rest

theorem work_le_of_suffix {program : Program} {limit : Nat} {places rest : List (Function × Int)}
    (suffix : rest <:+ places) : work program limit rest ≤ work program limit places := by
  obtain ⟨front, rfl⟩ := suffix
  induction front with
  | nil => exact Nat.le_refl _
  | cons place front ih => exact ih.trans (Nat.le_add_left _ _)

/-- Behind an instruction less of the body is left than in front of it. -/
theorem At.remaining_lt {function : Function} {position later : Int} {token : Token}
    (due : At function position token) (behind : position < later) :
    function.body.code.size - later.toNat < function.body.code.size - position.toNat := by
  obtain ⟨nonneg, found⟩ := due
  obtain ⟨inRange, -⟩ := Array.getElem?_eq_some_iff.mp found
  omega

section Work

variable {program : Program} {limit : Nat} {function : Function} {position : Int} {token : Token}
  (due : At function position token) (rest : List (Function × Int))
include due

/-- Going on behind an instruction lowers the work. -/
theorem At.work_lt {later : Int} (behind : position < later) :
    work program limit ((function, later) :: rest) <
      work program limit ((function, position) :: rest) :=
  Nat.add_lt_add_right
    (Nat.mul_lt_mul_of_pos_right (due.remaining_lt behind) (Nat.succ_pos _)) _

/-- A call lowers the work if another level is allowed: the instruction that is done with has cost
more than the body that is entered. -/
theorem At.work_call_lt {callee : Function} (mem : callee ∈ program.functions)
    (shallow : rest.length + 1 < limit) :
    work program limit ((callee, 0) :: (function, position + 1) :: rest) <
      work program limit ((function, position) :: rest) := by
  obtain ⟨levels, isLimit⟩ : ∃ levels, limit - (rest.length + 1) = levels + 1 :=
    ⟨limit - (rest.length + 1) - 1, by omega⟩
  have below : limit - (rest.length + 1 + 1) = levels := by omega
  have entered := Program.size_mul_le_callCost mem levels
  have fewer := due.remaining_lt (Int.lt_succ position)
  simp only [work, List.length_cons, below, isLimit, Int.toNat_zero, Nat.sub_zero]
  calc
    callee.body.code.size * (program.callCost levels + 1) +
          ((function.body.code.size - (position + 1).toNat) *
            (program.callCost (levels + 1) + 1) + work program limit rest) <
        (function.body.code.size - (position + 1).toNat + 1) *
            (program.callCost (levels + 1) + 1) + work program limit rest := by
      rw [Nat.add_one_mul]
      omega
    _ ≤ (function.body.code.size - position.toNat) * (program.callCost (levels + 1) + 1) +
          work program limit rest :=
      Nat.add_le_add_right (Nat.mul_le_mul_right _ fewer) _

/-- Where an instruction is due, some work is left. -/
theorem At.work_pos : 0 < work program limit ((function, position) :: rest) :=
  Nat.zero_lt_of_lt (due.work_lt rest (Int.lt_succ position))

end Work

/-- In a program whose jumps lead forward, a jump that is due leads behind its own place. -/
theorem At.lt_target {program : Program} (forward : program.JumpsForward) {function : Function}
    (mem : function ∈ program.functions) {position : Int} {token : Token}
    (due : At function position token) (isJump : token.opcode = .goto ∨ token.opcode = .branch)
    {target : CodeIndex} (leads : function.body.target? token.index = some target) :
    position < target.toInt := by
  have behind := forward function mem position.toNat token due.2 isJump target leads
  rwa [Int.toNat_of_nonneg due.1] at behind

/-- Every instruction of a program whose jumps lead forward lowers the work. -/
theorem Acts.work_lt {setup : Setup} (forward : setup.program.JumpsForward)
    (limited : 0 < setup.maxDepth.toInt) {state next : State} (acts : Acts setup state next)
    (functions : ∀ place ∈ state.places, place.1 ∈ setup.program.functions) :
    work setup.program setup.maxDepth.toInt.toNat next.places <
      work setup.program setup.maxDepth.toInt.toNat state.places := by
  cases acts with
  | effect due effect => exact due.work_lt _ (Int.lt_succ _)
  | goto due opcode leads =>
      have mem := functions _ List.mem_cons_self
      exact due.work_lt _ (due.lt_target forward mem (.inl opcode) leads)
  | branch due opcode leads nonzero =>
      have mem := functions _ List.mem_cons_self
      exact due.work_lt _ (due.lt_target forward mem (.inr opcode) leads)
  | stay due opcode leads => exact due.work_lt _ (Int.lt_succ _)
  | call due opcode user found shallow =>
      exact due.work_call_lt _ (Program.mem_of_lookup? found) (by omega)

/-- No instruction fails because its surroundings stop it. -/
theorem Fails.cause_ne_interrupted {setup : Setup} {state : State} {token : Token} {cause : Cause}
    {after : World} (fails : Fails setup state token cause after) (reason : Interruption) :
    cause ≠ .interrupted reason := by
  rintro rfl
  cases fails with
  | fault due fault =>
      cases fault with
      | lost prints followed => cases Memory.followFrom_cause followed

end Table

theorem Halt.isInterrupted_of_ne_failed {halt : Halt} (notFailed : ∀ error, halt ≠ .failed error) :
    halt.isInterrupted = false := by
  cases halt with
  | finished => rfl
  | failed error => exact absurd rfl (notFailed error)
  | crashed crash => rfl

namespace RunState

/-- Where every step lowers a rank, no run makes more steps than the rank of its first state. -/
theorem after?_ranked {setup : RunSetup} {Holds : RunState → Prop} {rank : RunState → Nat}
    (kept : ∀ s next, Holds s → s.advance? setup = some next → Holds next ∧ rank next < rank s)
    {count : Nat} {s last : RunState} (first : Holds s)
    (reached : after? setup count s = some last) : Holds last ∧ count + rank last ≤ rank s := by
  induction count generalizing s with
  | zero =>
      cases reached
      exact ⟨first, (Nat.zero_add _).le⟩
  | succ count ih =>
      obtain ⟨next, advanced, rest⟩ := (after?_succ_eq_some_iff setup count s last).mp reached
      obtain ⟨holds, lower⟩ := kept s next first advanced
      obtain ⟨holdsLast, bound⟩ := ih holds rest
      exact ⟨holdsLast, by omega⟩

/-- The work that is left in a run. -/
def work (setup : Setup) (s : RunState) : Nat :=
  Table.work setup.program setup.maxDepth.toInt.toNat (s.frames.map Frame.place)

/-- Nested activations of functions of the program. -/
structure Orderly (setup : Setup) (s : RunState) : Prop where
  nested : s.Nested setup
  produced : s.ProducedBy setup.program

namespace Orderly

variable {setup : RunSetup} {s next : RunState}

/-- One instruction lowers the work. -/
theorem advance (forward : setup.program.JumpsForward) (limited : 0 < setup.maxDepth.toInt)
    (orderly : s.Orderly setup.toSetup) (advanced : s.advance? setup = some next) :
    next.Orderly setup.toSetup ∧ next.work setup.toSetup < s.work setup.toSetup := by
  refine ⟨⟨orderly.nested.advance advanced, orderly.produced.advance advanced⟩, ?_⟩
  obtain ⟨frame, rest, token, world, trace, settled, stepped⟩ :=
    (advance?_eq_some_iff setup s next).mp advanced
  obtain ⟨suffix, -, fetched⟩ := settleFrom_eq_ready settled
  obtain ⟨after, control, executed, frames, -⟩ := step_eq_none stepped
  have functions : ∀ place ∈ frame.place :: rest.map Frame.place,
      place.1 ∈ setup.program.functions := by
    rw [← List.map_cons]
    intro place mem
    obtain ⟨other, otherMem, rfl⟩ := List.mem_map.mp mem
    exact orderly.produced.functions other (suffix.mem otherMem)
  have lower := ((orderly.nested.ready settled).1.acts fetched executed).work_lt forward limited
    functions
  rw [← Control.map_place_frames, ← frames, ← List.map_cons] at lower
  exact lower.trans_le (Table.work_le_of_suffix (suffix.map Frame.place))

/-- Where an instruction is due, some work is left. -/
theorem work_pos {frame : Frame} {rest : List Frame} {token : Token} {world : World} {trace : Trace}
    (settled : s.settle setup = .ready frame rest token world trace) :
    0 < s.work setup.toSetup := by
  obtain ⟨suffix, -, fetched⟩ := settleFrom_eq_ready settled
  have due := (frame.fetch_eq_instruction_iff token).mp fetched
  exact (Table.At.work_pos due (rest.map Frame.place)).trans_le
    (Table.work_le_of_suffix (suffix.map Frame.place))

/-- A run with as much fuel as there is work ends by itself, and uses no more of it. -/
theorem run (forward : setup.program.JumpsForward) (limited : 0 < setup.maxDepth.toInt)
    (orderly : s.Orderly setup.toSetup) {fuel : Nat} (enough : s.work setup.toSetup ≤ fuel) :
    (RunState.run setup fuel s).halt.isInterrupted = false ∧
      fuel ≤ (RunState.run setup fuel s).fuel + s.work setup.toSetup := by
  obtain ⟨count, last, within, reached, stops⟩ := run_stops setup fuel s
  obtain ⟨orderlyLast, bound⟩ :=
    after?_ranked (fun s next holds => advance forward limited holds) orderly reached
  generalize RunState.run setup fuel s = ending at stops ⊢
  generalize isLeft : fuel - count = left at stops
  cases stops with
  | halted settled =>
      obtain ⟨-, notFailed⟩ := settleFrom_halts settled
      refine ⟨Halt.isInterrupted_of_ne_failed notFailed, ?_⟩
      dsimp only
      omega
  | spent settled failed =>
      -- All fuel would have been used while work is left.
      have left := work_pos settled
      omega
  | failed settled stepped =>
      have left := work_pos settled
      obtain ⟨-, -, fetched⟩ := settleFrom_eq_ready settled
      refine ⟨?_, by dsimp only; omega⟩
      rcases step_halts stepped with ⟨-, rfl⟩ | ⟨cause, executed, rfl⟩
      · rfl
      · have fails := (orderlyLast.nested.ready settled).1.fails fetched executed
        cases cause with
        | interrupted reason => exact absurd rfl (fails.cause_ne_interrupted reason)
        | _ => rfl

end Orderly

end RunState

namespace Machine

variable {machine : Machine}

/-- The work of a whole run, before its first instruction. -/
theorem work_le_of_start (limited : 0 < machine.setup.maxDepth.toInt) {first : RunState}
    (started : start machine.setup machine.initial = (first, none)) :
    first.work machine.setup.toSetup ≤
      machine.setup.program.callCost machine.setup.maxDepth.toInt.toNat := by
  obtain ⟨main, found, frames, -⟩ := start_eq_none started
  obtain ⟨levels, isLimit⟩ : ∃ levels, machine.setup.maxDepth.toInt.toNat = levels + 1 :=
    ⟨machine.setup.maxDepth.toInt.toNat - 1, by omega⟩
  have bound := Program.size_mul_le_callCost (Program.mem_of_lookup? found) levels
  rw [RunState.work, frames, isLimit]
  exact bound

/-- A run with enough fuel for the work of the whole program ends by itself, and uses no more of
it. -/
theorem execution_ends (forward : machine.setup.program.JumpsForward)
    (limited : 0 < machine.setup.maxDepth.toInt) {fuel : Nat}
    (enough : machine.setup.program.callCost machine.setup.maxDepth.toInt.toNat ≤ fuel) :
    (machine.execution fuel).halt.isInterrupted = false ∧
      fuel ≤ (machine.execution fuel).fuel +
        machine.setup.program.callCost machine.setup.maxDepth.toInt.toNat := by
  rw [execution_eq]
  rcases started : start machine.setup machine.initial with ⟨first, _ | halt⟩
  · have visited : machine.Visits first := ⟨first, 0, started, rfl⟩
    have bound := work_le_of_start limited started
    obtain ⟨ended, used⟩ := RunState.Orderly.run forward limited
      ⟨visited.nested, visited.producedBy⟩ (bound.trans enough)
    exact ⟨ended, used.trans (Nat.add_le_add_left bound _)⟩
  · obtain ⟨-, notFailed⟩ := start_halts started
    exact ⟨Halt.isInterrupted_of_ne_failed notFailed, Nat.le_add_right _ _⟩

/-- A program without jumps backward ends on every input if the depth of its calls is limited,
also if its functions call each other and themselves.  With `callCost` fuel, a number that depends
on the program and the limit only, no run of it is stopped by its surroundings; it completes or
fails by itself within so many instructions, and more fuel changes nothing about how it ends and
what it leaves. -/
theorem run_ends_of_jumpsForward {program : Program} (forward : program.JumpsForward)
    {limit : Int64} (positive : 0 < limit.toInt) (machine : Machine)
    (runs : machine.setup.program = program) (limited : machine.setup.maxDepth = limit)
    {fuel : Nat} (enough : program.callCost limit.toInt.toNat ≤ fuel) :
    (machine.run fuel).1.isInterrupted = false ∧
    fuel - (machine.run fuel).1.fuel ≤ program.callCost limit.toInt.toNat ∧
    (machine.run fuel).1.failure =
      (machine.run (program.callCost limit.toInt.toNat)).1.failure ∧
    (machine.run fuel).1.lines = (machine.run (program.callCost limit.toInt.toNat)).1.lines ∧
    (machine.run fuel).2 = (machine.run (program.callCost limit.toInt.toNat)).2 := by
  subst runs limited
  obtain ⟨ended, used⟩ := execution_ends forward positive enough
  obtain ⟨endedAtBound, -⟩ := execution_ends forward positive (Nat.le_refl _)
  obtain ⟨state, halt⟩ := execution_of_le enough endedAtBound
  refine ⟨(isInterrupted_run machine fuel).trans ended, Nat.sub_le_iff_le_add'.mpr used, ?_⟩
  unfold run
  dsimp only
  rw [state, halt]
  exact ⟨rfl, rfl, rfl⟩

/-- A source whose `main` reads an integer and calls itself twice if it is zero. -/
def doublingSource : Source where
  name := "doubling"
  input :=
    ⟨(".raw .class .function defun main 0 NULL call readint branch 7 call main call main " ++
      "label 7 endef").toList, none⟩

/-- The function of `doublingSource`. -/
def doublingMain : Function :=
  Assembly.function { opcode := .defun, name := "main" }
    [{ opcode := .call, name := "readint" }, { opcode := .branch, index := 7 },
      { opcode := .call, name := "main" }, { opcode := .call, name := "main" },
      { opcode := .label, index := 7 }]

/-- The program of `doublingSource`. -/
def doublingProgram : Program where
  functions? := some [doublingMain]

/-- On this input the third call of `main` is one too deep for two levels, however much fuel there
is. -/
theorem run_ends_of_jumpsForward_doubling :
    let machine := new doublingProgram #[] [.input ⟨"0 1 0".toList, none⟩, .maxDepth 2]
    doublingSource.assemble = .ok doublingProgram ∧ doublingProgram.JumpsForward ∧
      doublingProgram.callCost 2 = 30 ∧
      (machine.run 1000).1.failure =
        some (.halted ⟨"main", 2, { opcode := .call, name := "main" }, .callDepth 2⟩) := by
  intro machine
  have assembled : doublingSource.assemble = .ok doublingProgram := by decide +kernel
  have forward : doublingProgram.JumpsForward := by decide +kernel
  have bound : doublingProgram.callCost 2 = 30 := by decide +kernel
  have failure : (machine.run 30).1.failure =
      some (.halted ⟨"main", 2, { opcode := .call, name := "main" }, .callDepth 2⟩) := by
    decide +kernel
  have levels : (2 : Int64).toInt.toNat = 2 := by decide
  have enough : doublingProgram.callCost (2 : Int64).toInt.toNat ≤ 1000 := by
    rw [levels, bound]
    decide
  have limited : machine.setup.maxDepth = 2 := rfl
  obtain ⟨-, -, same, -, -⟩ :=
    run_ends_of_jumpsForward forward (by decide) machine rfl limited enough
  rw [levels, bound, failure] at same
  exact ⟨assembled, forward, bound, same⟩

end Machine

end StackMachine
