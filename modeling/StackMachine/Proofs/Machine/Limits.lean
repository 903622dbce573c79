import Mathlib
import StackMachine.Proofs.Machine.Simulation
import StackMachine.Proofs.Machine.Untraced
import StackMachine.Proofs.Machine.Written

/-!
# Limits only cut a run short

A run has three limits: its fuel, the depth of its calls and the length of its heap.  Under looser
limits a run does the same, instruction by instruction, up to the point where the stricter limits
stop it.  So a run that no limit stops is the run under any looser limits, and one that a limit
stops is a beginning of it.
-/

namespace StackMachine

/-! ## Limits -/

/-- The limits of a run. -/
structure Limits where
  fuel : Nat
  maxDepth : Int64 := 0
  heapLimit : Int64 := 0

/-- Limits that allow everything that stricter ones allow.  A depth that is not positive is no
limit. -/
structure Limits.Loosen (strict loose : Limits) : Prop where
  fuel : strict.fuel ≤ loose.fuel
  depth : loose.maxDepth.toInt ≤ 0 ∨
    0 < strict.maxDepth.toInt ∧ strict.maxDepth.toInt ≤ loose.maxDepth.toInt
  heap : Memory.effectiveLimit strict.heapLimit ≤ Memory.effectiveLimit loose.heapLimit

/-- The causes that go back to a limit. -/
def Cause.isOfLimit : Cause → Bool
  | .interrupted _ | .callDepth _ | .heapLimit _ => true
  | _ => false

/-- The settings of a run, with other limits. -/
def RunSetup.limited (setup : RunSetup) (limits : Limits) : RunSetup :=
  { setup with maxDepth := limits.maxDepth, heapLimit := limits.heapLimit }

/-! ## Instructions -/

section

variable {strict loose : Limits} (loosen : strict.Loosen loose)
include loosen

theorem Memory.checkStore_loosen (address : Int64) (operation : String) :
    Memory.checkStore address strict.heapLimit operation =
        Memory.checkStore address loose.heapLimit operation ∨
      ∃ error, Memory.checkStore address strict.heapLimit operation = .error error := by
  unfold Memory.checkStore
  by_cases allowed : 0 ≤ address.toInt ∧ address.toInt < Memory.effectiveLimit strict.heapLimit
  · have stillAllowed : address.toInt < Memory.effectiveLimit loose.heapLimit :=
      lt_of_lt_of_le allowed.2 (Int.ofNat_le.mpr loosen.heap)
    rw [if_pos allowed, if_pos ⟨allowed.1, stillAllowed⟩]
    exact .inl rfl
  · rw [if_neg allowed]
    exact .inr ⟨_, rfl⟩

theorem Setup.call_loosen (setup : RunSetup) (depth : Nat) (name : String) (world : World) :
    (setup.limited strict).call depth name world = (setup.limited loose).call depth name world ∨
      ∃ cause, cause.isOfLimit = true ∧
        (setup.limited strict).call depth name world = (world, .error cause) := by
  unfold call
  cases Primitive.ofName? name with
  | some primitive => exact .inl rfl
  | none =>
      cases found : setup.program.lookup? name with
      | none =>
          left
          simp only [RunSetup.limited, found]
      | some callee =>
          simp only [RunSetup.limited, found]
          by_cases deep : 0 < strict.maxDepth.toInt ∧ strict.maxDepth.toInt ≤ depth
          · exact .inr ⟨.callDepth strict.maxDepth, rfl, if_pos deep⟩
          · have notDeep : ¬ (0 < loose.maxDepth.toInt ∧ loose.maxDepth.toInt ≤ depth) := by
              rintro ⟨positive, reached⟩
              rcases loosen.depth with unlimited | ⟨strictPositive, deeper⟩
              · omega
              · exact deep ⟨strictPositive, deeper.trans reached⟩
            exact .inl ((if_neg deep).trans (if_neg notDeep).symm)

/-- An instruction does the same under looser limits, or a limit stops it before it has done
anything. -/
theorem Setup.execute_loosen (setup : RunSetup) (body : Body) (depth : Nat) (token : Token)
    (world : World) :
    (setup.limited strict).execute body depth token world =
        (setup.limited loose).execute body depth token world ∨
      ∃ cause, cause.isOfLimit = true ∧
        (setup.limited strict).execute body depth token world = (world, .error cause) := by
  cases opcode : token.opcode with
  | store =>
      simp only [execute, opcode]
      cases world.memory.stack with
      | nil => exact .inl rfl
      | cons top rest =>
          rcases Memory.checkStore_loosen loosen token.index "store" with same | ⟨error, stopped⟩
          · simp only [RunSetup.limited, same, true_or]
          · simp only [RunSetup.limited, stopped]
            exact .inr ⟨.heapLimit error, rfl, rfl⟩
  | stores =>
      simp only [execute, opcode]
      rcases Memory.checkStore_loosen loosen token.index "stores" with same | ⟨error, stopped⟩
      · simp only [RunSetup.limited, same, true_or]
      · simp only [RunSetup.limited, stopped]
        exact .inr ⟨.heapLimit error, rfl, rfl⟩
  | call =>
      simp only [execute, opcode]
      exact Setup.call_loosen loosen setup depth token.name world
  | pushi | pushf | pop | dup | load | binary | label | goto | branch | invalid | rawMark
  | classMark | functionMark | defun | endef | reserved =>
      left
      simp only [execute, opcode]

end

/-! ## Runs -/

/-- An instruction as it is begun. -/
structure Begun where
  function : Function
  position : Int
  stack : List Atom
  deriving DecidableEq

namespace RunState

/-- The instructions that a run begins, in order. -/
def begun (setup : RunSetup) : Nat → RunState → List Begun
  | 0, _ => []
  | fuel + 1, s =>
      match s.settle setup with
      | .halted _ _ => []
      | .ready frame rest token world trace =>
          ⟨frame.function, frame.position, world.memory.stack⟩ ::
            match step setup frame rest token world trace with
            | (_, some _) => []
            | (next, none) => begun setup fuel next

/-- Every instruction that is begun costs one unit of fuel. -/
theorem length_begun (setup : RunSetup) (fuel : Nat) (s : RunState) :
    (s.begun setup fuel).length + (s.run setup fuel).fuel = fuel := by
  induction fuel generalizing s with
  | zero =>
      rw [begun, run]
      cases s.settle setup <;> rfl
  | succ fuel ih =>
      rw [begun, run]
      cases s.settle setup with
      | halted state halt => exact Nat.zero_add _
      | ready frame rest token world trace =>
          dsimp only
          rcases step setup frame rest token world trace with ⟨next, _ | halt⟩
          · rw [List.length_cons, Nat.add_right_comm]
            exact congrArg (· + 1) (ih next)
          · exact Nat.add_comm 1 fuel

theorem settleFrom_limited (setup : RunSetup) (limits : Limits) (world : World)
    (frames : List Frame) (trace : Trace) :
    settleFrom (setup.limited limits) world frames trace = settleFrom setup world frames trace := by
  induction frames generalizing trace with
  | nil => rfl
  | cons frame rest ih =>
      rw [settleFrom, settleFrom]
      cases frame.fetch with
      | instruction token => rfl
      | crash crash => rfl
      | bodyEnd =>
          simp only [ih]
          rfl

theorem tracer_limited (setup : RunSetup) (limits : Limits) :
    (setup.limited limits).tracer = setup.tracer :=
  rfl

theorem fail_limited (setup : RunSetup) (limits : Limits) :
    fail (setup.limited limits) = fail setup :=
  rfl

theorem enter_limited (setup : RunSetup) (limits : Limits) :
    enter (setup.limited limits) = enter setup :=
  rfl

theorem settle_limited (setup : RunSetup) (limits : Limits) (s : RunState) :
    s.settle (setup.limited limits) = s.settle setup :=
  settleFrom_limited setup limits s.world s.frames s.trace

section

variable {strict loose : Limits} (loosen : strict.Loosen loose)
include loosen

/-- A step is the same under looser limits, or a limit halts it and leaves the world alone. -/
theorem step_loosen (setup : RunSetup) (frame : Frame) (rest : List Frame) (token : Token)
    (world : World) (trace : Trace) :
    step (setup.limited strict) frame rest token world trace =
        step (setup.limited loose) frame rest token world trace ∨
      ∃ state error, error.cause.isOfLimit = true ∧ state.world = world ∧
        step (setup.limited strict) frame rest token world trace =
          (state, some (.failed error)) := by
  by_cases refused : (trace.log setup.tracer "exec" fun _ =>
    s!"{frame.function.name}@{frame.position} {token.text} -- s:{stackText world.memory.stack}").2
      = true
  · left
    simp only [step, tracer_limited, refused, if_true]
  · rcases Setup.execute_loosen loosen setup frame.function.body frame.depth token world with
      same | ⟨cause, ofLimit, stopped⟩
    · left
      simp only [step, tracer_limited, fail_limited, enter_limited, refused, Bool.false_eq_true,
        if_false, same]
    · right
      simp only [step, tracer_limited, refused, Bool.false_eq_true, if_false, stopped]
      exact ⟨_, frame.error token cause, ofLimit, rfl, rfl⟩

/-- A run is the same under looser limits, or a limit stops it at a state from which the other run
goes on. -/
theorem run_loosen (setup : RunSetup) {few many : Nat} (enough : few ≤ many) (s : RunState) :
    (s.run (setup.limited loose) many =
          ⟨(s.run (setup.limited strict) few).state, (s.run (setup.limited strict) few).halt,
            (s.run (setup.limited strict) few).fuel + (many - few)⟩ ∧
        s.begun (setup.limited loose) many = s.begun (setup.limited strict) few) ∨
      ∃ (error : RunError) (next : RunState) (left : Nat),
        (s.run (setup.limited strict) few).halt = .failed error ∧ error.cause.isOfLimit = true ∧
        s.begun (setup.limited strict) few <+: s.begun (setup.limited loose) many ∧
        (s.run (setup.limited strict) few).state.world = next.world ∧
        s.run (setup.limited loose) many = next.run (setup.limited loose) left := by
  have world : (s.settle setup).world = s.world := settleFrom_world ..
  induction few generalizing many s with
  | zero =>
      cases settled : s.settle setup with
      | halted state halt =>
          left
          cases many <;> simp only [run, begun, settle_limited, settled] <;> simp
      | ready frame rest token after trace =>
          right
          rw [settled] at world
          refine ⟨frame.error token (.interrupted setup.interruption), s, many, ?_, rfl,
            List.nil_prefix, ?_, rfl⟩
          · simp only [run, settle_limited, settled]
            rfl
          · simp only [run, settle_limited, settled]
            exact world
  | succ few ih =>
      obtain ⟨many, rfl⟩ : ∃ more, many = more + 1 := ⟨many - 1, by omega⟩
      cases settled : s.settle setup with
      | halted state halt =>
          left
          simp only [run, begun, settle_limited, settled]
          exact ⟨by rw [Nat.add_sub_cancel' enough], trivial⟩
      | ready frame rest token after trace =>
          rw [settled] at world
          rcases step_loosen loosen setup frame rest token after trace with
            same | ⟨state, error, ofLimit, unchanged, stopped⟩
          · simp only [run, begun, settle_limited, settled, same]
            rcases step (setup.limited loose) frame rest token after trace with ⟨next, _ | halt⟩
            · dsimp only
              rw [Nat.add_sub_add_right]
              rcases ih (Nat.le_of_succ_le_succ enough) next (settleFrom_world ..) with
                ⟨ended, begunAlike⟩ | ⟨error, last, left, failed, ofLimit, isPrefix, rest⟩
              · exact .inl ⟨ended, congrArg _ begunAlike⟩
              · exact .inr ⟨error, last, left, failed, ofLimit,
                  (List.prefix_cons_inj _).mpr isPrefix, rest⟩
            · left
              refine ⟨?_, rfl⟩
              dsimp only
              rw [Nat.add_sub_add_right, Nat.add_sub_cancel' (Nat.le_of_succ_le_succ enough)]
          · -- The stricter run stops here; the looser one goes on from the same state.
            right
            refine ⟨error, s, many + 1, ?_, ofLimit, ?_, ?_, rfl⟩
            · simp only [run, settle_limited, settled, stopped]
            · simp only [begun, settle_limited, settled, stopped]
              exact (List.prefix_cons_inj _).mpr List.nil_prefix
            · simp only [run, settle_limited, settled, stopped]
              exact unchanged.trans world

end

end RunState

/-! ## Machines -/

/-- A run that a limit stopped. -/
def RunReport.isCutShort (report : RunReport) : Bool :=
  match report.failure with
  | some (.halted error) => error.cause.isOfLimit
  | _ => false

namespace Machine

/-- A machine with other limits. -/
def limited (machine : Machine) (limits : Limits) : Machine :=
  { machine with setup := machine.setup.limited limits }

/-- A run under limits. -/
def runWithin (machine : Machine) (limits : Limits) : RunReport × Machine :=
  (machine.limited limits).run limits.fuel

/-- The instructions that a run begins, in order. -/
def begun (machine : Machine) (fuel : Nat) : List Begun :=
  match start machine.setup machine.initial with
  | (_, some _) => []
  | (first, none) => first.begun machine.setup fuel

/-- The instructions that a run under limits begins, in order. -/
def begunWithin (machine : Machine) (limits : Limits) : List Begun :=
  (machine.limited limits).begun limits.fuel

theorem setup_limited (machine : Machine) (limits : Limits) :
    (machine.limited limits).setup = machine.setup.limited limits :=
  rfl

/-- Entering `main` does not depend on limits. -/
theorem start_limited (machine : Machine) (limits : Limits) :
    start (machine.setup.limited limits) (machine.limited limits).initial =
      start machine.setup machine.initial :=
  rfl

/-- Every instruction that a machine begins costs one unit of fuel. -/
theorem length_begun (machine : Machine) (fuel : Nat) :
    (machine.begun fuel).length + (machine.run fuel).1.fuel = fuel := by
  change _ + (machine.execution fuel).fuel = fuel
  rw [begun, execution_eq]
  rcases start machine.setup machine.initial with ⟨first, _ | halt⟩
  · exact first.length_begun machine.setup fuel
  · exact Nat.zero_add fuel

/-- A run under looser limits ends alike, or a limit has stopped the stricter one at a beginning of
it. -/
theorem execution_loosen (machine : Machine) {strict loose : Limits}
    (loosen : strict.Loosen loose) :
    let cut := (machine.limited strict).execution strict.fuel
    let full := (machine.limited loose).execution loose.fuel
    (full.state = cut.state ∧ full.halt = cut.halt ∧
        machine.begunWithin loose = machine.begunWithin strict) ∨
      ∃ error : RunError, cut.halt = .failed error ∧ error.cause.isOfLimit = true ∧
        machine.begunWithin strict <+: machine.begunWithin loose ∧
        (cut.state.world.output.isImmediate = true →
          cut.state.world.output.Precedes full.state.world.output) := by
  simp only [execution_eq, begunWithin, begun, setup_limited, start_limited]
  rcases start machine.setup machine.initial with ⟨first, _ | halt⟩
  · dsimp only
    rcases RunState.run_loosen loosen machine.setup loosen.fuel first with
      ⟨ended, begunAlike⟩ | ⟨error, next, left, failed, ofLimit, isPrefix, world, goesOn⟩
    · rw [ended]
      exact .inl ⟨rfl, rfl, begunAlike⟩
    · right
      refine ⟨error, failed, ofLimit, isPrefix, fun immediate => ?_⟩
      rw [world] at immediate ⊢
      rw [goesOn]
      exact RunState.run_keepsWritten (machine.setup.limited loose) left immediate
  · exact .inl ⟨rfl, rfl, rfl⟩

/-- Limits only cut a run short.  Under looser limits, a run that no limit stopped gives the same
failure, trace, memory, rest of the input and output, and begins the same instructions; one that a
limit stopped has begun the first instructions of the other run and written, to an output that
holds nothing back, the first bytes of what the other run writes.  The instructions begun are those
that the run has spent its fuel on. -/
theorem run_within_loosen (machine : Machine) {strict loose : Limits}
    (loosen : strict.Loosen loose) :
    let cut := machine.runWithin strict
    let full := machine.runWithin loose
    (cut.1.isCutShort = false →
      full.1.failure = cut.1.failure ∧ full.1.lines = cut.1.lines ∧
      full.2.memory = cut.2.memory ∧ full.2.input = cut.2.input ∧ full.2.output = cut.2.output ∧
      machine.begunWithin loose = machine.begunWithin strict) ∧
    (cut.1.isCutShort = true →
      machine.begunWithin strict <+: machine.begunWithin loose ∧
      (machine.output.isImmediate = true → cut.2.output.Precedes full.2.output)) ∧
    (machine.begunWithin strict).length + cut.1.fuel = strict.fuel ∧
    (machine.begunWithin loose).length + full.1.fuel = loose.fuel := by
  intro cut full
  rw [← and_assoc]
  refine ⟨?_, length_begun .., length_begun ..⟩
  have compared := machine.execution_loosen loosen
  dsimp only at compared
  rcases compared with ⟨state, halt, begunAlike⟩ | ⟨error, failed, ofLimit, isPrefix, written⟩
  · have same : (machine.runWithin loose).2.output = (machine.runWithin strict).2.output := by
      simp only [runWithin, run, state]
    constructor
    · intro
      refine ⟨?_, ?_, ?_, ?_, same, begunAlike⟩ <;>
        simp only [cut, full, runWithin, run, state, halt]
    · intro
      exact ⟨begunAlike ▸ List.prefix_rfl, fun _ => same ▸ .refl _⟩
  · have isCut : (machine.runWithin strict).1.isCutShort = true := by
      rw [runWithin, RunReport.isCutShort, failure_run_of_failed failed]
      exact ofLimit
    constructor
    · intro notCut
      rw [isCut] at notCut
      cases notCut
    · intro
      refine ⟨isPrefix, fun immediate => ?_⟩
      -- The final flushes deliver nothing to an immediate output.
      have cutImmediate := (machine.limited strict).execution_keepsWritten strict.fuel immediate
        |>.isImmediate immediate
      have fullImmediate := (machine.limited loose).execution_keepsWritten loose.fuel immediate
        |>.isImmediate immediate
      exact (Output.flush_of_isImmediate cutImmediate).2.trans
        ((written cutImmediate).trans (Output.flush_of_isImmediate fullImmediate).1)

/-- A program that prints and then stores at address 5. -/
def storing : Program where
  functions? := some [{
    name := "main"
    body := { code? := some #[{ opcode := .pushi, int := 7 }, { opcode := .call, name := "print" },
      { opcode := .pushi, int := 1 }, { opcode := .store, index := 5 }] } }]

/-- A heap of six cells is enough for the program, and one of five cuts it short. -/
theorem run_within_loosen_storing :
    let machine := Machine.new storing #[{}] [.output 0]
    let five : Limits := { fuel := 4, heapLimit := 5 }
    let six : Limits := { fuel := 5, heapLimit := 6 }
    let free : Limits := { fuel := 9 }
    ((machine.runWithin five).1.isCutShort = true ∧
      machine.begunWithin five <+: machine.begunWithin six ∧
      (machine.runWithin five).2.output.Precedes (machine.runWithin six).2.output) ∧
    ((machine.runWithin six).1.isCutShort = false ∧
      (machine.runWithin free).2.memory = (machine.runWithin six).2.memory) := by
  intro machine five six free
  have fiveSix : five.Loosen six := ⟨by decide, .inl (by decide), by decide⟩
  have sixFree : six.Loosen free := ⟨by decide, .inl (by decide), by decide⟩
  have isCut : (machine.runWithin five).1.isCutShort = true := by decide +kernel
  have notCut : (machine.runWithin six).1.isCutShort = false := by decide +kernel
  obtain ⟨-, cut, -⟩ := machine.run_within_loosen fiveSix
  obtain ⟨uncut, -⟩ := machine.run_within_loosen sixFree
  obtain ⟨isPrefix, written⟩ := cut isCut
  obtain ⟨-, -, memory, -⟩ := uncut notCut
  exact ⟨⟨isCut, isPrefix, written (by decide)⟩, notCut, memory⟩

end Machine

end StackMachine
