import Mathlib
import StackMachine.Proofs.Machine.Safety

/-!
# Where values come from

A program computes numbers, reads numbers, and stores texts that stand in its code; fresh heap cells
are null.  No instruction makes a reference.  So a run that begins with fresh memory never holds a
reference or a value of an unknown kind, and every text that it holds is a literal of the program
(`Machine.run_values_produced`).  A primitive that prints has no reference to follow.
-/

namespace StackMachine

/-! ## Values of a program -/

/-- A text that stands in the code of a program, in an instruction that stores it. -/
def Program.HasLiteral (program : Program) (text : String) : Prop :=
  ∃ function ∈ program.functions, ∃ token ∈ function.body.code,
    token.opcode = .stores ∧ token.name = text

/-- A value that a program can make: null, a number, or one of its literals. -/
def Atom.ProducedBy (program : Program) : Atom → Prop
  | .null | .int _ | .float _ => True
  | .str text => program.HasLiteral text
  | .ref _ | .unknown _ => False

/-- A memory all of whose values a program can make. -/
structure Memory.ProducedBy (program : Program) (m : Memory) : Prop where
  stack : ∀ a ∈ m.stack, a.ProducedBy program
  heap : ∀ a ∈ m.heap, a.ProducedBy program

variable {program : Program}

theorem Atom.producedBy_ofBool (truth : Bool) : (ofBool truth).ProducedBy program :=
  trivial

/-- Operators give numbers. -/
theorem BinaryOperator.apply_producedBy {operator : BinaryOperator} {left right a : Atom}
    (applied : operator.apply left right = .ok a) : a.ProducedBy program := by
  unfold apply at applied
  split at applied
  · unfold onInts at applied
    repeat' split at applied
    all_goals
      cases applied
    all_goals exact trivial
  · unfold onFloats at applied
    repeat' split at applied
    all_goals
      cases applied
    all_goals exact trivial
  · unfold onTexts at applied
    split at applied
    · cases applied
      exact Atom.producedBy_ofBool _
    · cases applied
      exact Atom.producedBy_ofBool _
    · cases applied
  · cases applied

namespace Memory.ProducedBy

variable {m : Memory} {a : Atom}

theorem fresh : ProducedBy program {} where
  stack := List.forall_mem_nil _
  heap := by simp

theorem withStack (produced : m.ProducedBy program) {stack : List Atom}
    (values : ∀ a ∈ stack, a.ProducedBy program) : ProducedBy program { m with stack } :=
  ⟨values, produced.heap⟩

theorem push (produced : m.ProducedBy program) (value : a.ProducedBy program) :
    (m.push a).ProducedBy program :=
  produced.withStack (List.forall_mem_cons.mpr ⟨value, produced.stack⟩)

/-- A store leaves the value, what was there before, and null cells. -/
theorem store (produced : m.ProducedBy program) (index : Nat) (value : a.ProducedBy program) :
    (m.store index a).ProducedBy program := by
  refine ⟨produced.stack, fun other mem => ?_⟩
  rcases Array.mem_or_eq_of_mem_setIfInBounds mem with grown | same
  · rcases Array.mem_append.mp grown with before | padding
    · exact produced.heap other before
    · rw [(Array.mem_replicate.mp padding).2]
      exact trivial
  · rw [same]
    exact value

theorem load (produced : m.ProducedBy program) {address : Int64}
    (loaded : m.load address = .ok a) : a.ProducedBy program := by
  unfold Memory.load at loaded
  split at loaded
  · cases loaded
    exact produced.heap _ (Array.getElem_mem _)
  · cases loaded

end Memory.ProducedBy

/-- A value that a program can make is no reference. -/
theorem Memory.follow_of_producedBy (m : Memory) {a : Atom} (produced : a.ProducedBy program) :
    m.follow a = .ok a := by
  cases a with
  | ref address => exact produced.elim
  | null | int | float | str | unknown => rfl

/-! ## Actions -/

/-- A cause that goes back to a reference. -/
def Cause.isOfReference : Cause → Bool
  | .heapBounds _ | .referenceCycle => true
  | _ => false

/-- An action that makes only values of a program and follows no reference. -/
structure Produces {α : Type} (program : Program) (result : World × Except Cause α) : Prop where
  memory : result.1.memory.ProducedBy program
  cause : ∀ cause, result.2 = .error cause → cause.isOfReference = false

namespace Produces

theorem of_ok {α : Type} {w : World} {value : α} (produced : w.memory.ProducedBy program) :
    Produces program (w, .ok value) :=
  ⟨produced, nofun⟩

theorem of_error {α : Type} {w : World} {cause : Cause} (produced : w.memory.ProducedBy program)
    (notReference : cause.isOfReference = false) :
    Produces program ((w, .error cause) : World × Except Cause α) := by
  refine ⟨produced, ?_⟩
  rintro _ ⟨⟩
  exact notReference

theorem andThen {α β : Type} {result : World × Except Cause α}
    {next : α → World → World × Except Cause β} (first : Produces program result)
    (second : ∀ value w, w.memory.ProducedBy program → Produces program (next value w)) :
    Produces program (StackMachine.andThen result next) := by
  rcases result with ⟨w, cause | value⟩
  · exact .of_error first.memory (first.cause cause rfl)
  · exact second value w first.memory

end Produces

section Actions

variable {w : World} (produced : w.memory.ProducedBy program)
include produced

theorem World.emit_produces (text : String) : Produces program (w.emit text) := by
  unfold World.emit
  dsimp only
  split
  · exact .of_error produced rfl
  · exact .of_ok produced

theorem World.flush_produces : Produces program w.flush := by
  unfold World.flush
  dsimp only
  split
  · exact .of_error produced rfl
  · exact .of_ok produced

namespace Primitive

theorem printing_produces (endings : List String) : Produces program (printing endings w) := by
  unfold printing
  split
  · exact .of_error produced rfl
  · next a rest stack =>
      have values := produced.stack
      rw [stack, List.forall_mem_cons] at values
      have left : (w.withStack rest).memory.ProducedBy program := produced.withStack values.2
      dsimp only
      rw [Memory.follow_of_producedBy _ values.1]
      dsimp only
      suffices written : ∀ result : World × Except Cause Unit, Produces program result →
          Produces program
            (endings.foldl (fun result text => andThen result fun _ w => w.emit text) result) by
        exact written _ (World.emit_produces left a.text)
      induction endings with
      | nil => exact fun _ first => first
      | cons text texts ih =>
          intro result first
          exact ih _ (first.andThen fun _ _ after => World.emit_produces after text)

theorem reading_produces : Produces program (reading w) := by
  refine (World.flush_produces produced).andThen fun _ after left => ?_
  dsimp only
  split
  · exact .of_error left rfl
  · exact .of_error left rfl
  · split
    · exact .of_ok (left.push trivial)
    · exact .of_error left rfl

theorem run_produces (primitive : Primitive) : Produces program (primitive.run w) := by
  cases primitive with
  | print =>
      exact (printing_produces produced []).andThen fun _ _ after => World.flush_produces after
  | println =>
      exact (printing_produces produced ["\n"]).andThen fun _ _ after => World.flush_produces after
  | readint => exact (reading_produces produced).andThen fun _ _ after => World.flush_produces after

end Primitive

namespace Setup

theorem call_produces (setup : Setup) (depth : Nat) (name : String) :
    Produces program (setup.call depth name w) := by
  unfold call
  split
  · next primitive found =>
      exact (primitive.run_produces produced).andThen fun _ _ after => .of_ok after
  · split
    · exact .of_error produced rfl
    · split
      · exact .of_error produced rfl
      · exact .of_ok produced

/-- An instruction of the program makes only values of the program. -/
theorem execute_producedBy (setup : Setup) (body : Body) (depth : Nat) {token : Token}
    (literal : token.opcode = .stores → program.HasLiteral token.name) :
    (setup.execute body depth token w).1.memory.ProducedBy program := by
  have values := produced.stack
  cases opcode : token.opcode with
  | pushi | pushf =>
      simp only [execute, opcode]
      exact produced.push trivial
  | pop =>
      simp only [execute, opcode]
      split
      · exact produced
      · next top rest stack =>
          rw [stack, List.forall_mem_cons] at values
          exact produced.withStack values.2
  | dup =>
      simp only [execute, opcode]
      split
      · exact produced
      · next top rest stack =>
          rw [stack, List.forall_mem_cons] at values
          exact produced.push values.1
  | load =>
      simp only [execute, opcode]
      split
      · exact produced
      · next a loaded => exact produced.push (produced.load loaded)
  | store =>
      simp only [execute, opcode]
      split
      · exact produced
      · next top rest stack =>
          rw [stack, List.forall_mem_cons] at values
          split
          · exact produced
          · exact (produced.withStack values.2).store _ values.1
  | stores =>
      simp only [execute, opcode]
      split
      · exact produced
      · exact produced.store _ (literal opcode)
  | binary operator =>
      simp only [execute, opcode]
      split
      · next left right rest stack =>
          rw [stack, List.forall_mem_cons, List.forall_mem_cons] at values
          split
          · exact produced.withStack values.2.2
          · next a applied =>
              exact produced.withStack (List.forall_mem_cons.mpr
                ⟨BinaryOperator.apply_producedBy applied, values.2.2⟩)
      · exact produced
  | goto =>
      simp only [execute, opcode]
      split <;> exact produced
  | branch =>
      simp only [execute, opcode]
      split
      · exact produced
      · split
        · exact produced
        · next condition rest stack =>
            rw [stack, List.forall_mem_cons] at values
            exact produced.withStack values.2
        · next other rest _ stack =>
            rw [stack, List.forall_mem_cons] at values
            exact produced.withStack values.2
  | call =>
      simp only [execute, opcode]
      exact (setup.call_produces produced depth token.name).memory
  | label | invalid | rawMark | classMark | functionMark | defun | endef | reserved =>
      simp only [execute, opcode]
      exact produced

end Setup

end Actions

/-- A call does not fail because of a reference. -/
theorem Setup.execute_cause_of_call {setup : Setup} {body : Body} {depth : Nat} {token : Token}
    {w after : World} {cause : Cause} (produced : w.memory.ProducedBy program)
    (isCall : token.opcode = .call)
    (executed : setup.execute body depth token w = (after, .error cause)) :
    cause.isOfReference = false := by
  simp only [execute, isCall] at executed
  apply (setup.call_produces produced depth token.name).cause
  rw [executed]

/-! ## Runs -/

/-- Activations of functions of a program over values that it can make. -/
structure RunState.ProducedBy (program : Program) (s : RunState) : Prop where
  functions : ∀ frame ∈ s.frames, frame.function ∈ program.functions
  memory : s.world.memory.ProducedBy program

/-- What an activation of the program stores is a literal of the program. -/
theorem Frame.hasLiteral_of_fetch {frame : Frame} {token : Token}
    (mem : frame.function ∈ program.functions) (fetched : frame.fetch = .instruction token)
    (stores : token.opcode = .stores) : program.HasLiteral token.name := by
  obtain ⟨-, found⟩ := (frame.fetch_eq_instruction_iff token).mp fetched
  exact ⟨frame.function, mem, token, Array.mem_of_getElem? found, stores, rfl⟩

namespace RunState.ProducedBy

variable {setup : RunSetup} {s next : RunState}

/-- The instruction that is due leaves only values of the program. -/
theorem execute (produced : s.ProducedBy setup.program) {frame : Frame} {rest : List Frame}
    {token : Token} {world : World} {trace : Trace}
    (settled : s.settle setup = .ready frame rest token world trace) :
    (setup.execute frame.function.body frame.depth token s.world).1.memory.ProducedBy
      setup.program := by
  obtain ⟨suffix, -, fetched⟩ := settleFrom_eq_ready settled
  have mem := produced.functions frame (suffix.mem List.mem_cons_self)
  exact setup.execute_producedBy produced.memory _ _ (Frame.hasLiteral_of_fetch mem fetched)

/-- One instruction leaves only values of the program. -/
theorem advance (produced : s.ProducedBy setup.program)
    (advanced : s.advance? setup = some next) : next.ProducedBy setup.program := by
  obtain ⟨frame, rest, token, world, trace, settled, stepped⟩ :=
    (advance?_eq_some_iff setup s next).mp advanced
  have memory := produced.execute settled
  obtain ⟨suffix, rfl, -⟩ := settleFrom_eq_ready settled
  obtain ⟨after, control, executed, frames, rfl⟩ := step_eq_none stepped
  rw [executed] at memory
  refine ⟨?_, memory⟩
  have top := produced.functions frame (suffix.mem List.mem_cons_self)
  have below : ∀ other ∈ rest, other.function ∈ setup.program.functions := fun other mem =>
    produced.functions other (suffix.mem (List.mem_cons_of_mem frame mem))
  rw [frames]
  rcases Setup.execute_control executed with rfl | ⟨position, rfl, -⟩ | ⟨callee, rfl, found⟩
  · exact List.forall_mem_cons.mpr ⟨top, below⟩
  · exact List.forall_mem_cons.mpr ⟨top, below⟩
  · exact List.forall_mem_cons.mpr
      ⟨Program.mem_of_lookup? found, List.forall_mem_cons.mpr ⟨top, below⟩⟩

/-- A run stops with only values of the program, and not at a call because of a reference. -/
theorem stops (produced : s.ProducedBy setup.program) {fuel : Nat} {ending : Ending}
    (stops : Stops setup fuel s ending) :
    ending.state.world.memory.ProducedBy setup.program ∧
      ∀ error, ending.halt = .failed error → error.token.opcode = .call →
        error.cause.isOfReference = false := by
  cases stops with
  | halted settled =>
      obtain ⟨same, notFailed⟩ := settleFrom_halts settled
      constructor
      · rw [same]
        exact produced.memory
      · intro error failed
        exact absurd failed (notFailed error)
  | spent settled failed =>
      obtain ⟨-, rfl, -⟩ := settleFrom_eq_ready settled
      cases failed
      refine ⟨produced.memory, ?_⟩
      rintro _ ⟨⟩ -
      rfl
  | failed settled stepped =>
      have memory := produced.execute settled
      obtain ⟨-, rfl, -⟩ := settleFrom_eq_ready settled
      rcases step_halts stepped with ⟨same, rfl⟩ | ⟨cause, executed, rfl⟩
      · refine ⟨same ▸ produced.memory, ?_⟩
        rintro _ ⟨⟩
      · rw [executed] at memory
        refine ⟨memory, ?_⟩
        rintro _ ⟨⟩ isCall
        exact Setup.execute_cause_of_call produced.memory isCall executed

end RunState.ProducedBy

namespace Machine

/-- Every state that a run visits holds only values of the program. -/
theorem Visits.producedBy {machine : Machine} {s : RunState} (visited : machine.Visits s) :
    s.ProducedBy machine.setup.program := by
  refine visited.invariant ?_ fun s next produced advanced => produced.advance advanced
  intro first started
  obtain ⟨main, found, frames, world⟩ := start_eq_none started
  constructor
  · intro frame mem
    rw [frames] at mem
    cases List.mem_singleton.mp mem
    exact Program.mem_of_lookup? found
  · rw [world]
    exact .fresh

/-- Every value has a source.  In a run of any program no value on the stack or in the heap is a
reference or of an unknown kind, and every text is a literal of the program, at every instruction
and when the run has ended.  So no call, and no primitive that prints in particular, fails because
of a reference: neither outside the heap nor in a cycle. -/
theorem run_values_produced (machine : Machine) (fuel : Nat) :
    (∀ s, machine.Visits s → s.world.memory.ProducedBy machine.setup.program) ∧
    (machine.run fuel).2.memory.ProducedBy machine.setup.program ∧
    ∀ error, (machine.run fuel).1.failure = some (.halted error) → error.token.opcode = .call →
      error.cause ≠ .referenceCycle ∧ ∀ bounds, error.cause ≠ .heapBounds bounds := by
  refine ⟨fun s visited => visited.producedBy.memory, ?_⟩
  have ended : (machine.execution fuel).state.world.memory.ProducedBy machine.setup.program ∧
      ∀ error, (machine.execution fuel).halt = .failed error → error.token.opcode = .call →
        error.cause.isOfReference = false := by
    rcases machine.execution_stops fuel with
      ⟨state, halt, started, executed⟩ | ⟨left, last, -, visited, stops⟩
    · obtain ⟨same, notFailed⟩ := start_halts started
      rw [executed]
      constructor
      · rw [same]
        exact .fresh
      · intro error failed
        exact absurd failed (notFailed error)
    · exact visited.producedBy.stops stops
  refine ⟨ended.1, fun error failed isCall => ?_⟩
  have notReference := ended.2 error ((failureOf_eq_halted_iff ..).mp failed) isCall
  constructor
  · intro cycle
    rw [cycle] at notReference
    cases notReference
  · intro bounds outside
    rw [outside] at notReference
    cases notReference

end Machine

end StackMachine
