import Mathlib
import StackMachine.Proofs.Machine.Reachable

/-!
# Corresponding programs

Two programs correspond if each name that is no primitive finds corresponding functions in them.
One and the same instruction then does the same in both: it changes the world alike, fails for the
same cause, and leads control to corresponding places (`execute_map`).  In particular a program
matters to a run only through the functions that its names find (`run_congr`).
-/

namespace StackMachine

/-- The way that control goes in a corresponding program. -/
def Control.map (change : Function → Function) (place : CodeIndex → CodeIndex) : Control → Control
  | .next => .next
  | .jump position => .jump (place position)
  | .enter callee => .enter (change callee)

namespace Setup

/-- The same settings for a program in which names find changed functions. -/
structure Corresponds (change : Function → Function) (setup other : Setup) : Prop where
  maxDepth : other.maxDepth = setup.maxDepth
  heapLimit : other.heapLimit = setup.heapLimit
  lookup? : ∀ name, Primitive.ofName? name = none →
    other.program.lookup? name = (setup.program.lookup? name).map change

section

variable {change : Function → Function} {setup other : Setup}
  (corresponds : Corresponds change setup other)
include corresponds

theorem call_map (place : CodeIndex → CodeIndex) (depth : Nat) (name : String) (world : World) :
    other.call depth name world =
      ((setup.call depth name world).1,
        (setup.call depth name world).2.map (Control.map change place)) := by
  unfold call
  cases called : Primitive.ofName? name with
  | some primitive =>
      dsimp only
      rcases primitive.run world with ⟨after, cause | ⟨⟩⟩ <;> rfl
  | none =>
      dsimp only
      rw [corresponds.lookup? name called, corresponds.maxDepth]
      cases setup.program.lookup? name with
      | none => rfl
      | some callee =>
          dsimp only [Option.map_some]
          split <;> rfl

/-- An instruction does the same in corresponding programs, if a jump finds corresponding
places. -/
theorem execute_map {place : CodeIndex → CodeIndex} {body otherBody : Body} {token : Token}
    (targets : token.opcode = .goto ∨ token.opcode = .branch →
      otherBody.target? token.index = (body.target? token.index).map place)
    (depth : Nat) (world : World) :
    other.execute otherBody depth token world =
      ((setup.execute body depth token world).1,
        (setup.execute body depth token world).2.map (Control.map change place)) := by
  cases opcode : token.opcode with
  | pushi | pushf | label =>
      simp only [execute, opcode]
      rfl
  | pop | dup =>
      simp only [execute, opcode]
      cases world.memory.stack <;> rfl
  | load =>
      simp only [execute, opcode]
      cases world.memory.load token.index <;> rfl
  | store =>
      simp only [execute, opcode, corresponds.heapLimit]
      cases world.memory.stack with
      | nil => rfl
      | cons top rest => cases Memory.checkStore token.index setup.heapLimit "store" <;> rfl
  | stores =>
      simp only [execute, opcode, corresponds.heapLimit]
      cases Memory.checkStore token.index setup.heapLimit "stores" <;> rfl
  | binary operator =>
      simp only [execute, opcode]
      rcases world.memory.stack with _ | ⟨left, _ | ⟨right, rest⟩⟩
      · rfl
      · rfl
      · cases applied : operator.apply left right <;> simp [applied, Except.map, Control.map]
  | goto =>
      simp only [execute, opcode, targets (.inl opcode)]
      cases body.target? token.index <;> rfl
  | branch =>
      simp only [execute, opcode, targets (.inr opcode)]
      cases body.target? token.index with
      | none => rfl
      | some position =>
          rcases world.memory.stack with _ | ⟨condition, rest⟩
          · rfl
          · cases condition with
            | int condition =>
                dsimp only [Option.map_some]
                split <;> rfl
            | _ => rfl
  | call =>
      simp only [execute, opcode]
      exact call_map corresponds place depth token.name world
  | invalid | rawMark | classMark | functionMark | defun | endef | reserved =>
      simp only [execute, opcode]
      rfl

end

/-- An instruction does the same if its names find the same functions. -/
theorem execute_congr {setup other : Setup} (corresponds : Corresponds id setup other) (body : Body)
    (depth : Nat) (token : Token) (world : World) :
    other.execute body depth token world = setup.execute body depth token world := by
  have targets : token.opcode = .goto ∨ token.opcode = .branch →
      body.target? token.index = (body.target? token.index).map id := by
    rw [Option.map_id_fun, id]
    exact fun _ => rfl
  rw [execute_map corresponds targets]
  rcases setup.execute body depth token world with ⟨after, cause | control⟩
  · rfl
  · cases control <;> rfl

end Setup

/-- The same settings, log included, for a program in which names find the same functions. -/
structure RunSetup.Agrees (setup other : RunSetup) : Prop where
  corresponds : Setup.Corresponds id setup.toSetup other.toSetup
  tracer : other.tracer = setup.tracer
  interruption : other.interruption = setup.interruption

namespace RunState

variable {setup other : RunSetup} (agrees : setup.Agrees other)
include agrees

theorem settleFrom_congr (world : World) (frames : List Frame) (trace : Trace) :
    settleFrom other world frames trace = settleFrom setup world frames trace := by
  induction frames generalizing trace with
  | nil => rfl
  | cons frame rest ih =>
      simp only [settleFrom, agrees.tracer, ih]

theorem step_congr (frame : Frame) (rest : List Frame) (token : Token) (world : World)
    (trace : Trace) :
    step other frame rest token world trace = step setup frame rest token world trace := by
  simp only [step, fail, enter, agrees.tracer, Setup.execute_congr agrees.corresponds]

/-- A program matters to a run only through the functions that its names find. -/
theorem run_congr (fuel : Nat) (s : RunState) : s.run other fuel = s.run setup fuel := by
  induction fuel generalizing s with
  | zero =>
      simp only [run, settle, settleFrom_congr agrees, fail, agrees.tracer, agrees.interruption]
  | succ fuel ih =>
      simp only [run, settle, settleFrom_congr agrees, step_congr agrees, ih]

end RunState

/-- A program matters to a machine only through the functions that its names find. -/
theorem Machine.execution_congr {machine other : Machine}
    (agrees : machine.setup.Agrees other.setup) (initial : other.initial = machine.initial)
    (fuel : Nat) : other.execution fuel = machine.execution fuel := by
  have main : other.setup.program.lookup? "main" = machine.setup.program.lookup? "main" := by
    rw [agrees.corresponds.lookup? "main" rfl, Option.map_id_fun, id]
  have begins : start other.setup other.initial = start machine.setup machine.initial := by
    simp only [start, main, initial, RunState.enter, agrees.tracer]
  simp only [execution_eq, begins, RunState.run_congr agrees]

end StackMachine
