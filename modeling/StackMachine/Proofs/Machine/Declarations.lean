import Mathlib
import StackMachine.Proofs.Machine.Simulation
import StackMachine.Proofs.Machine.Tracing

/-!
# Declarations decide nothing

A function declares types of its parameters and of its result, and a text literal declares its
size.  No instruction looks at any of them.  So a program runs as it does without its declarations,
and two programs that differ only in them run alike: with the same memory, input, output and use of
fuel, and with the same failure, up to the size that the failed token shows
(`Machine.run_redeclared`).  Trace lines show sizes, so the runs part if a log refuses a line for a
size in it; a log that ignores sizes does not tell the programs apart.
-/

namespace StackMachine

/-! ## Programs without declarations -/

/-- A token without the size that a text literal declares. -/
def Token.sizeless (token : Token) : Token :=
  if token.opcode = .stores then { token with size := 0 } else token

/-- A function without the types that it declares and the sizes that its literals declare. -/
def Function.undeclared (function : Function) : Function where
  name := function.name
  body := function.body.mapTokens Token.sizeless

/-- A program without declarations. -/
def Program.undeclared (program : Program) : Program :=
  ⟨program.functions?.map (List.map Function.undeclared)⟩

/-- An activation of a function without declarations. -/
def Frame.undeclared (frame : Frame) : Frame := { frame with function := frame.function.undeclared }

/-- An error at a token without a declared size. -/
def RunError.sizeless (error : RunError) : RunError := { error with token := error.token.sizeless }

/-- The end of a run, at a token without a declared size. -/
def Halt.sizeless : Halt → Halt
  | .failed error => .failed error.sizeless
  | .finished => .finished
  | .crashed crash => .crashed crash

/-- A failure of a run, at a token without a declared size. -/
def RunFailure.sizeless : RunFailure → RunFailure
  | .halted error => .halted error.sizeless
  | .crashed crash => .crashed crash
  | .undelivered fault => .undelivered fault

theorem Machine.failureOf_sizeless (halt : Halt) (fault : Option WriteFault) :
    failureOf halt.sizeless fault = (failureOf halt fault).map RunFailure.sizeless := by
  cases halt with
  | failed error => rfl
  | crashed crash => rfl
  | finished => cases fault <;> rfl

theorem Program.lookup?_undeclared (program : Program) (name : String) :
    program.undeclared.lookup? name = (program.lookup? name).map Function.undeclared := by
  have functions : program.undeclared.functions = program.functions.map Function.undeclared := by
    rcases program with ⟨_ | functions⟩ <;> rfl
  rw [lookup?, functions, List.find?_map]
  rfl

/-- The settings of a run of the program without declarations. -/
def RunSetup.undeclared (setup : RunSetup) : RunSetup := setup.withProgram setup.program.undeclared

/-! ## Instructions -/

namespace Setup

/-- An instruction does not look at a declared size. -/
theorem execute_sizeless (setup : Setup) (body : Body) (depth : Nat) (token : Token)
    (world : World) :
    setup.execute body depth token.sizeless world = setup.execute body depth token world := by
  unfold Token.sizeless
  split
  · next opcode => simp only [execute, opcode]
  · rfl

/-- An instruction does the same in a program without declarations. -/
theorem execute_undeclared (setup : RunSetup) (frame : Frame) (token : Token) (world : World) :
    setup.undeclared.execute frame.undeclared.function.body frame.depth token.sizeless world =
      ((setup.execute frame.function.body frame.depth token world).1,
        (setup.execute frame.function.body frame.depth token world).2.map
          (Control.map Function.undeclared id)) := by
  have corresponds : Corresponds Function.undeclared setup.toSetup setup.undeclared.toSetup :=
    ⟨rfl, rfl, fun name _ => setup.program.lookup?_undeclared name⟩
  have targets : frame.undeclared.function.body.target? token.index =
      (frame.function.body.target? token.index).map id := by
    rw [Option.map_id_fun, id]
    rfl
  rw [execute_sizeless]
  exact execute_map corresponds (fun _ => targets) frame.depth world

end Setup

theorem Control.frames_undeclared (control : Control) (frame : Frame) (rest : List Frame) :
    (control.map Function.undeclared id).frames frame.undeclared (rest.map Frame.undeclared) =
      (control.frames frame rest).map Frame.undeclared := by
  cases control <;> rfl

/-! ## Traces -/

/-- A log that does not refuse a line for a size in it. -/
def Tracer.IgnoresSizes (tracer : Tracer) : Prop :=
  ∀ (count : Nat) (token : Token) (before after : String),
    tracer.refuses count (before ++ token.sizeless.text ++ after) =
      tracer.refuses count (before ++ token.text ++ after)

/-- The log of a run, if it has one, ignores sizes. -/
def RunSetup.IgnoresSizes (setup : RunSetup) : Prop :=
  ∀ tracer, setup.tracer = some tracer → tracer.IgnoresSizes

/-- Two traces with as many lines and with marks of the same width. -/
structure Trace.InStep (first second : Trace) : Prop where
  count : second.count = first.count
  width : second.width = first.width

namespace Trace.InStep

variable {first second : Trace} (inStep : first.InStep second)
include inStep

/-- Traces stay in step if the log does the same with the lines. -/
theorem log (tracer : Option Tracer) (mark : String) (message other : Unit → String)
    (alike : ∀ t, tracer = some t → ∀ count start,
      t.refuses count (start ++ other ()) = t.refuses count (start ++ message ())) :
    (second.log tracer mark other).2 = (first.log tracer mark message).2 ∧
      (first.log tracer mark message).1.InStep (second.log tracer mark other).1 := by
  cases tracer with
  | none => exact ⟨rfl, inStep⟩
  | some tracer =>
      unfold Trace.log
      dsimp only
      rw [inStep.count, inStep.width, alike tracer rfl]
      split
      · exact ⟨rfl, rfl, rfl⟩
      · exact ⟨rfl, rfl, rfl⟩

end Trace.InStep

/-- The log does the same with a line about an instruction without a declared size. -/
theorem RunSetup.IgnoresSizes.execute {setup : RunSetup} (ignores : setup.IgnoresSizes)
    (frame : Frame) (token : Token) (world : World) {tracer : Tracer}
    (logs : setup.tracer = some tracer) (count : Nat) (start : String) :
    tracer.refuses count (start ++ frame.undeclared.executeMessage token.sizeless world ()) =
      tracer.refuses count (start ++ frame.executeMessage token world ()) := by
  have same := ignores tracer logs count token
    (start ++ s!"{frame.function.name}@{frame.position} ")
    s!" -- s:{stackText world.memory.stack}"
  simp only [String.append_assoc] at same
  unfold Frame.executeMessage
  simp only [String.append_assoc]
  exact same

/-! ## Runs -/

namespace RunState

/-- A run in progress and, beside it, the run of the program without declarations. -/
structure Undeclares (s other : RunState) : Prop where
  frames : other.frames = s.frames.map Frame.undeclared
  world : other.world = s.world
  trace : s.trace.InStep other.trace

theorem undeclares_of_inStep {first second : Trace} (inStep : first.InStep second)
    (frames : List Frame) (world : World) :
    Undeclares ⟨frames, world, first⟩ ⟨frames.map Frame.undeclared, world, second⟩ :=
  ⟨rfl, rfl, inStep⟩

/-- Both runs stop, or the same instruction is due in both but for its declared size. -/
inductive Settled.Undeclares : Settled → Settled → Prop where
  | halted {first second : Trace} (inStep : first.InStep second) (frames : List Frame)
      (world : World) (halt : Halt) :
      Undeclares (.halted ⟨frames, world, first⟩ halt)
        (.halted ⟨frames.map Frame.undeclared, world, second⟩ halt.sizeless)
  | ready {first second : Trace} (inStep : first.InStep second) (frame : Frame) (rest : List Frame)
      (token : Token) (world : World) :
      Undeclares (.ready frame rest token world first)
        (.ready frame.undeclared (rest.map Frame.undeclared) token.sizeless world second)

/-- Both runs have ended alike, but for the declared size of the failed token. -/
structure Ending.Undeclares (ending other : Ending) : Prop where
  world : other.state.world = ending.state.world
  halt : other.halt = ending.halt.sizeless
  fuel : other.fuel = ending.fuel

theorem settleFrom_undeclared (setup : RunSetup) (world : World) (frames : List Frame)
    {first second : Trace} (inStep : first.InStep second) :
    (settleFrom setup world frames first).Undeclares
      (settleFrom setup.undeclared world (frames.map Frame.undeclared) second) := by
  induction frames generalizing first second with
  | nil => exact .halted inStep [] world .finished
  | cons frame rest ih =>
      have fetches : frame.undeclared.fetch = _ := frame.fetch_mapTokens Token.sizeless
      cases fetched : frame.fetch with
      | instruction token =>
          rw [fetched] at fetches
          rw [List.map_cons, settleFrom, settleFrom, fetched, fetches]
          exact .ready inStep frame rest token world
      | crash crash =>
          rw [fetched] at fetches
          rw [List.map_cons, settleFrom, settleFrom, fetched, fetches]
          exact .halted inStep (frame :: rest) world (.crashed crash)
      | bodyEnd =>
          rw [fetched] at fetches
          obtain ⟨same, still⟩ := inStep.log setup.tracer "<" (frame.returnMessage world)
            (frame.undeclared.returnMessage world) fun _ _ _ _ => rfl
          have ends := settleFrom_of_bodyEnd fetches setup.undeclared world
            (rest.map Frame.undeclared) second
          dsimp only at ends
          rw [show setup.undeclared.tracer = setup.tracer from rfl, same] at ends
          rw [List.map_cons, settleFrom_of_bodyEnd fetched, ends]
          dsimp only
          split
          · exact .halted still (frame :: rest) world (.crashed .traceRefused)
          · exact ih still

theorem settle_undeclared (setup : RunSetup) {s other : RunState} (alike : s.Undeclares other) :
    (s.settle setup).Undeclares (other.settle setup.undeclared) := by
  rw [settle, settle, alike.frames, alike.world]
  exact settleFrom_undeclared setup s.world s.frames alike.trace

theorem enter_undeclared (setup : RunSetup) (callee : Function) (depth : Nat) {s other : RunState}
    (alike : s.Undeclares other) :
    (enter setup callee depth s).1.Undeclares
        (enter setup.undeclared callee.undeclared depth other).1 ∧
      (enter setup.undeclared callee.undeclared depth other).2 =
        (enter setup callee depth s).2.map Halt.sizeless := by
  obtain ⟨same, still⟩ := alike.trace.log setup.tracer ">"
    (callee.enterMessage depth) (callee.undeclared.enterMessage depth) fun _ _ _ _ => rfl
  rw [enter_eq, enter_eq, show setup.undeclared.tracer = setup.tracer from rfl]
  refine ⟨⟨congrArg _ alike.frames, alike.world, still⟩, ?_⟩
  dsimp only
  rw [same]
  split <;> rfl

section Step

variable {setup : RunSetup} (ignores : setup.IgnoresSizes)
include ignores

/-- An instruction takes both runs to states that are alike, or ends both. -/
theorem step_undeclared (frame : Frame) (rest : List Frame) (token : Token) (world : World)
    {first second : Trace} (inStep : first.InStep second) :
    let one := step setup frame rest token world first
    let other := step setup.undeclared frame.undeclared (rest.map Frame.undeclared) token.sizeless
      world second
    other.2 = one.2.map Halt.sizeless ∧ other.1.world = one.1.world ∧
      (one.2 = none → one.1.Undeclares other.1) := by
  obtain ⟨same, still⟩ := inStep.log setup.tracer "exec" (frame.executeMessage token world)
    (frame.undeclared.executeMessage token.sizeless world)
    fun _ logs => ignores.execute frame token world logs
  have executes := Setup.execute_undeclared setup frame token world
  dsimp only
  cases refused : (first.log setup.tracer "exec" (frame.executeMessage token world)).2 with
  | true =>
      rw [step_of_refused refused, @step_of_refused setup.undeclared _ _ _ _ (same.trans refused)]
      refine ⟨rfl, rfl, ?_⟩
      rintro ⟨⟩
  | false =>
      have logged : first.log setup.tracer "exec" (frame.executeMessage token world) = (_, false) :=
        Prod.ext rfl refused
      have loggedToo : second.log setup.undeclared.tracer "exec"
          (frame.undeclared.executeMessage token.sizeless world) = (_, false) :=
        Prod.ext rfl (same.trans refused)
      rcases executed : setup.execute frame.function.body frame.depth token world with
        ⟨after, cause | control⟩
      · rw [executed] at executes
        rw [step_of_error logged executed, step_of_error loggedToo executes]
        refine ⟨rfl, rfl, ?_⟩
        rintro ⟨⟩
      · rw [executed] at executes
        by_cases entered : ∃ callee, control = .enter callee
        · obtain ⟨callee, rfl⟩ := entered
          obtain ⟨alike, halts⟩ := enter_undeclared setup callee (frame.depth + 1)
            (undeclares_of_inStep still ({ frame with position := frame.position + 1 } :: rest) after)
          rw [step_of_enter logged executed, step_of_enter loggedToo executes]
          exact ⟨halts, alike.world, fun _ => alike⟩
        · have stays (callee : Function) :
              control.map Function.undeclared id ≠ .enter callee := by
            cases control with
            | next => rintro ⟨⟩
            | jump position => rintro ⟨⟩
            | enter own => exact absurd ⟨own, rfl⟩ entered
          have alike : Undeclares ⟨control.frames frame rest, after, _⟩
              ⟨(control.map Function.undeclared id).frames frame.undeclared
                (rest.map Frame.undeclared), after, _⟩ :=
            ⟨control.frames_undeclared frame rest, rfl, still⟩
          rw [step_of_stay logged executed (not_exists.mp entered),
            step_of_stay loggedToo executes stays]
          exact ⟨rfl, alike.world, fun _ => alike⟩

/-- Two runs that have got equally far end alike. -/
theorem run_undeclared (fuel : Nat) {s other : RunState} (alike : s.Undeclares other) :
    (s.run setup fuel).Undeclares (other.run setup.undeclared fuel) := by
  induction fuel generalizing s other with
  | zero =>
      have settled := settle_undeclared setup alike
      generalize one : s.settle setup = first at settled
      generalize two : other.settle setup.undeclared = second at settled
      cases settled with
      | halted inStep frames world halt =>
          rw [run_of_halted one, run_of_halted two]
          exact ⟨rfl, rfl, rfl⟩
      | ready inStep frame rest token world =>
          rw [run, one, run, two]
          exact ⟨rfl, rfl, rfl⟩
  | succ fuel ih =>
      have settled := settle_undeclared setup alike
      generalize one : s.settle setup = first at settled
      generalize two : other.settle setup.undeclared = second at settled
      cases settled with
      | halted inStep frames world halt =>
          rw [run_of_halted one, run_of_halted two]
          exact ⟨rfl, rfl, rfl⟩
      | @ready first second inStep frame rest token world =>
          have steps := step_undeclared ignores frame rest token world inStep
          rw [run, one, run, two]
          dsimp only at steps ⊢
          revert steps
          rcases step setup frame rest token world first with ⟨next, _ | halt⟩
          · rcases step setup.undeclared frame.undeclared (rest.map Frame.undeclared)
              token.sizeless world second with ⟨nextToo, _⟩
            rintro ⟨rfl, -, goesOn⟩
            exact ih (goesOn rfl)
          · rcases step setup.undeclared frame.undeclared (rest.map Frame.undeclared)
              token.sizeless world second with ⟨nextToo, _⟩
            rintro ⟨rfl, world, -⟩
            exact ⟨world, rfl, rfl⟩

end Step

end RunState

/-! ## Machines -/

namespace Machine

theorem start_undeclared (setup : RunSetup) {s other : RunState} (alike : s.Undeclares other) :
    (start setup s).1.Undeclares (start setup.undeclared other).1 ∧
      (start setup.undeclared other).2 = (start setup s).2.map Halt.sizeless := by
  have main : setup.undeclared.program.lookup? "main" = _ :=
    setup.program.lookup?_undeclared "main"
  unfold start
  rw [main]
  cases setup.program.lookup? "main" with
  | some main => exact RunState.enter_undeclared setup main 1 alike
  | none =>
      obtain ⟨same, still⟩ := alike.trace.log setup.tracer "#" (fun _ => "no main function")
        (fun _ => "no main function") fun _ _ _ _ => rfl
      refine ⟨⟨alike.frames, alike.world, still⟩, ?_⟩
      dsimp only [Option.map_none, Option.map_some]
      rw [show setup.undeclared.tracer = setup.tracer from rfl, same]
      split <;> rfl

/-- A machine runs as it does without the declarations of its program. -/
theorem execution_undeclared {machine : Machine} (ignores : machine.setup.IgnoresSizes)
    (fuel : Nat) :
    (machine.execution fuel).Undeclares
      ((machine.withProgram machine.setup.program.undeclared).execution fuel) := by
  have starts := start_undeclared machine.setup (s := machine.initial) ⟨rfl, rfl, rfl, rfl⟩
  rw [execution_eq, execution_eq,
    show (machine.withProgram machine.setup.program.undeclared).setup = machine.setup.undeclared
      from rfl,
    show (machine.withProgram machine.setup.program.undeclared).initial = machine.initial from rfl]
  revert starts
  rcases start machine.setup machine.initial with ⟨first, _ | halt⟩
  · rcases start machine.setup.undeclared machine.initial with ⟨other, _⟩
    rintro ⟨alike, rfl⟩
    exact RunState.run_undeclared ignores fuel alike
  · rcases start machine.setup.undeclared machine.initial with ⟨other, _⟩
    rintro ⟨alike, rfl⟩
    exact ⟨alike.world, rfl, rfl⟩

/-- A run that its log does not break off ends as it would without a log. -/
theorem execution_of_unbroken {machine : Machine} {fuel : Nat}
    (unbroken : (machine.execution fuel).halt ≠ .crashed .traceRefused) :
    (machine.execution fuel).untraced = ((machine.withTracer none).execution fuel).untraced := by
  cases logs : machine.setup.tracer with
  | none =>
      have own : machine.withTracer none = machine := by
        rw [← logs]
        rfl
      rw [own]
  | some tracer =>
      have own : machine.withTracer (some tracer) = machine := by
        rw [← logs]
        rfl
      have follows := machine.execution_follows tracer fuel
      rw [own, RunState.Ending.Follows, machine.execution_untraced] at follows
      rcases follows with ⟨-, same⟩ | ⟨-, broken⟩
      · exact same
      · exact absurd broken unbroken

theorem execution_undeclared_of_unbroken {machine : Machine} {fuel : Nat}
    (unbroken : (machine.run fuel).1.failure ≠ some (.crashed .traceRefused)) :
    (machine.execution fuel).Undeclares
      (((machine.withTracer none).withProgram machine.setup.program.undeclared).execution fuel) := by
  have silent : (machine.withTracer none).setup.IgnoresSizes := by
    rintro tracer ⟨⟩
  have same : (machine.execution fuel).untraced =
      ((machine.withTracer none).execution fuel).untraced :=
    execution_of_unbroken ((failureOf_eq_crashed_iff ..).not.mp unbroken)
  obtain ⟨states, halts, fuels⟩ := RunState.Ending.mk.inj same
  obtain ⟨-, worlds, -⟩ := RunState.mk.inj states
  obtain ⟨world, halt, left⟩ := execution_undeclared silent fuel
  exact ⟨world.trans worlds.symm, halt.trans (congrArg Halt.sizeless halts.symm),
    left.trans fuels.symm⟩

/-- Two runs that give the same result, but for the declared size of the failed token. -/
structure AlikeButSizes (first second : RunReport × Machine) : Prop where
  memory : second.2.memory = first.2.memory
  input : second.2.input = first.2.input
  output : second.2.output = first.2.output
  fuel : second.1.fuel = first.1.fuel
  failure : second.1.failure.map RunFailure.sizeless = first.1.failure.map RunFailure.sizeless

/-- Two runs give the same result if both end like one and the same run without declarations. -/
theorem alikeButSizes_of_undeclares {first second : Machine} {fuel : Nat}
    {ending : RunState.Ending} (one : (first.execution fuel).Undeclares ending)
    (two : (second.execution fuel).Undeclares ending) :
    AlikeButSizes (first.run fuel) (second.run fuel) := by
  have worlds : (second.execution fuel).state.world = (first.execution fuel).state.world :=
    two.world.symm.trans one.world
  have halts : (second.execution fuel).halt.sizeless = (first.execution fuel).halt.sizeless :=
    two.halt.symm.trans one.halt
  constructor
  · exact congrArg World.memory worlds
  · exact congrArg World.input worlds
  · exact congrArg (fun world => world.output.flush.2) worlds
  · exact two.fuel.symm.trans one.fuel
  · change (failureOf _ _).map RunFailure.sizeless = (failureOf _ _).map RunFailure.sizeless
    rw [← failureOf_sizeless, ← failureOf_sizeless, halts, worlds]

/-- Two programs that differ only in declarations run alike, whatever the input and the settings:
with the same memory, input, output and use of fuel, and with the same failure at the same place and
for the same cause.  Sizes stand in trace lines, so a log that breaks off one of the runs is asked
to ignore them. -/
theorem run_redeclared (machine : Machine) {other : Program}
    (redeclares : other.undeclared = machine.setup.program.undeclared) {fuel : Nat}
    (unaware : machine.setup.IgnoresSizes ∨
      (machine.run fuel).1.failure ≠ some (.crashed .traceRefused) ∧
        ((machine.withProgram other).run fuel).1.failure ≠ some (.crashed .traceRefused)) :
    AlikeButSizes (machine.run fuel) ((machine.withProgram other).run fuel) := by
  rcases unaware with ignores | ⟨unbroken, unbrokenToo⟩
  · have two := @execution_undeclared (machine.withProgram other) ignores fuel
    apply alikeButSizes_of_undeclares (execution_undeclared ignores fuel)
    rw [← redeclares]
    exact two
  · have two := execution_undeclared_of_unbroken unbrokenToo
    apply alikeButSizes_of_undeclares (execution_undeclared_of_unbroken unbroken)
    rw [← redeclares]
    exact two

/-- A program with some declarations; it prints a text and fails at a literal. -/
def declaring (types : List DeclaredType) (result : DeclaredType) (size : Int64) : Program where
  functions? := some
    [{ name := "main", params? := some types, result,
       body := { code? := some #[{ opcode := .stores, index := 2, size, name := "text" },
         { opcode := .call, name := "f" }] } },
      { name := "f", params? := some (result :: types),
        body := { code? := some #[{ opcode := .load, index := 2 },
          { opcode := .call, name := "print" },
          { opcode := .stores, index := -1, size, name := "text" }] } }]

theorem run_redeclared_declaring :
    let machine := new (declaring [] {} 4) #[{}] [.output 0, .heapLimit 3, .tracer {}]
    let other := declaring [⟨.int, ""⟩, ⟨.object, "A"⟩] ⟨.string, ""⟩ 7
    (machine.run 9).1.failure = some (.halted ⟨"f", 2,
        { opcode := .stores, index := -1, size := 4, name := "text" },
        .heapLimit ⟨-1, 3, "stores"⟩⟩) ∧
      AlikeButSizes (machine.run 9) ((machine.withProgram other).run 9) := by
  intro machine other
  have redeclares : other.undeclared = machine.setup.program.undeclared := by
    decide +kernel
  have ignores : machine.setup.IgnoresSizes := by
    rintro tracer ⟨⟩ count token before after
    rfl
  exact ⟨by decide +kernel, machine.run_redeclared redeclares (.inl ignores)⟩

end Machine

end StackMachine
