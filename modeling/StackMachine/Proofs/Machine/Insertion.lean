import Mathlib
import StackMachine.Proofs.Machine.Recursion
import StackMachine.Proofs.Machine.Simulation
import StackMachine.Proofs.Program.Insertion

/-!
# Labels do nothing

A label that is put into a body and to which nothing refers there changes no run, apart from the
instruction that it costs each time control comes to it, and from the positions behind it.  The
activations of a run with the label are taken to those of a run without it: the label itself and the
token after it stand at one position then.  Every instruction but the label leads to corresponding
activations in both runs, and the label leaves the corresponding activations as they are.
-/

namespace StackMachine

/-! ## Corresponding activations -/

/-- The function without the label, in the place of the one with it. -/
def Insertion.without (insertion : Insertion) (function : Function) : Function :=
  if function = insertion.longer then insertion.shorter else function

namespace Frame

variable (insertion : Insertion)

/-- An activation as it is without the label. -/
def without (frame : Frame) : Frame :=
  if frame.function = insertion.longer then
    { frame with function := insertion.shorter, position := insertion.position frame.position }
  else frame

/-- The label is due. -/
def AtLabel (frame : Frame) : Prop :=
  frame.function = insertion.longer ∧ frame.position = insertion.place

instance : DecidablePred (AtLabel insertion) :=
  fun _ => inferInstanceAs (Decidable (_ ∧ _))

/-- An activation that has the name of the changed function is one of it. -/
def Known (frame : Frame) : Prop :=
  frame.function.name = insertion.header.name → frame.function = insertion.longer

variable {insertion} {frame : Frame} {token : Token}

theorem without_of_eq (inside : frame.function = insertion.longer) :
    frame.without insertion =
      ⟨insertion.shorter, insertion.position frame.position, frame.depth⟩ :=
  if_pos inside

theorem without_of_ne (outside : frame.function ≠ insertion.longer) :
    frame.without insertion = frame :=
  if_neg outside

theorem moved_of_eq (inside : frame.function = insertion.longer) (position : Int) :
    without insertion { frame with position } =
      ⟨insertion.shorter, insertion.position position, frame.depth⟩ :=
  if_pos inside

theorem moved_of_ne (outside : frame.function ≠ insertion.longer) (position : Int) :
    without insertion { frame with position } = { frame with position } :=
  if_neg outside

@[simp]
theorem depth_without : (frame.without insertion).depth = frame.depth := by
  unfold without
  split <;> rfl

theorem without_start (callee : Function) (depth : Nat) :
    without insertion ⟨callee, 0, depth⟩ = ⟨insertion.without callee, 0, depth⟩ := by
  have start : insertion.position 0 = 0 :=
    insertion.position_of_le (Int.natCast_nonneg insertion.place)
  by_cases inside : callee = insertion.longer
  · rw [without_of_eq inside, start, Insertion.without, if_pos inside]
  · rw [without_of_ne inside, Insertion.without, if_neg inside]

theorem AtLabel.fetch (atLabel : frame.AtLabel insertion) :
    frame.fetch = .instruction insertion.label := by
  rw [fetch_eq_instruction_iff, atLabel.1, atLabel.2]
  exact ⟨Int.natCast_nonneg _, insertion.getElem?_place⟩

/-- Away from the label both activations are about to do the same. -/
theorem fetch_without (away : ¬ frame.AtLabel insertion) :
    (frame.without insertion).fetch = frame.fetch := by
  by_cases inside : frame.function = insertion.longer
  · have ne : frame.position ≠ insertion.place := fun same => away ⟨inside, same⟩
    rw [without_of_eq inside]
    unfold Frame.fetch
    dsimp only
    by_cases negative : frame.position < 0
    · rw [insertion.position_of_le (by omega)]
      rw [if_pos negative, if_pos negative]
    · obtain ⟨index, isIndex⟩ := Int.eq_ofNat_of_zero_le (Int.not_lt.mp negative)
      have notNegative : ¬ insertion.position frame.position < 0 := by
        unfold Insertion.position
        split <;> omega
      rw [if_neg negative, if_neg notNegative, inside, isIndex, Int.toNat_natCast,
        insertion.getElem?_shorter fun same => ne (by rw [isIndex, same])]
  · rw [without_of_ne inside]

/-- The position after an instruction other than the label. -/
theorem succ_without (away : ¬ frame.AtLabel insertion) :
    without insertion { frame with position := frame.position + 1 } =
      { frame.without insertion with position := (frame.without insertion).position + 1 } := by
  by_cases inside : frame.function = insertion.longer
  · have ne : frame.position ≠ insertion.place := fun same => away ⟨inside, same⟩
    have next : insertion.position (frame.position + 1) =
        insertion.position frame.position + 1 := by
      unfold Insertion.position
      split <;> split <;> omega
    rw [moved_of_eq inside, without_of_eq inside, next]
  · rw [moved_of_ne inside, without_of_ne inside]

/-- After the label the corresponding activation is the same as at the label. -/
theorem AtLabel.succ_without (atLabel : frame.AtLabel insertion) :
    without insertion { frame with position := frame.position + 1 } = frame.without insertion := by
  have next : insertion.position (frame.position + 1) = insertion.position frame.position := by
    rw [atLabel.2, insertion.position_of_le le_rfl, insertion.position_of_lt (by omega)]
    omega
  rw [moved_of_eq atLabel.1, without_of_eq atLabel.1, next]

/-- Where the places of an activation's body are without the label. -/
def codeIndex (insertion : Insertion) (frame : Frame) : CodeIndex → CodeIndex :=
  if frame.function = insertion.longer then insertion.codeIndex else id

theorem jump_without (index : CodeIndex) :
    without insertion { frame with position := index.toInt } =
      { frame.without insertion with position := (frame.codeIndex insertion index).toInt } := by
  by_cases inside : frame.function = insertion.longer
  · rw [moved_of_eq inside, without_of_eq inside, codeIndex, if_pos inside]
    rfl
  · rw [moved_of_ne inside, without_of_ne inside, codeIndex, if_neg inside]
    rfl

/-- A jump finds corresponding places, since no token of the body refers to the label. -/
theorem target?_without (fetched : frame.fetch = .instruction token)
    (away : ¬ frame.AtLabel insertion)
    (jumps : token.opcode = .goto ∨ token.opcode = .branch) :
    (frame.without insertion).function.body.target? token.index =
      (frame.function.body.target? token.index).map (frame.codeIndex insertion) := by
  by_cases inside : frame.function = insertion.longer
  · have mem : token ∈ insertion.front ++ insertion.back := by
      rw [← fetch_without away, fetch_eq_instruction_iff, without_of_eq inside,
        insertion.code_shorter, List.getElem?_toArray] at fetched
      exact List.mem_of_getElem? fetched.2
    have other : token.index ≠ insertion.id := fun same =>
      insertion.unused token mem ⟨.inr jumps, same⟩
    rw [without_of_eq inside, inside, codeIndex, if_pos inside]
    exact insertion.target?_shorter other
  · rw [without_of_ne inside, codeIndex, if_neg inside, Option.map_id_fun, id]

end Frame

/-- The activations after an instruction correspond if those before it do. -/
theorem Control.frames_without {insertion : Insertion} {frame : Frame}
    (away : ¬ frame.AtLabel insertion) (rest : List Frame) (control : Control) :
    (control.map insertion.without (frame.codeIndex insertion)).frames
        (frame.without insertion) (rest.map (Frame.without insertion)) =
      (control.frames frame rest).map (Frame.without insertion) := by
  cases control with
  | next =>
      simp only [Control.map, Control.frames, List.map_cons, Frame.succ_without away]
  | jump index =>
      simp only [Control.map, Control.frames, List.map_cons, Frame.jump_without]
  | enter callee =>
      simp only [Control.map, Control.frames, List.map_cons, Frame.succ_without away,
        Frame.without_start, Frame.depth_without]

/-! ## Errors -/

namespace Insertion

variable (insertion : Insertion)

/-- Where an error is with the label. -/
def shifted (error : RunError) : RunError :=
  if error.function = insertion.header.name ∧ insertion.place ≤ error.position then
    { error with position := error.position + 1 }
  else error

/-- How a run stops with the label. -/
def shiftedHalt : Halt → Halt
  | .failed error => .failed (insertion.shifted error)
  | .finished => .finished
  | .crashed crash => .crashed crash

end Insertion

theorem Frame.error_without {insertion : Insertion} {frame : Frame} {token : Token}
    (known : frame.Known insertion) (away : ¬ frame.AtLabel insertion)
    (fetched : frame.fetch = .instruction token) (cause : Cause) :
    frame.error token cause = insertion.shifted ((frame.without insertion).error token cause) := by
  obtain ⟨nonneg, -⟩ := (frame.fetch_eq_instruction_iff token).mp fetched
  unfold Insertion.shifted
  by_cases inside : frame.function = insertion.longer
  · have ne : frame.position ≠ insertion.place := fun same => away ⟨inside, same⟩
    rw [without_of_eq inside]
    rcases Int.lt_or_gt_of_ne ne with before | after
    · have notShifted : ¬ insertion.place ≤ frame.position.toNat := by omega
      rw [insertion.position_of_le before.le, if_neg fun shifted => notShifted shifted.2]
      simp only [error, inside, insertion.name_longer, insertion.name_shorter]
    · have isShifted : insertion.place ≤ (frame.position - 1).toNat := by omega
      have position : (frame.position - 1).toNat + 1 = frame.position.toNat := by omega
      rw [insertion.position_of_lt after, if_pos ⟨rfl, isShifted⟩]
      simp only [error, inside, insertion.name_longer, insertion.name_shorter, position]
  · have otherName : frame.function.name ≠ insertion.header.name := fun same =>
      inside (known same)
    rw [without_of_ne inside, if_neg fun shifted => otherName shifted.1]

/-! ## Runs -/

/-- Two settings that differ in one function, which has the label in the longer program. -/
structure Insertion.Between (insertion : Insertion) (short long : Setup) : Prop where
  corresponds : Setup.Corresponds insertion.without long short
  known : ∀ name callee, long.program.lookup? name = some callee →
    callee.name = insertion.header.name → callee = insertion.longer

namespace RunState

variable {insertion : Insertion} {short long : RunSetup}

/-- An instruction other than the label does the same in both programs. -/
theorem execute_without (between : insertion.Between short.toSetup long.toSetup)
    {frame : Frame} {token : Token}
    (fetched : frame.fetch = .instruction token) (away : ¬ frame.AtLabel insertion)
    (world : World) :
    short.execute (frame.without insertion).function.body (frame.without insertion).depth token
        world =
      ((long.execute frame.function.body frame.depth token world).1,
        (long.execute frame.function.body frame.depth token world).2.map
          (Control.map insertion.without (frame.codeIndex insertion))) := by
  rw [Frame.depth_without]
  exact Setup.execute_map between.corresponds (Frame.target?_without fetched away) frame.depth world

theorem execute_label (setup : RunSetup) (body : Body) (depth : Nat) (world : World) :
    setup.execute body depth insertion.label world = (world, .ok .next) :=
  rfl

/-- Control stays among known functions. -/
theorem known_frames (between : insertion.Between short.toSetup long.toSetup)
    {frame : Frame} {rest : List Frame} {token : Token} {world after : World} {control : Control}
    (executed : long.execute frame.function.body frame.depth token world = (after, .ok control))
    (known : ∀ other ∈ frame :: rest, other.Known insertion) :
    ∀ other ∈ control.frames frame rest, other.Known insertion := by
  obtain ⟨top, below⟩ := List.forall_mem_cons.mp known
  rcases Setup.execute_control executed with rfl | ⟨position, rfl, -⟩ | ⟨callee, rfl, found⟩
  · exact List.forall_mem_cons.mpr ⟨top, below⟩
  · exact List.forall_mem_cons.mpr ⟨top, below⟩
  · exact List.forall_mem_cons.mpr ⟨between.known _ callee found,
      List.forall_mem_cons.mpr ⟨top, below⟩⟩

/-- The number of activations in which the label is due. -/
def pending (insertion : Insertion) (frames : List Frame) : Nat :=
  frames.countP (Frame.AtLabel insertion ·)

theorem pending_cons_of_away {frame : Frame} (away : ¬ frame.AtLabel insertion)
    (rest : List Frame) : pending insertion (frame :: rest) = pending insertion rest := by
  simp [pending, away]

theorem pending_cons_of_atLabel {frame : Frame} (atLabel : frame.AtLabel insertion)
    (rest : List Frame) : pending insertion (frame :: rest) = pending insertion rest + 1 := by
  simp [pending, atLabel]

theorem pending_cons_le (frame : Frame) (rest : List Frame) :
    pending insertion (frame :: rest) ≤ pending insertion rest + 1 := by
  by_cases atLabel : frame.AtLabel insertion
  · exact (pending_cons_of_atLabel atLabel rest).le
  · rw [pending_cons_of_away atLabel]
    exact Nat.le_succ _

/-- An instruction brings control to the label at most once. -/
theorem pending_frames_le {frame : Frame} {token : Token}
    (fetched : frame.fetch = .instruction token) (rest : List Frame) (control : Control) :
    pending insertion (control.frames frame rest) ≤ pending insertion rest + 1 := by
  cases control with
  | next => exact pending_cons_le _ rest
  | jump index => exact pending_cons_le _ rest
  | enter callee =>
      obtain ⟨nonneg, -⟩ := (frame.fetch_eq_instruction_iff token).mp fetched
      rw [Control.frames]
      by_cases atLabel : Frame.AtLabel insertion ⟨callee, 0, frame.depth + 1⟩
      · -- The label is the first token, so the caller is behind it.
        have away : ¬ Frame.AtLabel insertion { frame with position := frame.position + 1 } := by
          intro callerAtLabel
          have first : (0 : Int) = insertion.place := atLabel.2
          have later : frame.position + 1 = insertion.place := callerAtLabel.2
          omega
        rw [pending_cons_of_atLabel atLabel, pending_cons_of_away away]
      · rw [pending_cons_of_away atLabel]
        exact pending_cons_le _ rest

/-- Two runs, with and without the label, end alike if the run without it ends and the other has
fuel for the labels too, or if the run with the label ends and the other has as much fuel. -/
theorem run_without (between : insertion.Between short.toSetup long.toSetup)
    (silent : short.tracer = none) (longSilent : long.tracer = none) (trace : Trace)
    (more : Nat) (frames : List Frame)
    (world : World) (known : ∀ frame ∈ frames, frame.Known insertion) (fuel : Nat)
    (ends : (2 * fuel + pending insertion frames ≤ more ∧
        (run short fuel ⟨frames.map (Frame.without insertion), world, trace⟩).halt.isInterrupted =
          false) ∨
      more ≤ fuel ∧ (run long more ⟨frames, world, trace⟩).halt.isInterrupted = false) :
    (run long more ⟨frames, world, trace⟩).state.world =
        (run short fuel ⟨frames.map (Frame.without insertion), world, trace⟩).state.world ∧
      (run long more ⟨frames, world, trace⟩).halt =
        insertion.shiftedHalt
          (run short fuel ⟨frames.map (Frame.without insertion), world, trace⟩).halt := by
  induction more, frames, world using RunState.run_induction long generalizing fuel with
  | nil more world =>
      rw [List.map_nil, run_nil, run_nil]
      exact ⟨rfl, rfl⟩
  | bodyEnd more frame rest world fetched ih =>
      have away : ¬ frame.AtLabel insertion := by
        intro atLabel
        rw [atLabel.fetch] at fetched
        cases fetched
      have shortFetched := (Frame.fetch_without away).trans fetched
      rw [List.map_cons, run_of_bodyEnd silent shortFetched, run_of_bodyEnd longSilent fetched,
        pending_cons_of_away away] at ends
      rw [List.map_cons, run_of_bodyEnd silent shortFetched, run_of_bodyEnd longSilent fetched]
      exact ih (List.forall_mem_cons.mp known).2 fuel ends
  | crash more frame rest world crash fetched =>
      have away : ¬ frame.AtLabel insertion := by
        intro atLabel
        rw [atLabel.fetch] at fetched
        cases fetched
      rw [List.map_cons, run_of_crash fetched,
        run_of_crash ((Frame.fetch_without away).trans fetched)]
      exact ⟨rfl, rfl⟩
  | spent frame rest world token fetched =>
      exfalso
      rcases ends with ⟨enough, ended⟩ | ⟨-, ended⟩
      · -- No fuel at all: the run without the label is stopped at the same instruction.
        have away : ¬ frame.AtLabel insertion := by
          intro atLabel
          rw [pending_cons_of_atLabel atLabel] at enough
          omega
        obtain rfl : fuel = 0 := by omega
        rw [List.map_cons,
          run_zero_of_instruction silent ((Frame.fetch_without away).trans fetched)] at ended
        cases ended
      · rw [run_zero_of_instruction longSilent fetched] at ended
        cases ended
  | failed more frame rest world token after cause fetched executed =>
      have away : ¬ frame.AtLabel insertion := by
        intro atLabel
        rw [atLabel.fetch] at fetched
        cases fetched
        rw [execute_label] at executed
        cases executed
      have shortFetched := (Frame.fetch_without away).trans fetched
      have shortExecuted := execute_without between fetched away world
      rw [executed] at shortExecuted
      rw [List.map_cons] at ends ⊢
      cases fuel with
      | zero =>
          exfalso
          rcases ends with ⟨-, ended⟩ | ⟨enough, -⟩
          · rw [run_zero_of_instruction silent shortFetched] at ended
            cases ended
          · omega
      | succ fuel =>
          rw [run_succ_of_error longSilent fetched executed,
            run_succ_of_error silent shortFetched shortExecuted]
          refine ⟨rfl, congrArg Halt.failed ?_⟩
          exact Frame.error_without (known frame List.mem_cons_self) away fetched cause
  | executed more frame rest world token after control fetched executed ih =>
      have stillKnown := known_frames between executed known
      rw [run_succ_of_ok longSilent fetched executed] at ends ⊢
      by_cases atLabel : frame.AtLabel insertion
      · -- The label: only the run that has it goes on.
        rw [atLabel.fetch] at fetched
        cases fetched
        rw [execute_label] at executed
        cases executed
        have same : (Control.next.frames frame rest).map (Frame.without insertion) =
            (frame :: rest).map (Frame.without insertion) := by
          simp only [Control.frames, List.map_cons, atLabel.succ_without]
        have fewer : pending insertion (Control.next.frames frame rest) + 1 =
            pending insertion (frame :: rest) := by
          have behind :
              ¬ Frame.AtLabel insertion { frame with position := frame.position + 1 } := by
            intro stillAtLabel
            have here : frame.position = insertion.place := atLabel.2
            have next : frame.position + 1 = insertion.place := stillAtLabel.2
            omega
          rw [Control.frames, pending_cons_of_away behind, pending_cons_of_atLabel atLabel]
        rw [← same] at ends ⊢
        apply ih stillKnown
        rcases ends with ⟨enough, ended⟩ | ⟨enough, ended⟩
        · exact .inl ⟨by omega, ended⟩
        · exact .inr ⟨by omega, ended⟩
      · -- Any other instruction: both runs go on.
        have shortFetched := (Frame.fetch_without atLabel).trans fetched
        have shortExecuted := execute_without between fetched atLabel world
        rw [executed] at shortExecuted
        have few : pending insertion (control.frames frame rest) ≤ pending insertion rest + 1 :=
          pending_frames_le fetched rest control
        rw [List.map_cons] at ends ⊢
        rw [pending_cons_of_away atLabel] at ends
        cases fuel with
        | zero =>
            exfalso
            rcases ends with ⟨-, ended⟩ | ⟨enough, -⟩
            · rw [run_zero_of_instruction silent shortFetched] at ended
              cases ended
            · omega
        | succ fuel =>
            rw [run_succ_of_ok silent shortFetched shortExecuted,
              Control.frames_without atLabel] at ends ⊢
            apply ih stillKnown
            rcases ends with ⟨enough, ended⟩ | ⟨enough, ended⟩
            · exact .inl ⟨by omega, ended⟩
            · exact .inr ⟨by omega, ended⟩

end RunState

/-! ## Programs -/

section

variable {insertion : Insertion} {program longer : Program} {earlier later : List Function}
  (functions : program.functions = earlier ++ insertion.shorter :: later)
  (longerFunctions : longer.functions = earlier ++ insertion.longer :: later)
include functions longerFunctions

/-- Other names find the same functions in both programs. -/
theorem Insertion.lookup?_of_ne {name : String} (other : insertion.header.name ≠ name) :
    program.lookup? name = longer.lookup? name := by
  rw [Program.lookup?, Program.lookup?, functions, longerFunctions, List.find?_append,
    List.find?_append, List.find?_cons_of_neg (by simpa using other),
    List.find?_cons_of_neg (by simpa using other)]

/-- If an earlier function has the same name, the change is never found. -/
theorem Insertion.lookup?_of_shadowed
    (shadowed : ∃ other ∈ earlier, other.name = insertion.header.name) (name : String) :
    program.lookup? name = longer.lookup? name := by
  by_cases same : insertion.header.name = name
  · obtain ⟨other, mem, rfl⟩ : ∃ other ∈ earlier, other.name = name := same ▸ shadowed
    have isSome : (earlier.find? (·.name == other.name)).isSome := by
      rw [List.find?_isSome]
      exact ⟨other, mem, beq_self_eq_true other.name⟩
    obtain ⟨found, isFound⟩ := Option.isSome_iff_exists.mp isSome
    rw [Program.lookup?, Program.lookup?, functions, longerFunctions, List.find?_append,
      List.find?_append, isFound]
    rfl
  · exact Insertion.lookup?_of_ne functions longerFunctions same

/-- If no earlier function has the same name, the name finds the changed function. -/
theorem Insertion.between_of_first
    (first : ∀ other ∈ earlier, other.name ≠ insertion.header.name) (setup : RunSetup) :
    insertion.Between (setup.withProgram program).toSetup (setup.withProgram longer).toSetup := by
  have notEarlier : earlier.find? (·.name == insertion.header.name) = none :=
    List.find?_eq_none.mpr fun other mem => by simpa using first other mem
  have found : program.lookup? insertion.header.name = some insertion.shorter := by
    rw [Program.lookup?, functions, List.find?_append, notEarlier]
    simp
  have longerFound : longer.lookup? insertion.header.name = some insertion.longer := by
    rw [Program.lookup?, longerFunctions, List.find?_append, notEarlier]
    simp
  have name_of_lookup? : ∀ name callee, longer.lookup? name = some callee →
      callee.name = name := by
    intro name callee isCallee
    simpa using List.find?_some isCallee
  constructor
  · constructor
    · rfl
    · rfl
    · intro name _
      change program.lookup? name = (longer.lookup? name).map insertion.without
      by_cases same : insertion.header.name = name
      · subst same
        rw [found, longerFound, Option.map_some, Insertion.without, if_pos rfl]
      · rw [Insertion.lookup?_of_ne functions longerFunctions same]
        cases isCallee : longer.lookup? name with
        | none => rfl
        | some callee =>
            have outside : callee ≠ insertion.longer := by
              rintro rfl
              exact same (name_of_lookup? name _ isCallee)
            rw [Option.map_some, Insertion.without, if_neg outside]
  · intro name callee isCallee sameName
    have isName := name_of_lookup? name callee isCallee
    rw [← isName, sameName] at isCallee
    exact Option.some.inj (isCallee.symm.trans longerFound)

end

/-! ## Machines -/

/-- The run was stopped by its surroundings. -/
def RunReport.isInterrupted (report : RunReport) : Bool :=
  match report.failure with
  | some (.halted ⟨_, _, _, .interrupted _⟩) => true
  | _ => false

/-- How a run fails if a label stands at a place in the function of a number: an error in that
function, at the place or behind it, is one further on. -/
def Program.shifted (program : Program) (number place : Nat) : RunFailure → RunFailure
  | .halted error =>
      .halted
        (if program.position? error.function = some number ∧ place ≤ error.position then
          { error with position := error.position + 1 }
        else error)
  | .crashed crash => .crashed crash
  | .undelivered fault => .undelivered fault

/-- Two runs that leave the same memory, input and output and fail alike, up to positions behind a
place in a function of the first program. -/
structure EndsAlike (program : Program) (number place : Nat) (short long : RunReport × Machine) :
    Prop where
  memory : long.2.memory = short.2.memory
  input : long.2.input = short.2.input
  output : long.2.output = short.2.output
  failure : long.1.failure = short.1.failure.map (program.shifted number place)

namespace Machine

theorem isInterrupted_run (machine : Machine) (fuel : Nat) :
    (machine.run fuel).1.isInterrupted = (machine.execution fuel).halt.isInterrupted := by
  have failure : (machine.run fuel).1.failure = failureOf (machine.execution fuel).halt
      (machine.execution fuel).state.world.output.flush.1 := rfl
  rw [RunReport.isInterrupted, failure]
  rcases (machine.execution fuel).halt with _ | ⟨function, position, token, cause⟩ | crash
  · cases (machine.execution fuel).state.world.output.flush.1 <;> rfl
  · cases cause <;> rfl
  · rfl

/-- Executions that end in the same world end alike. -/
theorem endsAlike_of_execution {program : Program} {number place : Nat} {short long : Machine}
    {fuel more : Nat}
    (world : (long.execution more).state.world = (short.execution fuel).state.world)
    (halt : ∀ fault, failureOf (long.execution more).halt fault =
      (failureOf (short.execution fuel).halt fault).map (program.shifted number place)) :
    EndsAlike program number place (short.run fuel) (long.run more) := by
  constructor
  · exact congrArg World.memory world
  · exact congrArg World.input world
  · exact congrArg (·.output.flush.2) world
  · change failureOf _ (long.execution more).state.world.output.flush.1 = _
    rw [world]
    exact halt _

/-- The two machines start with corresponding activations. -/
theorem firstFrames_without {insertion : Insertion} {short long : Machine}
    (between : insertion.Between short.setup.toSetup long.setup.toSetup) :
    long.firstFrames.map (Frame.without insertion) = short.firstFrames ∧
      (∀ frame ∈ long.firstFrames, frame.Known insertion) ∧
      RunState.pending insertion long.firstFrames ≤ 1 := by
  rw [firstFrames, firstFrames, between.corresponds.lookup? "main" rfl]
  cases found : long.setup.program.lookup? "main" with
  | none => exact ⟨rfl, List.forall_mem_nil _, Nat.zero_le 1⟩
  | some main =>
      simp only [Option.map_some, Option.toList_some, List.map_cons, List.map_nil,
        Frame.without_start, true_and]
      refine ⟨?_, RunState.pending_cons_le _ []⟩
      rw [List.forall_mem_singleton]
      exact between.known "main" main found

/-- Executions with and without the label end alike, if one of them ends and the other has fuel
enough. -/
theorem execution_without {insertion : Insertion} {machine : Machine} {program longer : Program}
    (accepts : machine.setup.LogAccepts)
    (between : insertion.Between (machine.setup.withProgram program).toSetup
      (machine.setup.withProgram longer).toSetup) {fuel more : Nat}
    (ends : (2 * fuel + 1 ≤ more ∧
        ((machine.withProgram program).execution fuel).halt.isInterrupted = false) ∨
      more ≤ fuel ∧ ((machine.withProgram longer).execution more).halt.isInterrupted = false) :
    ((machine.withProgram longer).execution more).state.world =
        ((machine.withProgram program).execution fuel).state.world ∧
      ((machine.withProgram longer).execution more).halt =
        insertion.shiftedHalt ((machine.withProgram program).execution fuel).halt := by
  have shortAccepts : (machine.withProgram program).setup.LogAccepts := accepts
  have longAccepts : (machine.withProgram longer).setup.LogAccepts := accepts
  have shortOutcome := outcome_execution shortAccepts fuel
  have longOutcome := outcome_execution longAccepts more
  have machinesBetween : insertion.Between (machine.withProgram program).setup.toSetup
    (machine.withProgram longer).setup.toSetup := between
  obtain ⟨frames, known, few⟩ := firstFrames_without machinesBetween
  rw [← frames] at shortOutcome
  have shortWorld := congrArg RunState.Outcome.world shortOutcome
  have shortHalt := congrArg RunState.Outcome.halt shortOutcome
  have longWorld := congrArg RunState.Outcome.world longOutcome
  have longHalt := congrArg RunState.Outcome.halt longOutcome
  dsimp only [RunState.Ending.outcome] at shortWorld shortHalt longWorld longHalt
  rw [shortHalt, longHalt] at ends
  rw [shortWorld, shortHalt, longWorld, longHalt]
  have untraced : insertion.Between (machine.withProgram program).setup.untraced.toSetup
    (machine.withProgram longer).setup.untraced.toSetup := between
  refine RunState.run_without untraced rfl rfl {} more _ _ known fuel ?_
  rcases ends with ⟨enough, ended⟩ | atMost
  · exact .inl ⟨by omega, ended⟩
  · exact .inr atMost

/-- A label in one function of a program changes nothing but the positions behind it. -/
theorem endsAlike_of_functions {insertion : Insertion} {program longer : Program}
    {earlier later : List Function}
    (functions : program.functions = earlier ++ insertion.shorter :: later)
    (longerFunctions : longer.functions = earlier ++ insertion.longer :: later)
    {machine : Machine} (accepts : machine.setup.LogAccepts) {fuel more : Nat}
    (ends : (2 * fuel + 1 ≤ more ∧
        ((machine.withProgram program).run fuel).1.isInterrupted = false) ∨
      more ≤ fuel ∧ ((machine.withProgram longer).run more).1.isInterrupted = false) :
    EndsAlike program earlier.length insertion.place ((machine.withProgram program).run fuel)
      ((machine.withProgram longer).run more) := by
  have place : ∀ name, program.position? name = some earlier.length ↔
      insertion.header.name = name ∧ ∀ other ∈ earlier, other.name ≠ name :=
    fun name => Program.position?_eq_some_iff functions
  rw [isInterrupted_run, isInterrupted_run] at ends
  by_cases first : ∀ other ∈ earlier, other.name ≠ insertion.header.name
  · have between := Insertion.between_of_first functions longerFunctions first machine.setup
    obtain ⟨world, halt⟩ := execution_without accepts between ends
    refine endsAlike_of_execution world fun fault => ?_
    rw [halt]
    cases ((machine.withProgram program).execution fuel).halt with
    | failed error =>
        have named : program.position? error.function = some earlier.length ↔
            error.function = insertion.header.name := by
          rw [place]
          constructor
          · exact fun isPlace => isPlace.1.symm
          · exact fun same => ⟨same.symm, same ▸ first⟩
        simp only [Insertion.shiftedHalt, failureOf, Option.map_some, Program.shifted, named]
        rfl
    | crashed crash => rfl
    | finished => cases fault <;> rfl
  · -- The change is never found, so the two programs only differ in their fuel.
    push Not at first
    have agrees :
        (machine.withProgram longer).setup.Agrees (machine.withProgram program).setup := by
      refine ⟨⟨rfl, rfl, fun name _ => ?_⟩, rfl, rfl⟩
      rw [Option.map_id_fun, id]
      exact Insertion.lookup?_of_shadowed functions longerFunctions first name
    have elsewhere : ∀ name, program.position? name ≠ some earlier.length := by
      intro name isPlace
      obtain ⟨rfl, isFirst⟩ := (place name).mp isPlace
      obtain ⟨other, mem, same⟩ := first
      exact isFirst other mem same
    have unshifted : ∀ failure : Option RunFailure,
        failure.map (program.shifted earlier.length insertion.place) = failure := by
      rintro (_ | error | crash | fault)
      · rfl
      · simp only [Option.map_some, Program.shifted, elsewhere, false_and, if_false]
      · rfl
      · rfl
    have same := execution_congr agrees rfl
    have ended : ((machine.withProgram longer).execution more).state =
          ((machine.withProgram program).execution fuel).state ∧
        ((machine.withProgram longer).execution more).halt =
          ((machine.withProgram program).execution fuel).halt := by
      rw [same fuel] at ends ⊢
      rcases ends with ⟨enough, ended⟩ | ⟨enough, ended⟩
      · exact execution_of_le (by omega) ended
      · obtain ⟨state, halt⟩ := execution_of_le enough ended
        exact ⟨state.symm, halt.symm⟩
    refine endsAlike_of_execution (congrArg RunState.world ended.1) fun fault => ?_
    rw [unshifted, ended.2]

/-- Labels do nothing.  In a stream that is assembled, a label can be put anywhere into the body of
a function, if nothing in that body refers to its id: the stream is assembled again, and every run
of the new program that is not stopped by its surroundings, on whatever machine, ends like one of
the old program, and the other way round.  The runs leave the same memory, input and output and
fail at the same instruction, which is one further on if it stands in that function at the place of
the label or behind it.  As to fuel, the old program needs no more than the new one, and the new one
at most twice as much and one more. -/
theorem run_insert_label {name : String} {before front back after : List Instruction}
    {header ending : Instruction} {program : Program} (id : Int64) (row : Nat)
    (isHeader : header.token.opcode = .defun) (isEnding : ending.token.opcode = .endef)
    (inBody : ∀ found ∈ front ++ back, Assembly.InBody found.token)
    (unused : ∀ found ∈ front ++ back, ¬ found.token.RefersTo id)
    (assembled : (TokenStream.mk (before ++ header :: (front ++ back ++ ending :: after))
      none).assemble name = .ok program) :
    ∃ longer : Program,
      (TokenStream.mk (before ++ header ::
          (front ++ ⟨{ opcode := .label, index := id }, row⟩ :: back ++ ending :: after))
        none).assemble name = .ok longer ∧
      ∀ machine : Machine, machine.setup.LogAccepts →
        (∀ fuel more, ((machine.withProgram program).run fuel).1.isInterrupted = false →
          2 * fuel + 1 ≤ more →
          EndsAlike program (Assembly.headers before) front.length
            ((machine.withProgram program).run fuel) ((machine.withProgram longer).run more)) ∧
        (∀ fuel more, ((machine.withProgram longer).run more).1.isInterrupted = false →
          more ≤ fuel →
          EndsAlike program (Assembly.headers before) front.length
            ((machine.withProgram program).run fuel) ((machine.withProgram longer).run more)) := by
  let label : Instruction := ⟨{ opcode := .label, index := id }, row⟩
  let insertion : Insertion :=
    { header := header.token
      front := front.map (·.token)
      back := back.map (·.token)
      id
      unused := by
        rw [← List.map_append]
        exact List.forall_mem_map.mpr unused }
  have longerInBody : ∀ found ∈ front ++ label :: back, Assembly.InBody found.token := by
    obtain ⟨frontInBody, backInBody⟩ := List.forall_mem_append.mp inBody
    exact List.forall_mem_append.mpr ⟨frontInBody,
      List.forall_mem_cons.mpr ⟨⟨nofun, rfl⟩, backInBody⟩⟩
  obtain ⟨earlier, later, number, functions, others⟩ :=
    TokenStream.assemble_of_body isHeader isEnding inBody assembled
  obtain ⟨longer, longerAssembled, longerFunctions⟩ := others _ longerInBody
  refine ⟨longer, longerAssembled, fun machine accepts => ?_⟩
  have isShorter : program.functions = earlier ++ insertion.shorter :: later := by
    rw [functions, List.map_append]
    rfl
  have isLonger : longer.functions = earlier ++ insertion.longer :: later := by
    rw [longerFunctions, List.map_append]
    rfl
  have place : insertion.place = front.length := List.length_map _
  rw [← number, ← place]
  constructor
  · intro fuel more ended enough
    exact endsAlike_of_functions isShorter isLonger accepts (.inl ⟨enough, ended⟩)
  · intro fuel more ended enough
    exact endsAlike_of_functions isShorter isLonger accepts (.inr ⟨enough, ended⟩)

/-- The section marks and the header of a source. -/
def loopBefore : List Instruction :=
  [⟨{ opcode := .rawMark }, 0⟩, ⟨{ opcode := .classMark }, 0⟩, ⟨{ opcode := .functionMark }, 0⟩]

/-- The first part of a body that counts down from three. -/
def loopFront : List Instruction :=
  [⟨{ opcode := .pushi, int := 3 }, 1⟩, ⟨{ opcode := .label, index := 1 }, 2⟩,
    ⟨{ opcode := .pushi, int := -1 }, 3⟩, ⟨{ opcode := .binary .add }, 4⟩, ⟨{ opcode := .dup }, 5⟩]

/-- The rest of the body, which takes a value too many from the stack. -/
def loopBack : List Instruction :=
  [⟨{ opcode := .branch, index := 1 }, 6⟩, ⟨{ opcode := .pop }, 7⟩, ⟨{ opcode := .pop }, 8⟩]

/-- The program of that source. -/
def loopProgram : Program where
  functions? := some [Assembly.function { opcode := .defun, name := "main" }
    ((loopFront ++ loopBack).map (·.token))]

/-- With a label in the loop, the program fails at the same instruction, which is one further on. -/
theorem run_insert_label_loop :
    let machine : Machine := { setup := { program := {} } }
    ((machine.withProgram loopProgram).run 20).1.failure =
        some (.halted ⟨"main", 7, { opcode := .pop }, .stackUnderflow⟩) ∧
      ∃ longer : Program,
        (TokenStream.mk (loopBefore ++ ⟨{ opcode := .defun, name := "main" }, 1⟩ ::
            (loopFront ++ ⟨{ opcode := .label, index := 9 }, 6⟩ :: loopBack ++
              [⟨{ opcode := .endef }, 9⟩])) none).assemble "" = .ok longer ∧
          ((machine.withProgram longer).run 41).1.failure =
            some (.halted ⟨"main", 8, { opcode := .pop }, .stackUnderflow⟩) := by
  intro machine
  have failure : ((machine.withProgram loopProgram).run 20).1.failure =
      some (.halted ⟨"main", 7, { opcode := .pop }, .stackUnderflow⟩) := by decide +kernel
  have assembled : (TokenStream.mk (loopBefore ++ ⟨{ opcode := .defun, name := "main" }, 1⟩ ::
      (loopFront ++ loopBack ++ [⟨{ opcode := .endef }, 9⟩])) none).assemble "" =
        .ok loopProgram := by decide +kernel
  obtain ⟨longer, longerAssembled, alike⟩ :=
    run_insert_label 9 6 rfl rfl (by decide) (by decide) assembled
  have ended : ((machine.withProgram loopProgram).run 20).1.isInterrupted = false := by
    rw [RunReport.isInterrupted, failure]
  have ends := (alike machine nofun).1 20 41 ended (by decide)
  refine ⟨failure, longer, longerAssembled, ?_⟩
  rw [ends.failure, failure]
  decide +kernel

end Machine

end StackMachine
