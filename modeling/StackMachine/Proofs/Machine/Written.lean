import Mathlib
import StackMachine.Proofs.Machine.Step

/-!
# What has been written stays

An output is immediate if none of its writers holds bytes back, as is the case in memory.  Whatever
a program does, such an output only grows: every sink keeps the bytes that it has received, and
receives others after them.
-/

namespace StackMachine

/-! ## Sinks -/

/-- Every sink has received the same bytes, and perhaps others after them. -/
def Sinks.Precedes (sinks later : Sinks) : Prop :=
  ∀ (number : Nat) (sink : Sink), sinks[number]? = some sink →
    ∃ grown : Sink, later[number]? = some grown ∧ sink.received.toList <+: grown.received.toList

namespace Sinks

theorem Precedes.refl (sinks : Sinks) : sinks.Precedes sinks :=
  fun _ sink found => ⟨sink, found, List.prefix_rfl⟩

theorem Precedes.trans {first second third : Sinks} (before : first.Precedes second)
    (after : second.Precedes third) : first.Precedes third := by
  intro number sink found
  obtain ⟨grown, foundLater, grows⟩ := before number sink found
  obtain ⟨last, foundLast, growsOn⟩ := after number grown foundLater
  exact ⟨last, foundLast, grows.trans growsOn⟩

theorem precedes_modify (sinks : Sinks) (number : Nat) {change : Sink → Sink}
    (grows : ∀ sink, sink.received.toList <+: (change sink).received.toList) :
    Precedes sinks (sinks.modify number change) := by
  intro place sink found
  rw [Array.getElem?_modify]
  split
  · exact ⟨change sink, by simp [found], grows sink⟩
  · exact ⟨sink, found, List.prefix_rfl⟩

theorem precedes_write (sinks : Sinks) (number : Nat) (bytes : Bytes) :
    sinks.Precedes (sinks.write number bytes) := by
  refine precedes_modify sinks number fun sink => ?_
  unfold Sink.record
  split
  · exact List.prefix_rfl
  · simp

theorem precedes_flush (sinks : Sinks) (number : Nat) :
    sinks.Precedes (sinks.flush number).2 :=
  precedes_modify sinks number fun _ => List.prefix_rfl

theorem flush_precedes (sinks : Sinks) (number : Nat) :
    Precedes (sinks.flush number).2 sinks := by
  intro place sink found
  rw [flush, Array.getElem?_modify] at found
  split at found
  · obtain ⟨before, isBefore, rfl⟩ := Option.map_eq_some_iff.mp found
    exact ⟨before, isBefore, List.prefix_rfl⟩
  · exact ⟨sink, found, List.prefix_rfl⟩

end Sinks

/-! ## Writers and outputs -/

/-- A writer that holds no bytes back. -/
def Writer.isImmediate : Writer → Bool
  | .buffered _ => false
  | .discard | .direct _ | .flushing _ => true

/-- An output none of whose writers holds bytes back. -/
def Output.isImmediate (output : Output) : Bool := output.route.writers.all Writer.isImmediate

/-- An output that goes the same way and has delivered the same, and perhaps more. -/
structure Output.Precedes (output later : Output) : Prop where
  route : later.route = output.route
  sinks : output.sinks.Precedes later.sinks

namespace Output.Precedes

theorem refl (output : Output) : output.Precedes output := ⟨rfl, .refl output.sinks⟩

theorem trans {first second third : Output} (before : first.Precedes second)
    (after : second.Precedes third) : first.Precedes third :=
  ⟨after.route.trans before.route, before.sinks.trans after.sinks⟩

theorem isImmediate {output later : Output} (precedes : output.Precedes later)
    (immediate : output.isImmediate = true) : later.isImmediate = true := by
  rw [Output.isImmediate, precedes.route]
  exact immediate

end Output.Precedes

namespace Writer

theorem writeText_precedes {writer : Writer} (immediate : writer.isImmediate = true)
    (bytes : Bytes) (sinks : Sinks) :
    (writer.writeText bytes sinks).2.1 = writer ∧
      sinks.Precedes (writer.writeText bytes sinks).2.2 := by
  cases writer with
  | discard => exact ⟨rfl, .refl sinks⟩
  | direct sink => exact ⟨rfl, sinks.precedes_write sink bytes⟩
  | flushing sink => exact ⟨rfl, sinks.precedes_write sink bytes⟩
  | buffered buffer => cases immediate

theorem writeBytes_eq_writeText {writer : Writer} (immediate : writer.isImmediate = true)
    (bytes : Bytes) (sinks : Sinks) :
    writer.writeBytes bytes sinks = writer.writeText bytes sinks := by
  cases writer with
  | buffered buffer => cases immediate
  | discard | direct | flushing => rfl

/-- A flush delivers nothing, since nothing was held back. -/
theorem flush_of_isImmediate {writer : Writer} (immediate : writer.isImmediate = true)
    (sinks : Sinks) :
    (writer.flush sinks).2.1 = writer ∧ sinks.Precedes (writer.flush sinks).2.2 ∧
      Sinks.Precedes (writer.flush sinks).2.2 sinks := by
  cases writer with
  | discard => exact ⟨rfl, .refl sinks, .refl sinks⟩
  | direct sink => exact ⟨rfl, .refl sinks, .refl sinks⟩
  | flushing sink => exact ⟨rfl, sinks.precedes_flush sink, sinks.flush_precedes sink⟩
  | buffered buffer => cases immediate

end Writer

namespace Route

theorem writeAll_precedes {writers : List Writer}
    (immediate : ∀ writer ∈ writers, writer.isImmediate = true) (bytes : Bytes) (sinks : Sinks) :
    (writeAll bytes writers sinks).2.1 = writers ∧
      sinks.Precedes (writeAll bytes writers sinks).2.2 := by
  induction writers generalizing sinks with
  | nil => exact ⟨rfl, .refl sinks⟩
  | cons writer rest ih =>
      obtain ⟨first, others⟩ := List.forall_mem_cons.mp immediate
      obtain ⟨same, precedes⟩ := Writer.writeText_precedes first bytes sinks
      rw [writeAll, Writer.writeBytes_eq_writeText first]
      rcases wrote : writer.writeText bytes sinks with ⟨written, left, after⟩
      rw [wrote] at same precedes
      dsimp only at same precedes ⊢
      obtain ⟨sameRest, precedesRest⟩ := ih others after
      split
      · exact ⟨congrArg (· :: rest) same, precedes⟩
      · split
        · exact ⟨congrArg₂ List.cons same sameRest, precedes.trans precedesRest⟩
        · exact ⟨congrArg (· :: rest) same, precedes⟩

theorem flushAll_of_isImmediate {writers : List Writer}
    (immediate : ∀ writer ∈ writers, writer.isImmediate = true) (sinks : Sinks) :
    (flushAll writers sinks).2.1 = writers ∧ sinks.Precedes (flushAll writers sinks).2.2 ∧
      Sinks.Precedes (flushAll writers sinks).2.2 sinks := by
  induction writers generalizing sinks with
  | nil => exact ⟨rfl, .refl sinks, .refl sinks⟩
  | cons writer rest ih =>
      obtain ⟨first, others⟩ := List.forall_mem_cons.mp immediate
      obtain ⟨same, precedes, follows⟩ := Writer.flush_of_isImmediate first sinks
      obtain ⟨sameRest, precedesRest, followsRest⟩ := ih others (writer.flush sinks).2.2
      exact ⟨congrArg₂ List.cons same sameRest, precedes.trans precedesRest,
        followsRest.trans follows⟩

end Route

namespace Output

theorem write_precedes {output : Output} (immediate : output.isImmediate = true) (text : String) :
    output.Precedes (output.write text).2 := by
  obtain ⟨route, sinks⟩ := output
  cases route with
  | single writer =>
      have only : writer.isImmediate = true := by simpa [isImmediate, Route.writers] using immediate
      obtain ⟨same, precedes⟩ := Writer.writeText_precedes only (Utf8.encode text) sinks
      exact ⟨congrArg Route.single same, precedes⟩
  | tee writers =>
      obtain ⟨same, precedes⟩ :=
        Route.writeAll_precedes (List.all_eq_true.mp immediate) (Utf8.encode text) sinks
      exact ⟨congrArg Route.tee same, precedes⟩

/-- A flush delivers nothing, since nothing was held back. -/
theorem flush_of_isImmediate {output : Output} (immediate : output.isImmediate = true) :
    output.Precedes output.flush.2 ∧ output.flush.2.Precedes output := by
  obtain ⟨route, sinks⟩ := output
  cases route with
  | single writer =>
      have only : writer.isImmediate = true := by simpa [isImmediate, Route.writers] using immediate
      obtain ⟨same, precedes, follows⟩ := Writer.flush_of_isImmediate only sinks
      have route := congrArg Route.single same
      exact ⟨⟨route, precedes⟩, ⟨route.symm, follows⟩⟩
  | tee writers =>
      obtain ⟨same, precedes, follows⟩ :=
        Route.flushAll_of_isImmediate (List.all_eq_true.mp immediate) sinks
      have route := congrArg Route.tee same
      exact ⟨⟨route, precedes⟩, ⟨route.symm, follows⟩⟩

end Output

/-! ## Instructions -/

/-- An action after which an immediate output has only grown. -/
def KeepsWritten {α : Type} (w : World) (result : World × Except Cause α) : Prop :=
  w.output.isImmediate = true → w.output.Precedes result.1.output

theorem KeepsWritten.of_eq {α : Type} {w : World} {result : World × Except Cause α}
    (same : result.1.output = w.output) : KeepsWritten w result :=
  fun _ => same ▸ .refl w.output

theorem KeepsWritten.andThen {α β : Type} {w : World} {result : World × Except Cause α}
    {next : α → World → World × Except Cause β} (first : KeepsWritten w result)
    (second : ∀ a w, KeepsWritten w (next a w)) : KeepsWritten w (andThen result next) := by
  intro immediate
  have precedes := first immediate
  rcases result with ⟨after, cause | value⟩
  · exact precedes
  · exact precedes.trans (second value after (precedes.isImmediate immediate))

theorem World.emit_keepsWritten (w : World) (text : String) : KeepsWritten w (w.emit text) :=
  fun immediate => Output.write_precedes immediate text

theorem World.flush_keepsWritten (w : World) : KeepsWritten w w.flush :=
  fun immediate => (Output.flush_of_isImmediate immediate).1

namespace Primitive

theorem printing_keepsWritten (ending : List String) (w : World) :
    KeepsWritten w (printing ending w) := by
  unfold printing
  split
  · exact .of_eq rfl
  · next a rest stack =>
      dsimp only
      split
      · exact .of_eq rfl
      · next value followed =>
          suffices written : ∀ result, KeepsWritten w result →
              KeepsWritten w
                (ending.foldl (fun result text => andThen result fun _ w => w.emit text) result) by
            exact written _ (World.emit_keepsWritten (w.withStack rest) value.text)
          induction ending with
          | nil => exact fun result first => first
          | cons text texts ih =>
              intro result first
              exact ih _ (first.andThen fun _ w => World.emit_keepsWritten w text)

theorem reading_keepsWritten (w : World) : KeepsWritten w (reading w) := by
  refine (World.flush_keepsWritten w).andThen fun _ w => ?_
  dsimp only
  split
  · exact .of_eq rfl
  · exact .of_eq rfl
  · split <;> exact .of_eq rfl

theorem run_keepsWritten (primitive : Primitive) (w : World) :
    KeepsWritten w (primitive.run w) := by
  cases primitive with
  | print => exact (printing_keepsWritten [] w).andThen fun _ w => w.flush_keepsWritten
  | println => exact (printing_keepsWritten ["\n"] w).andThen fun _ w => w.flush_keepsWritten
  | readint => exact (reading_keepsWritten w).andThen fun _ w => w.flush_keepsWritten

end Primitive

namespace Setup

theorem call_keepsWritten (setup : Setup) (depth : Nat) (name : String) (w : World) :
    KeepsWritten w (setup.call depth name w) := by
  unfold call
  split
  · next primitive found => exact (primitive.run_keepsWritten w).andThen fun _ _ => .of_eq rfl
  · split
    · exact .of_eq rfl
    · split <;> exact .of_eq rfl

/-- No instruction takes back what has been written. -/
theorem execute_keepsWritten (setup : Setup) (body : Body) (depth : Nat) (token : Token)
    (w : World) : KeepsWritten w (setup.execute body depth token w) := by
  unfold execute
  split
  case h_12 => exact setup.call_keepsWritten depth token.name w
  all_goals
    repeat' split
    all_goals exact .of_eq rfl

end Setup

/-! ## Runs -/

namespace RunState

/-- The world of a run whose finished activations have been ended. -/
def Settled.world : Settled → World
  | .halted state _ => state.world
  | .ready _ _ _ world _ => world

/-- Ending activations leaves the world alone. -/
theorem settleFrom_world (setup : RunSetup) (world : World) (frames : List Frame) (trace : Trace) :
    (settleFrom setup world frames trace).world = world := by
  induction frames generalizing trace with
  | nil => rfl
  | cons frame rest ih =>
      rw [settleFrom]
      cases frame.fetch with
      | instruction token => rfl
      | crash crash => rfl
      | bodyEnd =>
          dsimp only
          split
          · rfl
          · exact ih _

theorem step_keepsWritten (setup : RunSetup) (frame : Frame) (rest : List Frame) (token : Token)
    {world : World} (trace : Trace) (immediate : world.output.isImmediate = true) :
    world.output.Precedes (step setup frame rest token world trace).1.world.output := by
  have kept := setup.execute_keepsWritten frame.function.body frame.depth token world immediate
  unfold step
  dsimp only
  split
  · exact .refl _
  · rcases executed : setup.execute frame.function.body frame.depth token world with
      ⟨after, cause | control⟩
    · rw [executed] at kept
      exact kept
    · rw [executed] at kept
      cases control <;> exact kept

/-- No run takes back what has been written. -/
theorem run_keepsWritten (setup : RunSetup) (fuel : Nat) {s : RunState}
    (immediate : s.world.output.isImmediate = true) :
    s.world.output.Precedes (s.run setup fuel).state.world.output := by
  induction fuel generalizing s with
  | zero =>
      have settled : (s.settle setup).world = s.world := settleFrom_world ..
      rw [run, ← settled]
      cases s.settle setup <;> exact .refl _
  | succ fuel ih =>
      have settled : (s.settle setup).world = s.world := settleFrom_world ..
      rw [run]
      revert settled
      cases s.settle setup with
      | halted state halt =>
          intro settled
          exact settled ▸ .refl _
      | ready frame rest token world trace =>
          rintro rfl
          have kept := step_keepsWritten setup frame rest token trace immediate
          dsimp only
          rcases stepped : step setup frame rest token s.world trace with ⟨next, _ | halt⟩
          · rw [stepped] at kept
            exact kept.trans (ih (kept.isImmediate immediate))
          · rw [stepped] at kept
            exact kept

end RunState

/-- No run of a machine takes back what has been written. -/
theorem Machine.execution_keepsWritten (machine : Machine) (fuel : Nat)
    (immediate : machine.output.isImmediate = true) :
    machine.output.Precedes (machine.execution fuel).state.world.output := by
  have begins : (start machine.setup machine.initial).1.world.output = machine.output := by
    unfold start
    cases machine.setup.program.lookup? "main" <;> rfl
  rw [execution_eq, ← begins]
  rw [← begins] at immediate
  revert immediate
  rcases start machine.setup machine.initial with ⟨first, _ | halt⟩
  · exact RunState.run_keepsWritten machine.setup fuel
  · exact fun _ => .refl _

end StackMachine
