import Mathlib
import StackMachine.Proofs.Machine.Cause
import StackMachine.Proofs.Machine.Nesting
import StackMachine.Proofs.Machine.Tracing

/-!
# Calls and returns in a trace

The lines of a traced run tell events: calls, instructions, returns, and how the run stopped.  The
calls that no return has matched yet are the activations of the run, innermost first.  This is the
invariant here, from which it follows that a call tells its nesting depth, that a return and an
instruction name the function of the latest unmatched call, and that the limit on the depth bounds
the number of unmatched calls.  The run fails for that limit exactly if an instruction calls a
function when so many calls are unmatched (`Machine.run_bracketed`).
-/

namespace StackMachine

/-! ## Events -/

/-- What a line of a trace tells. -/
inductive TraceEvent where
  | call (name : String) (depth : Nat)
  | exec (name : String) (position : Nat) (token : Token) (stack : List Atom)
  | ret (name : String) (stack : List Atom)
  | halt (error : RunError)
  | noMain

namespace TraceEvent

/-- The mark of the line about an event. -/
def mark : TraceEvent → String
  | .call .. => ">"
  | .exec .. => "exec"
  | .ret .. => "<"
  | .halt _ => "#"
  | .noMain => "#"

/-- The wording of an event. -/
def message : TraceEvent → String
  | .call name depth => s!"call {name} depth:{depth}"
  | .exec name position token stack =>
      s!"{name}@{position} {token.text} -- s:{stackText stack}"
  | .ret name stack => s!"ret {name} -- s:{stackText stack}"
  | .halt error => s!"halt error: {error.message}"
  | .noMain => "no main function"

/-- The line about an event, after marks of some width. -/
def line (width : Nat) (event : TraceEvent) : String :=
  String.ofList (Trace.padded event.mark.toList width) ++ " " ++ event.message

/-- The lines about some events, after marks of some width. -/
def lines (width : Nat) : List TraceEvent → List String
  | [] => []
  | event :: rest => event.line width :: lines (max width event.mark.length) rest

/-- The width of the widest mark. -/
def widest (width : Nat) (events : List TraceEvent) : Nat :=
  events.foldl (fun width event => max width event.mark.length) width

theorem lines_concat (width : Nat) (events : List TraceEvent) (event : TraceEvent) :
    lines width (events ++ [event]) = lines width events ++ [event.line (widest width events)] := by
  induction events generalizing width with
  | nil => rfl
  | cons first rest ih =>
      rw [List.cons_append, lines, lines, ih]
      rfl

example :
    lines 0 [.call "main" 1, .exec "main" 0 { opcode := .dup } [.int 7],
      .ret "main" [.int 7, .int 7]] =
    ["> call main depth:1", "exec main@0 dup -- s:[Int(7)]",
      "<<<< ret main -- s:[Int(7) Int(7)]"] := by
  decide +kernel

/-! ## Matching -/

/-- The unmatched calls after one more event. -/
def track (pending : List String) : TraceEvent → List String
  | .call name _ => name :: pending
  | .ret _ _ => pending.tail
  | _ => pending

/-- The functions of the calls that no return has matched, the latest first. -/
def unmatched (events : List TraceEvent) : List String := events.foldl track []

/-- Whether an event is a call. -/
def isCall : TraceEvent → Bool
  | .call .. => true
  | _ => false

/-- Whether an event is a return. -/
def isRet : TraceEvent → Bool
  | .ret .. => true
  | _ => false

/-- The number of calls minus the number of returns. -/
def depth (events : List TraceEvent) : Int := events.countP isCall - events.countP isRet

theorem unmatched_concat (events : List TraceEvent) (event : TraceEvent) :
    unmatched (events ++ [event]) = track (unmatched events) event :=
  List.foldl_concat ..

theorem depth_concat (events : List TraceEvent) (event : TraceEvent) :
    depth (events ++ [event]) =
      depth events + (if event.isCall then 1 else 0) - (if event.isRet then 1 else 0) := by
  unfold depth
  rw [List.countP_append, List.countP_append, List.countP_singleton, List.countP_singleton]
  push_cast
  omega

/-- What is true of an event after those before it: a call tells how many calls are then unmatched,
which the limit allows, and an instruction or a return is of the function called last. -/
inductive Fits (setup : Setup) (before : List TraceEvent) : TraceEvent → Prop where
  | call {name : String} {depth : Nat} (nested : (depth : Int) = 1 + TraceEvent.depth before)
      (allowed : setup.AllowsDepth depth) : Fits setup before (.call name depth)
  | exec {name : String} {position : Nat} {token : Token} {stack : List Atom}
      (latest : (unmatched before).head? = some name) :
      Fits setup before (.exec name position token stack)
  | ret {name : String} {stack : List Atom} (latest : (unmatched before).head? = some name) :
      Fits setup before (.ret name stack)
  | halt (error : RunError) : Fits setup before (.halt error)
  | noMain : Fits setup before .noMain

/-- Events each of which fits those before it. -/
def Bracketed (setup : Setup) (events : List TraceEvent) : Prop :=
  ∀ before event, before ++ [event] <+: events → Fits setup before event

theorem concat_prefix_concat_iff {before events : List TraceEvent} {event last : TraceEvent} :
    before ++ [event] <+: events ++ [last] ↔
      before ++ [event] <+: events ∨ before = events ∧ event = last := by
  rw [List.prefix_concat_iff]
  constructor
  · rintro (same | earlier)
    · obtain ⟨befores, events⟩ := List.append_inj' same rfl
      exact .inr ⟨befores, List.singleton_inj.mp events⟩
    · exact .inl earlier
  · rintro (earlier | ⟨rfl, rfl⟩)
    · exact .inr earlier
    · exact .inl rfl

namespace Bracketed

variable {setup : Setup} {events : List TraceEvent}

theorem nil : Bracketed setup [] := by
  intro before event isPrefix
  have empty := List.prefix_nil.mp isPrefix
  simp at empty

theorem concat (bracketed : Bracketed setup events) {event : TraceEvent}
    (fits : Fits setup events event) : Bracketed setup (events ++ [event]) := by
  intro before other place
  rcases concat_prefix_concat_iff.mp place with earlier | ⟨rfl, rfl⟩
  · exact bracketed before other earlier
  · exact fits

theorem of_concat {event : TraceEvent} (bracketed : Bracketed setup (events ++ [event])) :
    Bracketed setup events ∧ Fits setup events event := by
  constructor
  · intro before other place
    exact bracketed before other (concat_prefix_concat_iff.mpr (.inl place))
  · exact bracketed events event List.prefix_rfl

/-- The calls that exceed the returns in number are the unmatched ones. -/
theorem depth_eq (bracketed : Bracketed setup events) :
    depth events = (unmatched events).length := by
  induction events using List.reverseRecOn with
  | nil => rfl
  | append_singleton events event ih =>
      obtain ⟨earlier, fits⟩ := bracketed.of_concat
      rw [depth_concat, unmatched_concat, ih earlier]
      cases fits with
      | call nested allowed => simp [isCall, isRet, track]
      | exec latest => simp [isCall, isRet, track]
      | ret latest =>
          -- A return has a call to match, so there is one fewer afterwards.
          obtain ⟨pending, split⟩ := List.head?_eq_some_iff.mp latest
          simp [isCall, isRet, track, split]
      | halt error => simp [isCall, isRet, track]
      | noMain => simp [isCall, isRet, track]

/-- No more calls are unmatched than the limit allows. -/
theorem depth_le (bracketed : Bracketed setup events) (limited : 0 < setup.maxDepth.toInt) :
    depth events ≤ setup.maxDepth.toInt := by
  induction events using List.reverseRecOn with
  | nil => exact limited.le
  | append_singleton events event ih =>
      obtain ⟨earlier, fits⟩ := bracketed.of_concat
      have before := ih earlier
      rw [depth_concat]
      cases fits with
      | call nested allowed =>
          have bound := allowed limited
          simp only [isCall, isRet, if_true, Bool.false_eq_true, if_false]
          omega
      | ret latest =>
          simp only [isCall, isRet, if_true, Bool.false_eq_true, if_false]
          omega
      | exec latest => simpa [isCall, isRet] using before
      | halt error => simpa [isCall, isRet] using before
      | noMain => simpa [isCall, isRet] using before

end Bracketed

/-! ## The limit on calls -/

/-- An instruction calls a function of the program when as many calls are unmatched as the limit
allows. -/
structure CallsTooDeep (setup : Setup) (before : List TraceEvent) (token : Token) : Prop where
  opcode : token.opcode = .call
  user : token.name ∉ Table.builtins
  found : ∃ callee, setup.program.lookup? token.name = some callee
  limited : 0 < setup.maxDepth.toInt
  deepest : depth before = setup.maxDepth.toInt

/-- Some instruction among the events calls a function too deep. -/
def Exceeds (setup : Setup) (events : List TraceEvent) (name : String) (position : Nat)
    (token : Token) : Prop :=
  ∃ before stack, before ++ [.exec name position token stack] <+: events ∧
    CallsTooDeep setup before token

variable {setup : Setup} {events : List TraceEvent} {name : String} {position : Nat} {token : Token}

theorem not_exceeds_nil : ¬ Exceeds setup [] name position token := by
  rintro ⟨before, stack, place, -⟩
  have empty := List.prefix_nil.mp place
  simp at empty

theorem exceeds_concat_iff {event : TraceEvent} :
    Exceeds setup (events ++ [event]) name position token ↔
      Exceeds setup events name position token ∨
        (∃ stack, event = .exec name position token stack) ∧ CallsTooDeep setup events token := by
  constructor
  · rintro ⟨before, stack, place, deep⟩
    rcases concat_prefix_concat_iff.mp place with earlier | ⟨rfl, rfl⟩
    · exact .inl ⟨before, stack, earlier, deep⟩
    · exact .inr ⟨⟨stack, rfl⟩, deep⟩
  · rintro (⟨before, stack, earlier, deep⟩ | ⟨⟨stack, rfl⟩, deep⟩)
    · exact ⟨before, stack, concat_prefix_concat_iff.mpr (.inl earlier), deep⟩
    · exact ⟨events, stack, List.prefix_rfl, deep⟩

theorem CallsTooDeep.execute (deep : CallsTooDeep setup events token) {reached : Nat}
    (depth : TraceEvent.depth events = reached) (body : Body) (world : World) :
    setup.execute body reached token world = (world, .error (.callDepth setup.maxDepth)) := by
  obtain ⟨callee, found⟩ := deep.found
  rw [Table.execute_of_user setup body reached world deep.opcode deep.user, found]
  exact if_pos ⟨deep.limited, by rw [← depth, deep.deepest]⟩

end TraceEvent

/-- An instruction fails for the limit on calls exactly if it calls a function too deep. -/
theorem Nested.callDepth_iff {setup : Setup} {frame : Frame} {rest : List Frame} {token : Token}
    {world after : World} {cause : Cause} {events : List TraceEvent} (nested : Nested (frame :: rest))
    (allowed : setup.AllowsDepth (rest.length + 1)) (fetched : frame.fetch = .instruction token)
    (depth : TraceEvent.depth events = (rest.length + 1 : Nat))
    (executed : setup.execute frame.function.body frame.depth token world = (after, .error cause))
    (limit : Int64) :
    cause = .callDepth limit ↔
      limit = setup.maxDepth ∧ TraceEvent.CallsTooDeep setup events token := by
  constructor
  · rintro rfl
    generalize state : (⟨frame.place :: rest.map Frame.place, world⟩ : Table.State) = places
    have fails := nested.fails fetched executed
    rw [state] at fails
    cases fails with
    | fault due fault =>
        cases fault with
        | lost prints followed => cases Memory.followFrom_cause followed
    | callDepth due opcode user found limited deep =>
        cases state
        have bound := allowed limited
        rw [List.length_map] at deep
        exact ⟨rfl, opcode, user, ⟨_, found⟩, limited, by omega⟩
  · rintro ⟨rfl, deep⟩
    cases nested with
    | cons own below =>
        rw [own, deep.execute depth] at executed
        cases executed
        rfl

/-- An instruction that succeeds calls nothing too deep. -/
theorem Nested.not_callsTooDeep {setup : Setup} {frame : Frame} {rest : List Frame} {token : Token}
    {world after : World} {control : Control} {events : List TraceEvent}
    (nested : Nested (frame :: rest))
    (depth : TraceEvent.depth events = (rest.length + 1 : Nat))
    (executed : setup.execute frame.function.body frame.depth token world = (after, .ok control)) :
    ¬ TraceEvent.CallsTooDeep setup events token := by
  intro deep
  cases nested with
  | cons own below =>
      rw [own, deep.execute depth] at executed
      cases executed

/-! ## What a log has taken -/

/-- A trace whose lines tell some events, after marks of some width. -/
structure Trace.Tells (initial : Nat) (trace : Trace) (events : List TraceEvent) : Prop where
  lines : trace.lines.reverse = TraceEvent.lines initial events
  width : trace.width = TraceEvent.widest initial events

/-- A log refuses the line about an event, or the trace tells that event as well. -/
theorem Trace.Tells.log {initial : Nat} {trace : Trace} {events : List TraceEvent}
    (tells : trace.Tells initial events) {setup : RunSetup} {tracer : Tracer}
    (logs : setup.tracer = some tracer) (mark : String) (message : Unit → String)
    (event : TraceEvent) (marked : event.mark = mark) (text : event.message = message ()) :
    ((trace.log setup.tracer mark message).2 = true ∧
        (trace.log setup.tracer mark message).1.lines = trace.lines) ∨
      (trace.log setup.tracer mark message).2 = false ∧
        (trace.log setup.tracer mark message).1.Tells initial (events ++ [event]) := by
  rw [logs]
  unfold Trace.log
  dsimp only
  split
  · exact .inl ⟨rfl, rfl⟩
  · refine .inr ⟨rfl, ?_, ?_⟩
    · rw [List.reverse_cons, tells.lines, TraceEvent.lines_concat, TraceEvent.line, tells.width,
        text, marked]
    · rw [TraceEvent.widest, List.foldl_concat, tells.width, marked]
      rfl

/-- The event of an instruction of an activation. -/
def Frame.executes (frame : Frame) (token : Token) (world : World) : TraceEvent :=
  .exec frame.function.name frame.position.toNat token world.memory.stack

theorem Frame.message_executes (frame : Frame) {token : Token}
    (fetched : frame.fetch = .instruction token) (world : World) :
    (frame.executes token world).message = frame.executeMessage token world () := by
  obtain ⟨nonneg, -⟩ := (frame.fetch_eq_instruction_iff token).mp fetched
  have position : toString frame.position = toString frame.position.toNat := by
    conv_lhs => rw [← Int.toNat_of_nonneg nonneg]
    rfl
  rw [Frame.executeMessage, position]
  rfl

/-- A run in progress: its trace tells events that fit together, and the unmatched calls among them
are its activations. -/
structure Logged (setup : Setup) (initial : Nat) (frames : List Frame) (trace : Trace)
    (events : List TraceEvent) : Prop where
  tells : trace.Tells initial events
  bracketed : TraceEvent.Bracketed setup events
  shallow : ∀ name position token, ¬ TraceEvent.Exceeds setup events name position token
  unmatched : TraceEvent.unmatched events = frames.map (·.function.name)

/-- A run that has stopped: its lines tell events that fit together, all calls are matched if it
has finished, and it has failed for the limit on calls exactly if some call was too deep. -/
structure Concluded (setup : Setup) (initial : Nat) (lines : List String) (halt : Halt)
    (events : List TraceEvent) : Prop where
  tells : lines.reverse = TraceEvent.lines initial events
  bracketed : TraceEvent.Bracketed setup events
  matched : halt = .finished → TraceEvent.unmatched events = []
  exceeds : ∀ name position token limit,
    halt = .failed ⟨name, position, token, .callDepth limit⟩ ↔
      limit = setup.maxDepth ∧ TraceEvent.Exceeds setup events name position token

namespace Logged

variable {setup : Setup} {initial : Nat} {frames : List Frame} {trace : Trace}
  {events : List TraceEvent} (logged : Logged setup initial frames trace events)
include logged

theorem depth_eq : TraceEvent.depth events = frames.length := by
  rw [logged.bracketed.depth_eq, logged.unmatched, List.length_map]

/-- A run that stops without an error. -/
theorem concluded {lines : List String} (same : lines = trace.lines) {halt : Halt}
    (finished : halt = .finished → frames = []) (notFailed : ∀ error, halt ≠ .failed error) :
    Concluded setup initial lines halt events := by
  constructor
  · rw [same, logged.tells.lines]
  · exact logged.bracketed
  · intro isFinished
    rw [logged.unmatched, finished isFinished, List.map_nil]
  · intro name position token limit
    constructor
    · intro failed
      exact absurd failed (notFailed _)
    · rintro ⟨-, exceeds⟩
      exact absurd exceeds (logged.shallow name position token)

theorem crashed {lines : List String} (same : lines = trace.lines) (crash : Crash) :
    Concluded setup initial lines (.crashed crash) events := by
  apply logged.concluded same
  · rintro ⟨⟩
  · rintro error ⟨⟩

/-- The run goes on after an event that calls nothing too deep. -/
theorem concat {event : TraceEvent} {after : List Frame} {longer : Trace}
    (tells : longer.Tells initial (events ++ [event])) (fits : TraceEvent.Fits setup events event)
    (shallow : ∀ name position token stack, event = .exec name position token stack →
      ¬ TraceEvent.CallsTooDeep setup events token)
    (tracks : TraceEvent.track (TraceEvent.unmatched events) event =
      after.map (·.function.name)) :
    Logged setup initial after longer (events ++ [event]) := by
  refine ⟨tells, logged.bracketed.concat fits, ?_, ?_⟩
  · intro name position token exceeds
    rcases TraceEvent.exceeds_concat_iff.mp exceeds with earlier | ⟨⟨stack, rfl⟩, deep⟩
    · exact logged.shallow name position token earlier
    · exact shallow name position token stack rfl deep
  · rw [TraceEvent.unmatched_concat, tracks]

end Logged

section Activation

variable {setup : Setup} {initial : Nat} {frame : Frame} {rest : List Frame} {trace : Trace}
  {events : List TraceEvent} (logged : Logged setup initial (frame :: rest) trace events)
include logged

/-- The latest unmatched call is that of the innermost activation. -/
theorem Logged.latest : (TraceEvent.unmatched events).head? = some frame.function.name := by
  rw [logged.unmatched]
  rfl

/-- The run goes on after an instruction, in the same functions. -/
theorem Logged.executed {token : Token} {world : World} {longer : Trace} {after : List Frame}
    (tells : longer.Tells initial (events ++ [frame.executes token world]))
    (shallow : ¬ TraceEvent.CallsTooDeep setup events token)
    (names : after.map (·.function.name) = (frame :: rest).map (·.function.name)) :
    Logged setup initial after longer (events ++ [frame.executes token world]) := by
  apply logged.concat tells (.exec logged.latest)
  · rintro name position due stack ⟨⟩
    exact shallow
  · rw [names]
    exact logged.unmatched

/-- An instruction that fails does so for the limit on calls exactly if the events up to its own
exceed that limit. -/
theorem Logged.callDepth_iff (nested : Nested (frame :: rest))
    (allowed : setup.AllowsDepth (rest.length + 1)) {token : Token}
    (fetched : frame.fetch = .instruction token) {world after : World} {cause : Cause}
    (executed : setup.execute frame.function.body frame.depth token world = (after, .error cause))
    (name : String) (position : Nat) (due : Token) (limit : Int64) :
    Halt.failed (frame.error token cause) = .failed ⟨name, position, due, .callDepth limit⟩ ↔
      limit = setup.maxDepth ∧ TraceEvent.Exceeds setup
        (events ++ [frame.executes token world]) name position due := by
  have isDeep := nested.callDepth_iff allowed fetched logged.depth_eq executed limit
  rw [TraceEvent.exceeds_concat_iff, or_iff_right (logged.shallow name position due)]
  constructor
  · rintro ⟨⟩
    obtain ⟨isLimit, deep⟩ := isDeep.mp rfl
    exact ⟨isLimit, ⟨_, rfl⟩, deep⟩
  · rintro ⟨isLimit, ⟨stack, ⟨⟩⟩, deep⟩
    rw [isDeep.mpr ⟨isLimit, deep⟩]
    rfl

end Activation

namespace RunState

/-- What the log of a run has taken, when the finished activations have been ended. -/
def Settled.Accounted (setup : Setup) (initial : Nat) : Settled → Prop
  | .halted state halt => ∃ events, Concluded setup initial state.trace.lines halt events
  | .ready frame rest _ _ trace => ∃ events, Logged setup initial (frame :: rest) trace events

/-- What the log of a run has taken, when the run goes on or stops. -/
def Accounted (setup : Setup) (initial : Nat) : RunState × Option Halt → Prop
  | (state, some halt) => ∃ events, Concluded setup initial state.trace.lines halt events
  | (next, none) => ∃ events, Logged setup initial next.frames next.trace events

variable {setup : RunSetup} {tracer : Tracer} (logs : setup.tracer = some tracer) {initial : Nat}
include logs

/-- Finished activations are those that return. -/
theorem settleFrom_accounted (world : World) {frames : List Frame} {trace : Trace}
    {events : List TraceEvent} (logged : Logged setup.toSetup initial frames trace events) :
    (settleFrom setup world frames trace).Accounted setup.toSetup initial := by
  induction frames generalizing trace events with
  | nil =>
      refine ⟨events, logged.concluded rfl (fun _ => rfl) ?_⟩
      rintro error ⟨⟩
  | cons frame rest ih =>
      cases fetched : frame.fetch with
      | instruction token =>
          rw [settleFrom, fetched]
          exact ⟨events, logged⟩
      | crash crash =>
          rw [settleFrom, fetched]
          exact ⟨events, logged.crashed rfl crash⟩
      | bodyEnd =>
          rw [settleFrom_of_bodyEnd fetched]
          dsimp only
          rcases logged.tells.log logs "<" (frame.returnMessage world)
            (.ret frame.function.name world.memory.stack) rfl rfl with
            ⟨refused, same⟩ | ⟨taken, tells⟩
          · rw [if_pos refused]
            exact ⟨events, logged.crashed same .traceRefused⟩
          · rw [if_neg (ne_true_of_eq_false taken)]
            apply ih (logged.concat tells (.ret logged.latest) ?_ ?_)
            · rintro name position token stack ⟨⟩
            · rw [logged.unmatched]
              rfl

/-- The line about a halt, if the log takes it, says nothing about calls. -/
theorem fail_concluded (frame : Frame) (token : Token) (cause : Cause) {s : RunState}
    {events : List TraceEvent} (tells : s.trace.Tells initial events)
    (bracketed : TraceEvent.Bracketed setup.toSetup events)
    (exceeds : ∀ name position due limit,
      Halt.failed (frame.error token cause) = .failed ⟨name, position, due, .callDepth limit⟩ ↔
        limit = setup.maxDepth ∧ TraceEvent.Exceeds setup.toSetup events name position due) :
    ∃ events, Concluded setup.toSetup initial (fail setup frame token cause s).1.trace.lines
      (fail setup frame token cause s).2 events := by
  rcases tells.log logs "#" (fun _ => s!"halt error: {(frame.error token cause).message}")
    (.halt (frame.error token cause)) rfl rfl with ⟨-, same⟩ | ⟨-, more⟩
  · refine ⟨events, (congrArg List.reverse same).trans tells.lines, bracketed, ?_, exceeds⟩
    rintro ⟨⟩
  · refine ⟨_, more.lines, bracketed.concat (.halt _), ?_, ?_⟩
    · rintro ⟨⟩
    · intro name position due limit
      refine (exceeds name position due limit).trans (and_congr_right' ?_)
      simp [TraceEvent.exceeds_concat_iff]

/-- A call adds a line with its depth. -/
theorem enter_accounted {s : RunState} {events : List TraceEvent}
    (logged : Logged setup.toSetup initial s.frames s.trace events) (callee : Function) {depth : Nat}
    (nested : depth = s.frames.length + 1) (allowed : setup.AllowsDepth depth) :
    Accounted setup.toSetup initial (s.enter setup callee depth) := by
  rw [enter_eq]
  dsimp only
  rcases logged.tells.log logs ">" (callee.enterMessage depth) (.call callee.name depth) rfl rfl with
    ⟨refused, same⟩ | ⟨taken, tells⟩
  · rw [if_pos refused]
    exact ⟨events, logged.crashed same .traceRefused⟩
  · rw [if_neg (ne_true_of_eq_false taken)]
    refine ⟨_, logged.concat tells (.call ?_ allowed) ?_ ?_⟩
    · rw [logged.depth_eq, nested]
      push_cast
      omega
    · rintro name position token stack ⟨⟩
    · rw [logged.unmatched]
      rfl

/-- An instruction adds a line about itself, and one about the function that it calls. -/
theorem step_accounted {frame : Frame} {rest : List Frame} {token : Token} {trace : Trace}
    {events : List TraceEvent}
    (logged : Logged setup.toSetup initial (frame :: rest) trace events)
    (nested : StackMachine.Nested (frame :: rest)) (allowed : setup.AllowsDepth (rest.length + 1))
    (fetched : frame.fetch = .instruction token) (world : World) :
    Accounted setup.toSetup initial (step setup frame rest token world trace) := by
  rcases logged.tells.log logs "exec" (frame.executeMessage token world) (frame.executes token world)
    rfl (frame.message_executes fetched world) with ⟨refused, same⟩ | ⟨taken, tells⟩
  · rw [step_of_refused refused]
    exact ⟨events, logged.crashed same .traceRefused⟩
  · have line : trace.log setup.tracer "exec" (frame.executeMessage token world) = (_, false) :=
      Prod.ext rfl taken
    rcases executed : setup.execute frame.function.body frame.depth token world with
      ⟨after, cause | control⟩
    · rw [step_of_error line executed]
      apply fail_concluded logs frame token cause tells
      · exact logged.bracketed.concat (.exec logged.latest)
      · exact logged.callDepth_iff nested allowed fetched executed
    · have shallow := nested.not_callsTooDeep logged.depth_eq executed
      by_cases entered : ∃ callee, control = .enter callee
      · obtain ⟨callee, rfl⟩ := entered
        rw [step_of_enter line executed]
        have deeper := (nested.acts fetched executed).allowsDepth (by simpa using allowed)
        cases nested with
        | cons own below =>
            refine enter_accounted logs (logged.executed tells shallow rfl) callee ?_ ?_
            · rw [own, List.length_cons]
            · rw [own]
              simpa [Control.places] using deeper
      · rw [step_of_stay line executed (not_exists.mp entered)]
        refine ⟨_, logged.executed tells shallow ?_⟩
        cases control with
        | next => rfl
        | jump position => rfl
        | enter callee => exact absurd ⟨callee, rfl⟩ entered

/-- The trace of a run still tells its events after one more instruction. -/
theorem advance_logged {s next : RunState} {events : List TraceEvent}
    (logged : Logged setup.toSetup initial s.frames s.trace events)
    (nested : s.Nested setup.toSetup) (advanced : s.advance? setup = some next) :
    ∃ events, Logged setup.toSetup initial next.frames next.trace events := by
  obtain ⟨frame, rest, token, world, trace, settled, stepped⟩ :=
    (advance?_eq_some_iff setup s next).mp advanced
  obtain ⟨-, -, fetched⟩ := settleFrom_eq_ready settled
  obtain ⟨nestedFrames, allowed⟩ := nested.ready settled
  have due := settleFrom_accounted logs s.world logged
  rw [← settle, settled] at due
  obtain ⟨events, logged⟩ := due
  have after := step_accounted logs logged nestedFrames allowed fetched world
  rw [stepped] at after
  exact after

theorem Stops.concluded {fuel : Nat} {s : RunState} {ending : Ending} {events : List TraceEvent}
    (stops : Stops setup fuel s ending)
    (logged : Logged setup.toSetup initial s.frames s.trace events)
    (nested : s.Nested setup.toSetup) :
    ∃ events, Concluded setup.toSetup initial ending.state.trace.lines ending.halt events := by
  have due := settleFrom_accounted logs s.world logged
  rw [← settle] at due
  cases stops with
  | halted settled =>
      rw [settled] at due
      exact due
  | @spent _ frame rest token world trace _ _ settled failed =>
      rw [settled] at due
      obtain ⟨events, logged⟩ := due
      have stopped := fail_concluded logs frame token (.interrupted setup.interruption)
        (s := ⟨frame :: rest, world, trace⟩) logged.tells logged.bracketed
      rw [failed] at stopped
      apply stopped
      intro name position due limit
      constructor
      · rintro ⟨⟩
      · rintro ⟨-, exceeds⟩
        exact absurd exceeds (logged.shallow name position due)
  | @failed _ _ frame rest token world trace _ _ settled stepped =>
      rw [settled] at due
      obtain ⟨events, logged⟩ := due
      obtain ⟨-, -, fetched⟩ := settleFrom_eq_ready settled
      obtain ⟨nestedFrames, allowed⟩ := nested.ready settled
      have after := step_accounted logs logged nestedFrames allowed fetched world
      rw [stepped] at after
      exact after

end RunState

/-! ## Machines -/

namespace Machine

section

variable {machine : Machine} {tracer : Tracer} (logs : machine.setup.tracer = some tracer)
include logs

theorem start_accounted :
    RunState.Accounted machine.setup.toSetup machine.markWidth
      (start machine.setup machine.initial) := by
  have nothing : Logged machine.setup.toSetup machine.markWidth machine.initial.frames
      machine.initial.trace [] :=
    ⟨⟨rfl, rfl⟩, .nil, fun _ _ _ => TraceEvent.not_exceeds_nil, rfl⟩
  unfold start
  cases machine.setup.program.lookup? "main" with
  | some main => exact RunState.enter_accounted logs nothing main rfl fun limited => limited
  | none =>
      dsimp only
      rcases nothing.tells.log logs "#" (fun _ => "no main function") .noMain rfl rfl with
        ⟨refused, same⟩ | ⟨taken, tells⟩
      · rw [if_pos refused]
        exact ⟨[], nothing.crashed same .traceRefused⟩
      · rw [if_neg (ne_true_of_eq_false taken)]
        have missed := nothing.concat tells .noMain (by rintro _ _ _ _ ⟨⟩) List.map_nil.symm
        refine ⟨_, missed.concluded rfl (fun _ => rfl) ?_⟩
        rintro error ⟨⟩

/-- The trace of a run tells its events at every state that it visits. -/
theorem Visits.logged {s : RunState} (visited : machine.Visits s) :
    ∃ events, Logged machine.setup.toSetup machine.markWidth s.frames s.trace events := by
  have both := @Visits.invariant machine (fun s => s.Nested machine.setup.toSetup ∧
    ∃ events, Logged machine.setup.toSetup machine.markWidth s.frames s.trace events)
  apply And.right
  apply both _ _ visited
  · intro first started
    have begun := start_accounted logs
    rw [started] at begun
    exact ⟨Visits.nested ⟨first, 0, started, rfl⟩, begun⟩
  · rintro s next ⟨nested, events, logged⟩ advanced
    exact ⟨nested.advance advanced, RunState.advance_logged logs logged nested advanced⟩

theorem execution_concluded (fuel : Nat) :
    ∃ events, Concluded machine.setup.toSetup machine.markWidth
      (machine.execution fuel).state.trace.lines (machine.execution fuel).halt events := by
  rcases machine.execution_stops fuel with
    ⟨state, halt, started, ended⟩ | ⟨left, last, -, visited, stops⟩
  · have begun := start_accounted logs
    rw [started] at begun
    rw [ended]
    exact begun
  · obtain ⟨events, logged⟩ := visited.logged logs
    exact stops.concluded logs logged visited.nested

end

/-- The calls and returns of a traced run match.  The depth of a call is one more than the number of
calls before it less the number of returns; a return and an instruction name the function of the
latest unmatched call; and a run that completes leaves no call unmatched.  A positive limit bounds
the number of unmatched calls, and the run fails for it exactly if an instruction calls a function of
the program when so many calls are unmatched. -/
theorem run_bracketed (machine : Machine) (tracer : Tracer) (fuel : Nat) :
    let setup := machine.setup.toSetup
    let report := ((machine.withTracer (some tracer)).run fuel).1
    ∃ events : List TraceEvent,
      report.lines = TraceEvent.lines machine.markWidth events ∧
      (∀ before name (depth : Nat), before ++ [.call name depth] <+: events →
        (depth : Int) =
          1 + before.countP TraceEvent.isCall - before.countP TraceEvent.isRet) ∧
      (∀ before name stack, before ++ [.ret name stack] <+: events →
        (TraceEvent.unmatched before).head? = some name) ∧
      (∀ before name position token stack,
        before ++ [.exec name position token stack] <+: events →
          (TraceEvent.unmatched before).head? = some name) ∧
      ((∀ error, report.failure ≠ some (.halted error)) →
        (∀ crash, report.failure ≠ some (.crashed crash)) → TraceEvent.unmatched events = []) ∧
      (0 < setup.maxDepth.toInt → ∀ before, before <+: events →
        TraceEvent.depth before ≤ setup.maxDepth.toInt) ∧
      ∀ name position token limit,
        report.failure = some (.halted ⟨name, position, token, .callDepth limit⟩) ↔
          limit = setup.maxDepth ∧ TraceEvent.Exceeds setup events name position token := by
  intro setup report
  have logs : (machine.withTracer (some tracer)).setup.tracer = some tracer := rfl
  obtain ⟨events, lines, bracketed, matched, exceeds⟩ := execution_concluded logs fuel
  refine ⟨events, lines, ?_, ?_, ?_, ?_, ?_, ?_⟩
  · intro before name depth place
    cases bracketed before _ place with
    | call nested allowed =>
        rw [nested, TraceEvent.depth]
        omega
  · intro before name stack place
    cases bracketed before _ place with
    | ret latest => exact latest
  · intro before name position token stack place
    cases bracketed before _ place with
    | exec latest => exact latest
  · intro notHalted notCrashed
    apply matched
    cases halt : ((machine.withTracer (some tracer)).execution fuel).halt with
    | finished => rfl
    | failed error => exact absurd ((failureOf_eq_halted_iff ..).mpr halt) (notHalted error)
    | crashed crash => exact absurd ((failureOf_eq_crashed_iff ..).mpr halt) (notCrashed crash)
  · intro limited before place
    apply TraceEvent.Bracketed.depth_le _ limited
    intro earlier event isEarlier
    exact bracketed earlier event (isEarlier.trans place)
  · intro name position token limit
    exact (failureOf_eq_halted_iff ..).trans (exceeds name position token limit)

end Machine

end StackMachine
