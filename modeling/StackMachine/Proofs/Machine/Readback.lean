import Mathlib
import StackMachine.Proofs.Machine.Table
import StackMachine.Proofs.Machine.Untraced
import StackMachine.Proofs.Number.Decimal
import StackMachine.Proofs.Output.Attaching
import StackMachine.Proofs.Text.Utf8
import StackMachine.Proofs.Text.Words

/-!
# Reading what was printed

Instructions that leave control alone are executed one after the other (`Table.Effects`), so the run
of a body that has no others is known from their rows in the table of opcodes.  Integers that such a
body prints on lines of their own are the words of the text that it leaves, and a body that reads as
many integers from this text, or from one with other white space between the words, pushes them in
order (`Machine.readint_println`).
-/

namespace StackMachine

/-! ## Straight code -/

/-- Instructions that are executed one after the other. -/
inductive Table.Effects (setup : Setup) : List Token → World → World → Prop where
  | nil {world : World} : Effects setup [] world world
  | cons {token : Token} {tokens : List Token} {world between after : World}
      (first : Effect setup token world between) (rest : Effects setup tokens between after) :
      Effects setup (token :: tokens) world after

open Table (Effect Effects)

namespace Frame

/-- The instructions from the position of an activation to the end of its body. -/
def Due (frame : Frame) (tokens : List Token) : Prop :=
  0 ≤ frame.position ∧ frame.function.body.code.toList.drop frame.position.toNat = tokens

/-- An activation that is some instructions further. -/
def past (frame : Frame) (count : Nat) : Frame := { frame with position := frame.position + count }

variable {frame : Frame} {token : Token} {tokens : List Token}

theorem Due.fetch_nil (due : frame.Due []) : frame.fetch = .bodyEnd := by
  have beyond : frame.function.body.code.size ≤ frame.position.toNat := by
    simpa using due.2
  rw [fetch, if_neg (Int.not_lt.mpr due.1), Array.getElem?_eq_none beyond]

theorem Due.fetch_cons (due : frame.Due (token :: tokens)) : frame.fetch = .instruction token := by
  have found : frame.function.body.code[frame.position.toNat]? = some token := by
    rw [← Array.getElem?_toList, ← List.head?_drop, due.2, List.head?_cons]
  rw [fetch, if_neg (Int.not_lt.mpr due.1), found]

theorem Due.next (due : frame.Due (token :: tokens)) : (frame.past 1).Due tokens := by
  have position : (frame.position + (1 : Nat)).toNat = frame.position.toNat + 1 := by
    have := due.1
    omega
  refine ⟨Int.add_nonneg due.1 (by decide), ?_⟩
  change frame.function.body.code.toList.drop (frame.position + (1 : Nat)).toNat = tokens
  rw [position, ← List.tail_drop, due.2, List.tail_cons]

end Frame

namespace RunState

variable {setup : RunSetup} (silent : setup.tracer = none)

include silent

/-- A run goes through straight code at the cost of one unit of fuel for each instruction. -/
theorem run_of_effects {tokens : List Token} {world after : World}
    (effects : Effects setup.toSetup tokens world after) {frame : Frame} {later : List Token}
    (due : frame.Due (tokens ++ later)) (fuel : Nat) (rest : List Frame) (trace : Trace) :
    run setup (tokens.length + fuel) ⟨frame :: rest, world, trace⟩ =
      run setup fuel ⟨frame.past tokens.length :: rest, after, trace⟩ ∧
    (frame.past tokens.length).Due later := by
  induction effects generalizing frame with
  | nil =>
      have same : frame.past 0 = frame := by simp [Frame.past]
      rw [List.length_nil, Nat.zero_add, same]
      exact ⟨rfl, due⟩
  | @cons token tokens world between after first _ ih =>
      have further : (frame.past 1).past tokens.length = frame.past (tokens.length + 1) := by
        simp only [Frame.past, Nat.cast_add, Nat.cast_one]
        congr 1
        ring
      obtain ⟨runs, stays⟩ := ih due.next
      rw [further] at runs stays
      refine ⟨?_, stays⟩
      rw [List.length_cons, Nat.add_right_comm, run_succ_of_ok silent due.fetch_cons
        (first.execute frame.function.body frame.depth)]
      exact runs

end RunState

/-- A program whose `main` is straight code. -/
def Program.straight (tokens : List Token) : Program where
  functions? := some [{ name := "main", body := { code? := some tokens.toArray } }]

namespace Machine

variable {machine : Machine} (silent : machine.setup.tracer = none) {tokens : List Token}
  (isProgram : machine.setup.program = .straight tokens) {between after : World}
  (idle : after.output.flush = (none, after.output)) {fuel : Nat}

include idle

/-- What a run reports and leaves that ends in a world with nothing to deliver. -/
theorem run_of_execution {s : RunState} {halt : Halt} {left : Nat}
    (ends : machine.execution fuel = ⟨s, halt, left⟩) (isWorld : s.world = after) :
    (machine.run fuel).1.failure = failureOf halt none ∧
      (machine.run fuel).2.memory = after.memory ∧ (machine.run fuel).2.output = after.output := by
  subst isWorld
  simp only [run, ends, idle]
  exact ⟨trivial, trivial, trivial⟩

include silent isProgram

omit idle in
/-- A run begins with the activation of `main`. -/
theorem execution_of_straight (fuel : Nat) :
    ∃ main : Frame, main.function.name = "main" ∧ main.position = 0 ∧ main.Due tokens ∧
      machine.execution fuel = RunState.run machine.setup fuel
        ⟨[main], machine.initial.world, machine.initial.trace⟩ := by
  let main : Function := { name := "main", body := { code? := some tokens.toArray } }
  have isMain : machine.setup.program.lookup? "main" = some main := by
    rw [isProgram]
    rfl
  refine ⟨⟨main, 0, 1⟩, rfl, rfl, ⟨Int.le_refl 0, rfl⟩, ?_⟩
  rw [execution_eq, start, isMain]
  simp only [RunState.enter, Trace.log, silent, Bool.false_eq_true, if_false]
  rfl

/-- Straight code is executed to its end. -/
theorem run_of_effects
    (effects : Effects machine.setup.toSetup tokens machine.initial.world after)
    (enough : tokens.length ≤ fuel) :
    (machine.run fuel).1.failure = none ∧
      (machine.run fuel).2.memory = after.memory ∧ (machine.run fuel).2.output = after.output := by
  obtain ⟨main, -, -, due, execution⟩ := execution_of_straight silent isProgram fuel
  obtain ⟨more, rfl⟩ := Nat.exists_eq_add_of_le enough
  rw [← List.append_nil tokens] at due
  obtain ⟨runs, ended⟩ := RunState.run_of_effects silent effects due more [] machine.initial.trace
  rw [runs, RunState.run_of_bodyEnd silent ended.fetch_nil, RunState.run_nil] at execution
  exact run_of_execution idle execution rfl

/-- Straight code is executed up to an instruction that fails. -/
theorem run_of_fault {front later : List Token} {token : Token}
    (isCode : tokens = front ++ token :: later) {cause : Cause}
    (effects : Effects machine.setup.toSetup front machine.initial.world between)
    (fault : Table.Fault machine.setup.toSetup token between cause after)
    (enough : front.length < fuel) :
    (machine.run fuel).1.failure = some (.halted ⟨"main", front.length, token, cause⟩) ∧
      (machine.run fuel).2.memory = after.memory ∧ (machine.run fuel).2.output = after.output := by
  obtain ⟨main, name, position, due, execution⟩ := execution_of_straight silent isProgram fuel
  obtain ⟨more, rfl⟩ := Nat.exists_eq_add_of_lt enough
  rw [isCode] at due
  obtain ⟨runs, next⟩ := RunState.run_of_effects silent effects due (more + 1) []
    machine.initial.trace
  have error : (main.past front.length).error token cause =
      ⟨"main", front.length, token, cause⟩ := by
    simp [Frame.error, Frame.past, name, position]
  rw [Nat.add_assoc, runs, RunState.run_succ_of_error silent next.fetch_cons (fault.execute _ _),
    error] at execution
  exact run_of_execution idle execution rfl

end Machine

/-! ## Printing and reading integers -/

/-- Pushes an integer and prints it on a line of its own. -/
def Token.printingLine (value : Int32) : List Token :=
  [{ opcode := .pushi, int := value }, { opcode := .call, name := "println" }]

/-- Reads an integer. -/
def Token.readint : Token := { opcode := .call, name := "readint" }

/-- Integers in a text: white space, then each integer as it is printed with white space behind
it. -/
def integerText (lead : List Char) (items : List (Int32 × List Char)) : List Char :=
  Input.spread lead (items.map fun item => ((Atom.int item.1).text, item.2))

theorem isBlank_of_isDigit {c : Char} (isDigit : c.isDigit = true) : isBlank c = false := by
  have range : 48 ≤ c.toNat ∧ c.toNat ≤ 57 := Char.isDigit_iff_toNat.mp isDigit
  simp only [isBlank, Bool.or_eq_false_iff, Bool.and_eq_false_iff, decide_eq_false_iff_not,
    beq_eq_false_iff_ne, ne_eq]
  omega

/-- A printed integer is one word. -/
theorem isSolid_text_int (value : Int32) : IsSolid (Atom.int value).text.toList := by
  have digits (number : Nat) : IsSolid (Nat.toDigits 10 number) :=
    ⟨Nat.toDigits_ne_nil, fun c mem =>
      isBlank_of_isDigit (Nat.isDigit_of_mem_toDigits (by decide) (by decide) mem)⟩
  rw [Atom.text, toList_toString_int]
  split
  · exact ⟨List.cons_ne_nil _ _, List.forall_mem_cons.mpr ⟨by decide, (digits _).noBlank⟩⟩
  · exact digits _

section Reading

variable {setup : Setup} {output : Output} (idle : output.flush = (none, output))

include idle

/-- As many integers are read as there are in a text, and only white space is left of it. -/
theorem effects_readint (items : List (Int32 × List Char))
    (gaps : ∀ item ∈ items, IsSpace item.2 ∧ item.2 ≠ []) {lead : List Char} (space : IsSpace lead)
    (stack : List Atom) (heap : Array Atom) :
    ∃ left, IsSpace left ∧
      Effects setup (List.replicate items.length .readint)
        ⟨⟨stack, heap⟩, ⟨integerText lead items, none⟩, output⟩
        ⟨⟨(items.map fun item => Atom.int item.1).reverse ++ stack, heap⟩, ⟨left, none⟩,
          output⟩ := by
  -- Along the integers; the white space behind one of them stands before the next.
  induction items generalizing lead stack with
  | nil =>
      refine ⟨lead, space, ?_⟩
      have isLead : integerText lead [] = lead := by simp [integerText, Input.spread]
      rw [isLead]
      exact .nil
  | cons item items ih =>
      obtain ⟨⟨isGap, nonempty⟩, gaps⟩ := List.forall_mem_cons.mp gaps
      have tail : IsSpace item.2.tail := fun c mem => isGap c (List.mem_of_mem_tail mem)
      obtain ⟨left, isSpace, effects⟩ := ih gaps tail (.int item.1 :: stack)
      have read := Input.readWord_spread space (isSolid_text_int item.1) isGap nonempty
        (items.map fun item => ((Atom.int item.1).text, item.2))
      have first : Effect setup .readint
          ⟨⟨stack, heap⟩, ⟨integerText lead (item :: items), none⟩, output⟩
          ⟨⟨.int item.1 :: stack, heap⟩, ⟨integerText item.2.tail items, none⟩, output⟩ :=
        .readint rfl rfl (.flushed idle) read (readInt32_toString item.1) (.flushed idle)
      refine ⟨left, isSpace, ?_⟩
      rw [List.length_cons, List.replicate_succ, List.map_cons, List.reverse_cons,
        List.append_assoc]
      exact .cons first effects

/-- Where only white space is left there is no integer. -/
theorem fault_readint {left : List Char} (space : IsSpace left) (memory : Memory) :
    Table.Fault setup .readint ⟨memory, ⟨left, none⟩, output⟩ .inputEnded
      ⟨memory, ⟨[], none⟩, output⟩ :=
  .inputEnded rfl rfl (.flushed idle) (Input.readWord_space space none)

end Reading

section Printing

variable {sink : Sink} (isMemory : sink.kind = .memory)

/-- The output to a single sink in memory. -/
def Output.toMemory (sink : Sink) : Output := ⟨.single (.direct 0), #[sink]⟩

theorem Output.flush_toMemory (sink : Sink) : (toMemory sink).flush = (none, toMemory sink) :=
  rfl

include isMemory

/-- A sink in memory takes all of a text. -/
theorem Output.write_toMemory (text : String) :
    ∃ count later, (toMemory sink).write text = (⟨count, none⟩, toMemory later) ∧
      later.kind = .memory ∧ later.received.toList = sink.received.toList ++ Utf8.encode text := by
  have responds : Sinks.respond #[sink] 0 (Utf8.encode text).length =
      ⟨(Utf8.encode text).length, none⟩ := by
    simp [Sinks.respond, Sink.respond, isMemory]
  refine ⟨(Utf8.encode text).length, sink.record (Utf8.encode text) (Utf8.encode text).length,
    ?_, ?_, ?_⟩
  · simp [write, toMemory, Route.write, Writer.writeText, Writer.writeThrough, Sinks.write,
      responds, Array.modify, Array.modifyM]
  · simp [Sink.record, isMemory]
  · simp [Sink.record, isMemory]

/-- Each integer is printed on a line of its own. -/
theorem effects_println (setup : Setup) (values : List Int32) (stack : List Atom)
    (heap : Array Atom) (input : Input) :
    ∃ later : Sink, later.received.toList = sink.received.toList ++
        Utf8.encode (String.ofList (integerText [] (values.map fun value => (value, ['\n'])))) ∧
      Effects setup (values.flatMap Token.printingLine) ⟨⟨stack, heap⟩, input, .toMemory sink⟩
        ⟨⟨stack, heap⟩, input, .toMemory later⟩ := by
  induction values generalizing sink with
  | nil =>
      refine ⟨sink, ?_, .nil⟩
      simp [integerText, Input.spread, Utf8.encode]
  | cons value values ih =>
      obtain ⟨_, between, writeText, isBetween, gotText⟩ :=
        Output.write_toMemory isMemory (Atom.int value).text
      obtain ⟨_, next, writeEnd, isNext, gotEnd⟩ := Output.write_toMemory isBetween "\n"
      obtain ⟨later, received, effects⟩ := ih isNext
      have printed : Effect setup { opcode := .call, name := "println" }
          ⟨⟨.int value :: stack, heap⟩, input, .toMemory sink⟩
          ⟨⟨stack, heap⟩, input, .toMemory next⟩ :=
        .printed rfl rfl
          (.written writeText (.written writeEnd (.flushed (Output.flush_toMemory next))))
      refine ⟨later, ?_, .cons (.pushi rfl) (.cons printed effects)⟩
      have line : String.ofList (integerText [] ((value :: values).map fun v => (v, ['\n']))) =
          (Atom.int value).text ++ ("\n" ++
            String.ofList (integerText [] (values.map fun value => (value, ['\n'])))) := by
        apply String.toList_injective
        simp [integerText, Input.spread]
      rw [line, Utf8.encode_append, Utf8.encode_append, received, gotEnd, gotText]
      simp only [List.append_assoc]

end Printing

namespace Machine

/-- A machine that prints integers, each on a line of its own, to a sink in memory. -/
def printingLines (values : List Int32) : Machine :=
  new (.straight (values.flatMap Token.printingLine)) #[{}] [.output 0]

/-- A machine that reads so many integers from a text. -/
def readingIntegers (count : Nat) (text : List Char) : Machine :=
  new (.straight (List.replicate count .readint)) #[]
    [.input (.ofBytes (Utf8.encode (String.ofList text)))]

theorem readingIntegers_world (count : Nat) (text : List Char) :
    (readingIntegers count text).initial.world = ⟨{}, ⟨text, none⟩, {}⟩ := by
  have input : (readingIntegers count text).initial.world.input = ⟨text, none⟩ := by
    change Input.ofBytes (Utf8.encode (String.ofList text)) = ⟨text, none⟩
    rw [Input.ofBytes, Utf8.decode_encode, String.toList_ofList]
  rw [← input]
  rfl

/-- Lines of integers are printed. -/
theorem run_printingLines {values : List Int32} {fuel : Nat} (enough : 2 * values.length ≤ fuel) :
    ((printingLines values).run fuel).1.failure = none ∧
    ((printingLines values).run fuel).2.output.sinks.received? 0 = some (Utf8.encode (String.ofList
      (integerText [] (values.map fun value => (value, ['\n']))))) := by
  obtain ⟨later, received, effects⟩ := @effects_println {} rfl (printingLines values).setup.toSetup
    values [] #[] .empty
  have size : (values.flatMap Token.printingLine).length ≤ fuel := by
    simpa [Token.printingLine, List.length_flatMap, Nat.mul_comm] using enough
  obtain ⟨failure, -, output⟩ :=
    run_of_effects rfl rfl (Output.flush_toMemory later) effects size
  refine ⟨failure, ?_⟩
  rw [output]
  exact congrArg some received

section Reading

variable {lead : List Char} (space : IsSpace lead) {items : List (Int32 × List Char)}
  (gaps : ∀ item ∈ items, IsSpace item.2 ∧ item.2 ≠ []) {fuel : Nat}

include space gaps

/-- The integers of a text are read. -/
theorem run_readingIntegers (enough : items.length ≤ fuel) :
    ((readingIntegers items.length (integerText lead items)).run fuel).1.failure = none ∧
    ((readingIntegers items.length (integerText lead items)).run fuel).2.memory.stack =
      (items.map fun item => Atom.int item.1).reverse := by
  let machine := readingIntegers items.length (integerText lead items)
  have idle : (Output.flush {}) = (none, {}) := rfl
  obtain ⟨left, -, effects⟩ := effects_readint idle items gaps space [] #[]
  rw [List.append_nil] at effects
  have whole : Effects machine.setup.toSetup (List.replicate items.length .readint)
      machine.initial.world _ := (readingIntegers_world _ _) ▸ effects
  have size : (List.replicate items.length Token.readint).length ≤ fuel := by
    simpa using enough
  obtain ⟨failure, memory, -⟩ := run_of_effects rfl rfl idle whole size
  exact ⟨failure, congrArg Memory.stack memory⟩

/-- One integer more than there are in a text is not read. -/
theorem run_readingIntegers_succ (enough : items.length < fuel) :
    ((readingIntegers (items.length + 1) (integerText lead items)).run fuel).1.failure =
      some (.halted ⟨"main", items.length, .readint, .inputEnded⟩) ∧
    ((readingIntegers (items.length + 1) (integerText lead items)).run fuel).2.memory.stack =
      (items.map fun item => Atom.int item.1).reverse := by
  let machine := readingIntegers (items.length + 1) (integerText lead items)
  have idle : (Output.flush {}) = (none, {}) := rfl
  obtain ⟨left, isSpace, effects⟩ := effects_readint idle items gaps space [] #[]
  rw [List.append_nil] at effects
  have whole : Effects machine.setup.toSetup (List.replicate items.length .readint)
      machine.initial.world _ := (readingIntegers_world _ _) ▸ effects
  have code : List.replicate (items.length + 1) Token.readint =
      List.replicate items.length .readint ++ .readint :: [] := List.replicate_succ'
  have size : (List.replicate items.length Token.readint).length < fuel := by
    simpa using enough
  obtain ⟨failure, memory, -⟩ :=
    run_of_fault rfl rfl idle code whole (fault_readint idle isSpace _) size
  rw [List.length_replicate] at failure
  exact ⟨failure, congrArg Memory.stack memory⟩

end Reading

/-- What is printed on lines of its own is read back.  Reading a word takes the white space before
it, the word, and one white space character behind it if there is one.  For all integers, a program
that prints each of them with `println` succeeds, and the text that it leaves is the integers with a
line feed behind each.  Given a text of these integers with any white space behind each and before
the first, a program that calls `readint` as many times succeeds and has pushed them in order; one
more call fails because the input has ended. -/
theorem readint_println :
    (∀ (input after : Input) (word : String),
      input.readWord = (.word word, after) ↔ input.TakesWord word after) ∧
    Cause.inputEnded.message = "readint: unexpected EOF" ∧
    ∀ (values : List Int32) (fuel : Nat), 2 * values.length < fuel →
      ((printingLines values).run fuel).1.failure = none ∧
      ((printingLines values).run fuel).2.output.sinks.received? 0 =
        some (Utf8.encode (String.ofList
          (integerText [] (values.map fun value => (value, ['\n']))))) ∧
      ∀ (lead : List Char) (items : List (Int32 × List Char)), IsSpace lead →
        (∀ item ∈ items, IsSpace item.2 ∧ item.2 ≠ []) → items.map Prod.fst = values →
        let reading (count : Nat) := (readingIntegers count (integerText lead items)).run fuel
        (reading values.length).1.failure = none ∧
        (reading values.length).2.memory.stack = (values.map Atom.int).reverse ∧
        (reading (values.length + 1)).1.failure =
          some (.halted ⟨"main", values.length, .readint, .inputEnded⟩) ∧
        (reading (values.length + 1)).2.memory.stack = (values.map Atom.int).reverse := by
  refine ⟨fun input after word => Input.readWord_eq_word_iff, rfl, fun values fuel enough => ?_⟩
  obtain ⟨printed, received⟩ := run_printingLines (Nat.le_of_lt enough)
  refine ⟨printed, received, ?_⟩
  rintro lead items space gaps rfl reading
  rw [List.length_map] at enough
  have more : items.length < fuel := by omega
  obtain ⟨succeeds, stack⟩ := run_readingIntegers space gaps more.le
  obtain ⟨fails, stackAgain⟩ := run_readingIntegers_succ space gaps more
  simp only [reading, List.length_map, List.map_map]
  exact ⟨succeeds, stack, fails, stackAgain⟩

/-- The extreme integers are printed, and read back from a text with ideographic and other white
space around them. -/
theorem readint_println_extreme :
    let items : List (Int32 × List Char) := [(-2147483648, ['\u3000']), (2147483647, ['\t', ' '])]
    ((printingLines [-2147483648, 2147483647]).run 9).2.output.sinks.received? 0 =
      some (Utf8.encode "-2147483648\n2147483647\n") ∧
    ((readingIntegers 2 (integerText [' '] items)).run 9).2.memory.stack =
      [.int 2147483647, .int (-2147483648)] := by
  intro items
  have space : IsSpace [' '] := by simp [IsSpace, isBlank]
  have gaps : ∀ item ∈ items, IsSpace item.2 ∧ item.2 ≠ [] := by
    simp [items, IsSpace, isBlank]
  obtain ⟨-, received, reads⟩ :=
    readint_println.2.2 [-2147483648, 2147483647] 9 (by decide)
  have text : String.ofList (integerText [] ([-2147483648, 2147483647].map fun value =>
      (value, ['\n']))) = "-2147483648\n2147483647\n" := by decide +kernel
  rw [text] at received
  exact ⟨received, (reads [' '] items space gaps rfl).2.1⟩

end Machine

end StackMachine
