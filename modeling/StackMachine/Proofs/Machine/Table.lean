import Mathlib
import StackMachine.Machine.Execute

/-!
# The table of opcodes

The meaning of the instructions as a table with one row for each way in which an instruction
succeeds and one for each way in which it fails.  The state that the rows speak of is a stack of
places, innermost first, over one world.  `Setup.execute` does what the table says: every row is one
of its results (`Acts.execute`, `Fails.execute`), and since every instruction has a row
(`acts_or_fails`), every result is that of a row (`acts_of_execute`, `fails_of_execute`).
-/

namespace StackMachine

/-- The places of a run after an instruction at one of them leads control somewhere. -/
def Control.places (control : Control) (function : Function) (position : Int)
    (rest : List (Function × Int)) : List (Function × Int) :=
  match control with
  | .next => (function, position + 1) :: rest
  | .jump target => (function, target.toInt) :: rest
  | .enter callee => (callee, 0) :: (function, position + 1) :: rest

namespace Table

/-! ## Memory and output -/

/-- A heap after a slot of it has been set.  Slots that did not exist before hold null. -/
structure Stored (heap : Array Atom) (index : Nat) (a : Atom) (after : Array Atom) : Prop where
  size : after.size = max heap.size (index + 1)
  slot : after[index]? = some a
  others : ∀ other, other ≠ index → other < after.size →
    after[other]? = some (heap[other]?.getD .null)

/-- A store within the limit on the length of the heap. -/
def InLimit (setup : Setup) (token : Token) : Prop :=
  0 ≤ token.index.toInt ∧ token.index.toInt < Memory.effectiveLimit setup.heapLimit

/-- A slot of the heap that exists, and what it holds. -/
def Holds (heap : Array Atom) (address : Int64) (a : Atom) : Prop :=
  0 ≤ address.toInt ∧ heap[address.toInt.toNat]? = some a

/-- An output after texts have been written to it in order and it has been flushed.  The first fault
is the last thing that happens. -/
inductive Delivers : List String → Output → Option WriteFault → Output → Prop where
  | flushed {output after : Output} {fault : Option WriteFault}
      (flush : output.flush = (fault, after)) : Delivers [] output fault after
  | refused {text : String} {texts : List String} {output after : Output} {count : Nat}
      {fault : WriteFault} (write : output.write text = (⟨count, some fault⟩, after)) :
      Delivers (text :: texts) output (some fault) after
  | written {text : String} {texts : List String} {output between after : Output} {count : Nat}
      {fault : Option WriteFault} (write : output.write text = (⟨count, none⟩, between))
      (rest : Delivers texts between fault after) : Delivers (text :: texts) output fault after

/-! ## Rows that leave control alone -/

/-- The calls that print an atom, and what they write after it. -/
def ending? (token : Token) : Option (List String) :=
  if token.opcode = .call ∧ token.name = "print" then some []
  else if token.opcode = .call ∧ token.name = "println" then some ["\n"]
  else none

/-- The number of atoms that an instruction takes from the stack whatever they are. -/
def operandCount (token : Token) : Nat :=
  match token.opcode with
  | .pop | .dup | .store => 1
  | .binary _ => 2
  | _ => if (ending? token).isSome then 1 else 0

/-- What an instruction does that succeeds and is followed by the next one. -/
inductive Effect (setup : Setup) (token : Token) : World → World → Prop where
  | pushi {stack heap input output} (opcode : token.opcode = .pushi) :
      Effect setup token ⟨⟨stack, heap⟩, input, output⟩
        ⟨⟨.int token.int :: stack, heap⟩, input, output⟩
  | pushf {stack heap input output} (opcode : token.opcode = .pushf) :
      Effect setup token ⟨⟨stack, heap⟩, input, output⟩
        ⟨⟨.float token.float :: stack, heap⟩, input, output⟩
  | pop {a stack heap input output} (opcode : token.opcode = .pop) :
      Effect setup token ⟨⟨a :: stack, heap⟩, input, output⟩ ⟨⟨stack, heap⟩, input, output⟩
  | dup {a stack heap input output} (opcode : token.opcode = .dup) :
      Effect setup token ⟨⟨a :: stack, heap⟩, input, output⟩
        ⟨⟨a :: a :: stack, heap⟩, input, output⟩
  | store {a stack heap after input output} (opcode : token.opcode = .store)
      (inLimit : InLimit setup token) (stored : Stored heap token.index.toInt.toNat a after) :
      Effect setup token ⟨⟨a :: stack, heap⟩, input, output⟩ ⟨⟨stack, after⟩, input, output⟩
  | stores {stack heap after input output} (opcode : token.opcode = .stores)
      (inLimit : InLimit setup token)
      (stored : Stored heap token.index.toInt.toNat (.str token.name) after) :
      Effect setup token ⟨⟨stack, heap⟩, input, output⟩ ⟨⟨stack, after⟩, input, output⟩
  | load {a stack heap input output} (opcode : token.opcode = .load)
      (holds : Holds heap token.index a) :
      Effect setup token ⟨⟨stack, heap⟩, input, output⟩ ⟨⟨a :: stack, heap⟩, input, output⟩
  | binary {operator left right value stack heap input output}
      (opcode : token.opcode = .binary operator) (applied : operator.apply left right = .ok value) :
      Effect setup token ⟨⟨left :: right :: stack, heap⟩, input, output⟩
        ⟨⟨value :: stack, heap⟩, input, output⟩
  | label {world} (opcode : token.opcode = .label) : Effect setup token world world
  | printed {ending a value stack heap input output after} (prints : ending? token = some ending)
      (followed : Memory.follow ⟨stack, heap⟩ a = .ok value)
      (delivers : Delivers (value.text :: ending) output none after) :
      Effect setup token ⟨⟨a :: stack, heap⟩, input, output⟩ ⟨⟨stack, heap⟩, input, after⟩
  | readint {text value stack heap input rest output between after}
      (opcode : token.opcode = .call) (name : token.name = "readint")
      (before : Delivers [] output none between) (word : input.readWord = (.word text, rest))
      (integer : readInt32 text = .ok value) (delivers : Delivers [] between none after) :
      Effect setup token ⟨⟨stack, heap⟩, input, output⟩ ⟨⟨.int value :: stack, heap⟩, rest, after⟩

/-- What an instruction leaves behind that fails for what it finds in the world. -/
inductive Fault (setup : Setup) (token : Token) : World → Cause → World → Prop where
  | underflow {stack heap input output} (few : stack.length < operandCount token) :
      Fault setup token ⟨⟨stack, heap⟩, input, output⟩ .stackUnderflow
        ⟨⟨stack, heap⟩, input, output⟩
  | store {a stack heap input output} (opcode : token.opcode = .store)
      (outside : ¬ InLimit setup token) :
      Fault setup token ⟨⟨a :: stack, heap⟩, input, output⟩
        (.heapLimit ⟨token.index, Memory.effectiveLimit setup.heapLimit, "store"⟩)
        ⟨⟨a :: stack, heap⟩, input, output⟩
  | stores {world} (opcode : token.opcode = .stores) (outside : ¬ InLimit setup token) :
      Fault setup token world
        (.heapLimit ⟨token.index, Memory.effectiveLimit setup.heapLimit, "stores"⟩) world
  | load {stack heap input output} (opcode : token.opcode = .load)
      (missing : ∀ a, ¬ Holds heap token.index a) :
      Fault setup token ⟨⟨stack, heap⟩, input, output⟩ (.heapBounds ⟨token.index, heap.size⟩)
        ⟨⟨stack, heap⟩, input, output⟩
  | binary {operator left right error stack heap input output}
      (opcode : token.opcode = .binary operator)
      (applied : operator.apply left right = .error error) :
      Fault setup token ⟨⟨left :: right :: stack, heap⟩, input, output⟩ (.operands error)
        ⟨⟨stack, heap⟩, input, output⟩
  | lost {ending a cause stack heap input output} (prints : ending? token = some ending)
      (followed : Memory.follow ⟨stack, heap⟩ a = .error cause) :
      Fault setup token ⟨⟨a :: stack, heap⟩, input, output⟩ cause ⟨⟨stack, heap⟩, input, output⟩
  | undelivered {ending a value fault stack heap input output after}
      (prints : ending? token = some ending)
      (followed : Memory.follow ⟨stack, heap⟩ a = .ok value)
      (delivers : Delivers (value.text :: ending) output (some fault) after) :
      Fault setup token ⟨⟨a :: stack, heap⟩, input, output⟩ (.outputFault fault)
        ⟨⟨stack, heap⟩, input, after⟩
  | unflushed {fault memory input output after} (opcode : token.opcode = .call)
      (name : token.name = "readint") (before : Delivers [] output (some fault) after) :
      Fault setup token ⟨memory, input, output⟩ (.outputFault fault) ⟨memory, input, after⟩
  | inputEnded {memory input rest output after} (opcode : token.opcode = .call)
      (name : token.name = "readint") (before : Delivers [] output none after)
      (word : input.readWord = (.ended, rest)) :
      Fault setup token ⟨memory, input, output⟩ .inputEnded ⟨memory, rest, after⟩
  | inputFault {fault memory input rest output after} (opcode : token.opcode = .call)
      (name : token.name = "readint") (before : Delivers [] output none after)
      (word : input.readWord = (.failed fault, rest)) :
      Fault setup token ⟨memory, input, output⟩ (.inputFault fault) ⟨memory, rest, after⟩
  | notInteger {text error memory input rest output after} (opcode : token.opcode = .call)
      (name : token.name = "readint") (before : Delivers [] output none after)
      (word : input.readWord = (.word text, rest)) (other : readInt32 text = .error error) :
      Fault setup token ⟨memory, input, output⟩ (.notInteger text) ⟨memory, rest, after⟩
  | unflushedAgain {text value fault stack heap input rest output between after}
      (opcode : token.opcode = .call) (name : token.name = "readint")
      (before : Delivers [] output none between) (word : input.readWord = (.word text, rest))
      (integer : readInt32 text = .ok value) (delivers : Delivers [] between (some fault) after) :
      Fault setup token ⟨⟨stack, heap⟩, input, output⟩ (.outputFault fault)
        ⟨⟨.int value :: stack, heap⟩, rest, after⟩

/-! ## The whole table -/

/-- A state of the machine of the table. -/
structure State where
  /-- The active functions, innermost first, each with the position of its next instruction. -/
  places : List (Function × Int)
  world : World

/-- The instruction at a place. -/
def At (function : Function) (position : Int) (token : Token) : Prop :=
  0 ≤ position ∧ function.body.code[position.toNat]? = some token

/-- The names that no function of a program is called by. -/
def builtins : List String := ["print", "println", "readint"]

/-- An instruction that succeeds. -/
inductive Acts (setup : Setup) : State → State → Prop where
  | effect {function position rest token world after} (due : At function position token)
      (effect : Effect setup token world after) :
      Acts setup ⟨(function, position) :: rest, world⟩ ⟨(function, position + 1) :: rest, after⟩
  | goto {function position rest token world} {target : CodeIndex}
      (due : At function position token) (opcode : token.opcode = .goto)
      (leads : function.body.target? token.index = some target) :
      Acts setup ⟨(function, position) :: rest, world⟩ ⟨(function, target.toInt) :: rest, world⟩
  | branch {function position rest token condition stack heap input output} {target : CodeIndex}
      (due : At function position token) (opcode : token.opcode = .branch)
      (leads : function.body.target? token.index = some target) (nonzero : condition ≠ 0) :
      Acts setup
        ⟨(function, position) :: rest, ⟨⟨.int condition :: stack, heap⟩, input, output⟩⟩
        ⟨(function, target.toInt) :: rest, ⟨⟨stack, heap⟩, input, output⟩⟩
  | stay {function position rest token stack heap input output} {target : CodeIndex}
      (due : At function position token) (opcode : token.opcode = .branch)
      (leads : function.body.target? token.index = some target) :
      Acts setup ⟨(function, position) :: rest, ⟨⟨.int 0 :: stack, heap⟩, input, output⟩⟩
        ⟨(function, position + 1) :: rest, ⟨⟨stack, heap⟩, input, output⟩⟩
  | call {function position rest token callee world} (due : At function position token)
      (opcode : token.opcode = .call) (user : token.name ∉ builtins)
      (found : setup.program.lookup? token.name = some callee)
      (shallow : setup.maxDepth.toInt ≤ 0 ∨ (rest.length + 1 : Nat) < setup.maxDepth.toInt) :
      Acts setup ⟨(function, position) :: rest, world⟩
        ⟨(callee, 0) :: (function, position + 1) :: rest, world⟩

/-- An instruction that fails, and the world that it leaves. -/
inductive Fails (setup : Setup) : State → Token → Cause → World → Prop where
  | fault {function position rest token world cause after} (due : At function position token)
      (fault : Fault setup token world cause after) :
      Fails setup ⟨(function, position) :: rest, world⟩ token cause after
  | unknownLabel {function position rest token world} (due : At function position token)
      (opcode : token.opcode = .goto ∨ token.opcode = .branch)
      (nowhere : function.body.target? token.index = none) :
      Fails setup ⟨(function, position) :: rest, world⟩ token (.unknownLabel token.index) world
  | branchUnderflow {function position rest token heap input output} {target : CodeIndex}
      (due : At function position token) (opcode : token.opcode = .branch)
      (leads : function.body.target? token.index = some target) :
      Fails setup ⟨(function, position) :: rest, ⟨⟨[], heap⟩, input, output⟩⟩ token .stackUnderflow
        ⟨⟨[], heap⟩, input, output⟩
  | notCondition {function position rest token a stack heap input output} {target : CodeIndex}
      (due : At function position token) (opcode : token.opcode = .branch)
      (leads : function.body.target? token.index = some target) (other : ∀ n, a ≠ .int n) :
      Fails setup ⟨(function, position) :: rest, ⟨⟨a :: stack, heap⟩, input, output⟩⟩ token
        (.notCondition a) ⟨⟨stack, heap⟩, input, output⟩
  | unknownFunction {function position rest token world} (due : At function position token)
      (opcode : token.opcode = .call) (user : token.name ∉ builtins)
      (missing : setup.program.lookup? token.name = none) :
      Fails setup ⟨(function, position) :: rest, world⟩ token (.unknownFunction token.name) world
  | callDepth {function position rest token callee world} (due : At function position token)
      (opcode : token.opcode = .call) (user : token.name ∉ builtins)
      (found : setup.program.lookup? token.name = some callee) (limited : 0 < setup.maxDepth.toInt)
      (deep : setup.maxDepth.toInt ≤ (rest.length + 1 : Nat)) :
      Fails setup ⟨(function, position) :: rest, world⟩ token (.callDepth setup.maxDepth) world
  | invalid {function position rest token world} (due : At function position token)
      (other : token.opcode.isExecutable = false) :
      Fails setup ⟨(function, position) :: rest, world⟩ token (.invalidInstruction token.opcode)
        world

/-! ## What the memory and the output do -/

theorem stored_iff (m : Memory) (index : Nat) (a : Atom) (after : Array Atom) :
    Stored m.heap index a after ↔ after = (m.store index a).heap := by
  have length : (Memory.grow m.heap (index + 1)).size = max m.heap.size (index + 1) := by
    simp only [Memory.grow, Array.size_append, Array.size_replicate]
    omega
  have cell : ∀ other, other ≠ index → other < max m.heap.size (index + 1) →
      (m.store index a).heap[other]? = some (m.heap[other]?.getD .null) := by
    intro other different inRange
    simp only [Memory.store]
    rw [Array.getElem?_setIfInBounds_ne different.symm, Memory.grow, Array.getElem?_append]
    by_cases old : other < m.heap.size
    · rw [if_pos old, Array.getElem?_eq_getElem old, Option.getD_some]
    · rw [if_neg old, Array.getElem?_replicate, if_pos (by omega),
        Array.getElem?_eq_none (Nat.le_of_not_lt old), Option.getD_none]
  have size : (m.store index a).heap.size = max m.heap.size (index + 1) := by
    rw [Memory.store, Array.size_setIfInBounds, length]
  have slot : (m.store index a).heap[index]? = some a := by
    rw [Memory.store, Array.getElem?_setIfInBounds_self_of_lt]
    omega
  constructor
  · intro stored
    apply Array.ext_getElem?
    intro other
    by_cases same : other = index
    · rw [same, stored.slot, slot]
    by_cases inRange : other < after.size
    · rw [stored.others other same inRange, cell other same (stored.size ▸ inRange)]
    · rw [Array.getElem?_eq_none (Nat.le_of_not_lt inRange), Array.getElem?_eq_none]
      rw [size, ← stored.size]
      exact Nat.le_of_not_lt inRange
  · rintro rfl
    exact ⟨size, slot, fun other different inRange => cell other different (size ▸ inRange)⟩

theorem checkStore_eq_ok_iff (setup : Setup) (token : Token) (operation : String) :
    Memory.checkStore token.index setup.heapLimit operation = .ok () ↔ InLimit setup token := by
  unfold Memory.checkStore InLimit
  split <;> simp_all

theorem checkStore_eq_error {setup : Setup} {token : Token} (operation : String)
    (outside : ¬ InLimit setup token) :
    Memory.checkStore token.index setup.heapLimit operation =
      .error ⟨token.index, Memory.effectiveLimit setup.heapLimit, operation⟩ :=
  if_neg outside

theorem load_eq_ok_iff (m : Memory) (address : Int64) (a : Atom) :
    m.load address = .ok a ↔ Holds m.heap address a := by
  unfold Memory.load Memory.cell? Holds
  by_cases inRange : 0 ≤ address.toInt ∧ address.toInt.toNat < m.heap.size
  · rw [dif_pos inRange]
    simp only [Except.ok.injEq, inRange.1, true_and, Array.getElem?_eq_getElem inRange.2,
      Option.some.injEq]
    exact Iff.rfl
  · rw [dif_neg inRange]
    simp only [reduceCtorEq, false_iff, not_and]
    intro nonneg found
    obtain ⟨bound, -⟩ := Array.getElem?_eq_some_iff.mp found
    exact inRange ⟨nonneg, bound⟩

theorem load_eq_error_iff (m : Memory) (address : Int64) (error : BoundsError) :
    m.load address = .error error ↔
      (∀ a, ¬ Holds m.heap address a) ∧ error = ⟨address, m.heap.size⟩ := by
  cases loaded : m.load address with
  | ok a =>
      have holds := (load_eq_ok_iff m address a).mp loaded
      simp only [reduceCtorEq, false_iff, not_and]
      exact fun missing => absurd holds (missing a)
  | error found =>
      have same : found = ⟨address, m.heap.size⟩ := by
        unfold Memory.load at loaded
        split at loaded
        · cases loaded
        · cases loaded
          rfl
      have missing : ∀ a, ¬ Holds m.heap address a := by
        intro a holds
        rw [(load_eq_ok_iff m address a).mpr holds] at loaded
        cases loaded
      simp [missing, same, eq_comm]

/-- Writes texts in order and flushes the output. -/
def deliver : List String → World → World × Except Cause Unit
  | [], w => w.flush
  | text :: texts, w => andThen (w.emit text) fun _ w => deliver texts w

/-- What an instruction reports that has delivered something. -/
def delivery : Option WriteFault → Except Cause Unit
  | none => .ok ()
  | some fault => .error (.outputFault fault)

theorem Delivers.deliver_eq {texts : List String} {output after : Output}
    {fault : Option WriteFault} (delivers : Delivers texts output fault after) (memory : Memory)
    (input : Input) :
    deliver texts ⟨memory, input, output⟩ = (⟨memory, input, after⟩, delivery fault) := by
  induction delivers with
  | @flushed output after fault flush =>
      rw [deliver, World.flush, flush]
      cases fault <;> rfl
  | refused write =>
      rw [deliver, World.emit, write]
      rfl
  | written write rest ih =>
      rw [deliver, World.emit, write]
      exact ih

/-- Whatever the sinks do, a delivery comes to an end. -/
theorem exists_delivers (texts : List String) (output : Output) :
    ∃ fault after, Delivers texts output fault after := by
  induction texts generalizing output with
  | nil => exact ⟨_, _, .flushed rfl⟩
  | cons text texts ih =>
      rcases write : output.write text with ⟨⟨count, _ | fault⟩, between⟩
      · obtain ⟨fault, after, rest⟩ := ih between
        exact ⟨fault, after, .written write rest⟩
      · exact ⟨some fault, between, .refused write⟩

/-! ## Calls -/

section

variable (setup : Setup) (body : Body) (depth : Nat) {token : Token} (world : World)

theorem ending?_eq_some {ending : List String} (prints : ending? token = some ending) :
    token.opcode = .call ∧
      (token.name = "print" ∧ ending = [] ∨ token.name = "println" ∧ ending = ["\n"]) := by
  unfold ending? at prints
  split at prints
  · next isPrint =>
      cases prints
      exact ⟨isPrint.1, .inl ⟨isPrint.2, rfl⟩⟩
  · split at prints
    · next isPrintln =>
        cases prints
        exact ⟨isPrintln.1, .inr ⟨isPrintln.2, rfl⟩⟩
    · cases prints

/-- A call that prints takes an atom, follows it and delivers the value at the end. -/
theorem execute_of_prints {ending : List String} (prints : ending? token = some ending) :
    setup.execute body depth token world =
      match world.memory.stack with
      | [] => (world, .error .stackUnderflow)
      | a :: rest =>
          match (world.withStack rest).memory.follow a with
          | .error cause => (world.withStack rest, .error cause)
          | .ok value =>
              andThen (deliver (value.text :: ending) (world.withStack rest)) fun _ w =>
                (w, .ok .next) := by
  obtain ⟨opcode, ⟨name, rfl⟩ | ⟨name, rfl⟩⟩ := ending?_eq_some prints
  · simp only [Setup.execute, opcode, Setup.call, name, Primitive.ofName?, if_true, Primitive.run,
      Primitive.printing, List.foldl_nil]
    cases world.memory.stack with
    | nil => rfl
    | cons a rest =>
        dsimp only
        cases (world.withStack rest).memory.follow a <;> rfl
  · simp only [Setup.execute, opcode, Setup.call, name, Primitive.ofName?, if_true, Primitive.run,
      Primitive.printing, List.foldl_cons, List.foldl_nil]
    cases world.memory.stack with
    | nil => rfl
    | cons a rest =>
        dsimp only
        cases (world.withStack rest).memory.follow a with
        | error cause => rfl
        | ok value =>
            simp only [deliver]
            rcases (world.withStack rest).emit value.text with ⟨after, _ | ⟨⟩⟩ <;> rfl

/-- A call of `readint` flushes the output, reads a word and flushes again. -/
theorem execute_of_readint (opcode : token.opcode = .call) (name : token.name = "readint") :
    setup.execute body depth token world =
      andThen (deliver [] world) fun _ w =>
        match w.input.readWord with
        | (.ended, rest) => ({ w with input := rest }, .error .inputEnded)
        | (.failed fault, rest) => ({ w with input := rest }, .error (.inputFault fault))
        | (.word text, rest) =>
            match readInt32 text with
            | .error _ => ({ w with input := rest }, .error (.notInteger text))
            | .ok value =>
                andThen (deliver [] (World.push { w with input := rest } (.int value))) fun _ w =>
                  (w, .ok .next) := by
  have isReadint : Primitive.ofName? token.name = some .readint := by
    rw [name]
    rfl
  simp only [Setup.execute, opcode, Setup.call, isReadint, Primitive.run, Primitive.reading,
    deliver]
  rcases world.flush with ⟨flushed, _ | ⟨⟩⟩
  · rfl
  · rcases word : flushed.input.readWord with ⟨text | _ | _, rest⟩
    · simp only [andThen, word]
      cases readInt32 text <;> rfl
    · simp only [andThen, word]
    · simp only [andThen, word]

/-- A call of a name that is not built in is one of the first function of that name. -/
theorem execute_of_user (opcode : token.opcode = .call) (user : token.name ∉ builtins) :
    setup.execute body depth token world =
      match setup.program.lookup? token.name with
      | none => (world, .error (.unknownFunction token.name))
      | some callee =>
          if 0 < setup.maxDepth.toInt ∧ setup.maxDepth.toInt ≤ depth then
            (world, .error (.callDepth setup.maxDepth))
          else (world, .ok (.enter callee)) := by
  have others : Primitive.ofName? token.name = none := by
    simp only [builtins, List.mem_cons, List.not_mem_nil, or_false, not_or] at user
    obtain ⟨notPrint, notPrintln, notReadint⟩ := user
    rw [Primitive.ofName?, if_neg notPrint, if_neg notPrintln, if_neg notReadint]
  cases found : setup.program.lookup? token.name with
  | none => simp only [Setup.execute, opcode, Setup.call, others, found]
  | some callee => simp only [Setup.execute, opcode, Setup.call, others, found]

end

/-! ## Every row is a result -/

section

variable {setup : Setup} {token : Token} {world after : World}

/-- The rows that leave control alone are carried out as they stand. -/
theorem Effect.execute (effect : Effect setup token world after) (body : Body) (depth : Nat) :
    setup.execute body depth token world = (after, .ok .next) := by
  cases effect with
  | pushi opcode | pushf opcode | pop opcode | dup opcode | label opcode =>
      simp only [Setup.execute, opcode, World.push, Memory.push, World.withStack]
  | @store a stack heap after input output opcode inLimit stored =>
      rw [(stored_iff ⟨stack, heap⟩ _ a after).mp stored]
      simp only [Setup.execute, opcode, (checkStore_eq_ok_iff setup token "store").mpr inLimit]
      rfl
  | @stores stack heap after input output opcode inLimit stored =>
      rw [(stored_iff ⟨stack, heap⟩ _ _ after).mp stored]
      simp only [Setup.execute, opcode, (checkStore_eq_ok_iff setup token "stores").mpr inLimit]
      rfl
  | @load a stack heap input output opcode holds =>
      simp only [Setup.execute, opcode, (load_eq_ok_iff ⟨stack, heap⟩ token.index a).mpr holds]
      rfl
  | binary opcode applied =>
      simp only [Setup.execute, opcode, applied]
      rfl
  | printed prints followed delivers =>
      rw [execute_of_prints setup body depth _ prints]
      simp only [World.withStack, followed, delivers.deliver_eq]
      rfl
  | readint opcode name before word integer delivers =>
      rw [execute_of_readint setup body depth _ opcode name, before.deliver_eq]
      simp only [delivery, andThen, word, integer, World.push, Memory.push, delivers.deliver_eq]

theorem Fault.execute {cause : Cause} (fault : Fault setup token world cause after) (body : Body)
    (depth : Nat) : setup.execute body depth token world = (after, .error cause) := by
  cases fault with
  | @underflow stack heap input output few =>
      cases opcode : token.opcode with
      | pop | dup | store =>
          obtain rfl : stack = [] := by simpa [operandCount, opcode] using few
          simp only [Setup.execute, opcode]
      | binary operator =>
          simp only [operandCount, opcode] at few
          rcases stack with _ | ⟨left, _ | ⟨right, rest⟩⟩
          · simp only [Setup.execute, opcode]
          · simp only [Setup.execute, opcode]
          · simp at few
      | _ =>
          simp only [operandCount, opcode] at few
          obtain ⟨ending, prints⟩ : ∃ ending, ending? token = some ending := by
            rw [← Option.isSome_iff_exists]
            by_contra silent
            simp [silent] at few
          obtain rfl : stack = [] := by simpa [prints] using few
          rw [execute_of_prints setup body depth _ prints]
  | store opcode outside =>
      simp only [Setup.execute, opcode, checkStore_eq_error "store" outside]
  | stores opcode outside =>
      simp only [Setup.execute, opcode, checkStore_eq_error "stores" outside]
  | @load stack heap input output opcode missing =>
      have failed := (load_eq_error_iff ⟨stack, heap⟩ token.index _).mpr ⟨missing, rfl⟩
      simp only [Setup.execute, opcode, failed]
  | binary opcode applied =>
      simp only [Setup.execute, opcode, applied]
      rfl
  | lost prints followed =>
      rw [execute_of_prints setup body depth _ prints]
      simp only [World.withStack, followed]
  | undelivered prints followed delivers =>
      rw [execute_of_prints setup body depth _ prints]
      simp only [World.withStack, followed, delivers.deliver_eq]
      rfl
  | unflushed opcode name before =>
      rw [execute_of_readint setup body depth _ opcode name, before.deliver_eq]
      rfl
  | inputEnded opcode name before word | inputFault opcode name before word =>
      rw [execute_of_readint setup body depth _ opcode name, before.deliver_eq]
      simp only [delivery, andThen, word]
  | notInteger opcode name before word other =>
      rw [execute_of_readint setup body depth _ opcode name, before.deliver_eq]
      simp only [delivery, andThen, word, other]
  | unflushedAgain opcode name before word integer delivers =>
      rw [execute_of_readint setup body depth _ opcode name, before.deliver_eq]
      simp only [delivery, andThen, word, integer, World.push, Memory.push, delivers.deliver_eq]

end

section

variable {setup : Setup} {function : Function} {position : Int} {rest : List (Function × Int)}
  {token : Token} {world after : World}

/-- An instruction that succeeds by the table is executed so, and control goes where the table
says. -/
theorem Acts.execute {next : State} (acts : Acts setup ⟨(function, position) :: rest, world⟩ next) :
    ∃ token control, At function position token ∧
      setup.execute function.body (rest.length + 1) token world = (next.world, .ok control) ∧
      next.places = control.places function position rest := by
  cases acts with
  | @effect _ _ _ token _ after due effect =>
      exact ⟨token, .next, due, effect.execute function.body _, rfl⟩
  | @goto _ _ _ token _ target due opcode leads =>
      refine ⟨token, .jump target, due, ?_, rfl⟩
      simp only [Setup.execute, opcode, leads]
  | @branch _ _ _ token _ _ _ _ _ target due opcode leads nonzero =>
      refine ⟨token, .jump target, due, ?_, rfl⟩
      simp only [Setup.execute, opcode, leads, World.withStack, if_neg nonzero]
  | @stay _ _ _ token _ _ _ _ _ due opcode leads =>
      refine ⟨token, .next, due, ?_, rfl⟩
      simp only [Setup.execute, opcode, leads, World.withStack, if_true]
  | @call _ _ _ token callee _ due opcode user found shallow =>
      refine ⟨token, .enter callee, due, ?_, rfl⟩
      rw [execute_of_user setup function.body _ world opcode user, found]
      dsimp only
      rw [if_neg (by omega)]

/-- An instruction that fails by the table fails so when it is executed. -/
theorem Fails.execute {cause : Cause}
    (fails : Fails setup ⟨(function, position) :: rest, world⟩ token cause after) :
    At function position token ∧
      setup.execute function.body (rest.length + 1) token world = (after, .error cause) := by
  cases fails with
  | fault due fault => exact ⟨due, fault.execute function.body _⟩
  | unknownLabel due opcode nowhere =>
      refine ⟨due, ?_⟩
      rcases opcode with opcode | opcode <;> simp only [Setup.execute, opcode, nowhere]
  | branchUnderflow due opcode leads =>
      refine ⟨due, ?_⟩
      simp only [Setup.execute, opcode, leads]
  | @notCondition _ _ _ _ a _ _ _ _ _ due opcode leads other =>
      refine ⟨due, ?_⟩
      cases a with
      | int n => exact absurd rfl (other n)
      | null | ref | float | str | unknown =>
          simp only [Setup.execute, opcode, leads, World.withStack]
  | unknownFunction due opcode user missing =>
      refine ⟨due, ?_⟩
      rw [execute_of_user setup function.body _ world opcode user, missing]
  | callDepth due opcode user found limited deep =>
      refine ⟨due, ?_⟩
      rw [execute_of_user setup function.body _ world opcode user, found]
      exact if_pos ⟨limited, deep⟩
  | invalid due other =>
      refine ⟨due, ?_⟩
      cases opcode : token.opcode with
      | invalid | rawMark | classMark | functionMark | defun | endef | reserved =>
          simp only [Setup.execute, opcode]
      | pushi | pushf | pop | dup | load | store | stores | binary | call | label | goto | branch =>
          rw [opcode] at other
          cases other

end

/-! ## Every instruction has a row -/

/-- Some row that leaves control alone is about an instruction in a world. -/
def HasRow (setup : Setup) (token : Token) (world : World) : Prop :=
  (∃ after, Effect setup token world after) ∨ ∃ cause after, Fault setup token world cause after

section

variable (setup : Setup) {token : Token} (world : World)

theorem hasRow_of_prints {ending : List String} (prints : ending? token = some ending) :
    HasRow setup token world := by
  obtain ⟨⟨_ | ⟨a, stack⟩, heap⟩, input, output⟩ := world
  · refine .inr ⟨_, _, .underflow ?_⟩
    obtain ⟨opcode, -⟩ := ending?_eq_some prints
    simp [operandCount, opcode, prints]
  · cases followed : Memory.follow ⟨stack, heap⟩ a with
    | error cause => exact .inr ⟨_, _, .lost prints followed⟩
    | ok value =>
        obtain ⟨_ | fault, after, delivers⟩ := exists_delivers (value.text :: ending) output
        · exact .inl ⟨_, .printed prints followed delivers⟩
        · exact .inr ⟨_, _, .undelivered prints followed delivers⟩

theorem hasRow_of_readint (opcode : token.opcode = .call) (name : token.name = "readint") :
    HasRow setup token world := by
  obtain ⟨⟨stack, heap⟩, input, output⟩ := world
  obtain ⟨_ | fault, between, before⟩ := exists_delivers [] output
  · rcases word : input.readWord with ⟨text | _ | fault, rest⟩
    · cases read : readInt32 text with
      | error other => exact .inr ⟨_, _, .notInteger opcode name before word read⟩
      | ok value =>
          obtain ⟨_ | fault, after, delivers⟩ := exists_delivers [] between
          · exact .inl ⟨_, .readint opcode name before word read delivers⟩
          · exact .inr ⟨_, _, .unflushedAgain opcode name before word read delivers⟩
    · exact .inr ⟨_, _, .inputEnded opcode name before word⟩
    · exact .inr ⟨_, _, .inputFault opcode name before word⟩
  · exact .inr ⟨_, _, .unflushed opcode name before⟩

/-- An instruction that is no jump, no call of a function and not invalid has a row that leaves
control alone. -/
theorem hasRow_of_builtin (executable : token.opcode.isExecutable = true)
    (noJump : token.opcode ≠ .goto ∧ token.opcode ≠ .branch)
    (builtin : token.opcode = .call → token.name ∈ builtins) :
    HasRow setup token world := by
  cases opcode : token.opcode with
  | call =>
      have name := builtin opcode
      simp only [builtins, List.mem_cons, List.not_mem_nil, or_false] at name
      rcases name with name | name | name
      · have prints : ending? token = some [] := by simp [ending?, opcode, name]
        exact hasRow_of_prints setup world prints
      · have prints : ending? token = some ["\n"] := by simp [ending?, opcode, name]
        exact hasRow_of_prints setup world prints
      · exact hasRow_of_readint setup world opcode name
  | goto => exact absurd opcode noJump.1
  | branch => exact absurd opcode noJump.2
  | invalid | rawMark | classMark | functionMark | defun | endef | reserved =>
      rw [opcode] at executable
      cases executable
  | pushi => exact .inl ⟨_, .pushi opcode⟩
  | pushf => exact .inl ⟨_, .pushf opcode⟩
  | label => exact .inl ⟨_, .label opcode⟩
  | pop =>
      obtain ⟨⟨_ | ⟨a, stack⟩, heap⟩, input, output⟩ := world
      · exact .inr ⟨_, _, .underflow (by simp [operandCount, opcode])⟩
      · exact .inl ⟨_, .pop opcode⟩
  | dup =>
      obtain ⟨⟨_ | ⟨a, stack⟩, heap⟩, input, output⟩ := world
      · exact .inr ⟨_, _, .underflow (by simp [operandCount, opcode])⟩
      · exact .inl ⟨_, .dup opcode⟩
  | store =>
      obtain ⟨⟨_ | ⟨a, stack⟩, heap⟩, input, output⟩ := world
      · exact .inr ⟨_, _, .underflow (by simp [operandCount, opcode])⟩
      · by_cases inLimit : InLimit setup token
        · exact .inl ⟨_, .store opcode inLimit ((stored_iff ⟨stack, heap⟩ _ a _).mpr rfl)⟩
        · exact .inr ⟨_, _, .store opcode inLimit⟩
  | stores =>
      obtain ⟨⟨stack, heap⟩, input, output⟩ := world
      by_cases inLimit : InLimit setup token
      · exact .inl ⟨_, .stores opcode inLimit ((stored_iff ⟨stack, heap⟩ _ _ _).mpr rfl)⟩
      · exact .inr ⟨_, _, .stores opcode inLimit⟩
  | load =>
      obtain ⟨⟨stack, heap⟩, input, output⟩ := world
      by_cases found : ∃ a, Holds heap token.index a
      · obtain ⟨a, holds⟩ := found
        exact .inl ⟨_, .load opcode holds⟩
      · exact .inr ⟨_, _, .load opcode (not_exists.mp found)⟩
  | binary operator =>
      obtain ⟨⟨_ | ⟨left, _ | ⟨right, stack⟩⟩, heap⟩, input, output⟩ := world
      · exact .inr ⟨_, _, .underflow (by simp [operandCount, opcode])⟩
      · exact .inr ⟨_, _, .underflow (by simp [operandCount, opcode])⟩
      · cases applied : operator.apply left right with
        | ok value => exact .inl ⟨_, .binary opcode applied⟩
        | error error => exact .inr ⟨_, _, .binary opcode applied⟩

/-- Every instruction succeeds by the table or fails by it. -/
theorem acts_or_fails {function : Function} {position : Int} (due : At function position token)
    (rest : List (Function × Int)) :
    (∃ next, Acts setup ⟨(function, position) :: rest, world⟩ next) ∨
      ∃ cause after, Fails setup ⟨(function, position) :: rest, world⟩ token cause after := by
  by_cases executable : token.opcode.isExecutable = true
  case neg => exact .inr ⟨_, _, .invalid due (by simpa using executable)⟩
  by_cases jump : token.opcode = .goto ∨ token.opcode = .branch
  · cases leads : function.body.target? token.index with
    | none => exact .inr ⟨_, _, .unknownLabel due jump leads⟩
    | some target =>
        rcases jump with opcode | opcode
        · exact .inl ⟨_, .goto due opcode leads⟩
        · obtain ⟨⟨_ | ⟨a, stack⟩, heap⟩, input, output⟩ := world
          · exact .inr ⟨_, _, .branchUnderflow due opcode leads⟩
          · by_cases integer : ∃ n, a = .int n
            · obtain ⟨n, rfl⟩ := integer
              by_cases zero : n = 0
              · subst zero
                exact .inl ⟨_, .stay due opcode leads⟩
              · exact .inl ⟨_, .branch due opcode leads zero⟩
            · exact .inr ⟨_, _, .notCondition due opcode leads (not_exists.mp integer)⟩
  by_cases user : token.opcode = .call ∧ token.name ∉ builtins
  · obtain ⟨opcode, user⟩ := user
    cases found : setup.program.lookup? token.name with
    | none => exact .inr ⟨_, _, .unknownFunction due opcode user found⟩
    | some callee =>
        by_cases deep : 0 < setup.maxDepth.toInt ∧
            setup.maxDepth.toInt ≤ (rest.length + 1 : Nat)
        · exact .inr ⟨_, _, .callDepth due opcode user found deep.1 deep.2⟩
        · exact .inl ⟨_, .call due opcode user found (by omega)⟩
  · rcases hasRow_of_builtin setup world executable (not_or.mp jump)
      (fun opcode => not_not.mp fun other => user ⟨opcode, other⟩) with
      ⟨after, effect⟩ | ⟨cause, after, fault⟩
    · exact .inl ⟨_, .effect due effect⟩
    · exact .inr ⟨_, _, .fault due fault⟩

end

section

variable {setup : Setup} {function : Function} {position : Int} {rest : List (Function × Int)}
  {token : Token} {world after : World}

theorem At.eq {other : Token} (due : At function position token)
    (dueToo : At function position other) : token = other :=
  Option.some.inj (due.2.symm.trans dueToo.2)

/-- An instruction that succeeds does so by the table. -/
theorem acts_of_execute (due : At function position token) {control : Control}
    (executed : setup.execute function.body (rest.length + 1) token world = (after, .ok control)) :
    Acts setup ⟨(function, position) :: rest, world⟩
      ⟨control.places function position rest, after⟩ := by
  rcases acts_or_fails setup world due rest with ⟨⟨places, world⟩, acts⟩ | ⟨cause, left, fails⟩
  · obtain ⟨found, other, dueToo, executedToo, rfl⟩ := acts.execute
    cases due.eq dueToo
    cases executed.symm.trans executedToo
    exact acts
  · cases executed.symm.trans fails.execute.2

/-- An instruction that fails does so by the table. -/
theorem fails_of_execute (due : At function position token) {cause : Cause}
    (executed : setup.execute function.body (rest.length + 1) token world = (after, .error cause)) :
    Fails setup ⟨(function, position) :: rest, world⟩ token cause after := by
  rcases acts_or_fails setup world due rest with ⟨next, acts⟩ | ⟨found, left, fails⟩
  · obtain ⟨other, control, dueToo, executedToo, -⟩ := acts.execute
    cases due.eq dueToo
    cases executed.symm.trans executedToo
  · cases executed.symm.trans fails.execute.2
    exact fails

end

end Table

end StackMachine
