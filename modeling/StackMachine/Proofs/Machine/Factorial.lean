import Mathlib
import StackMachine.Proofs.Atom.Comparison
import StackMachine.Proofs.Machine.Readback
import StackMachine.Proofs.Machine.Refinement
import StackMachine.Proofs.Source.Concatenation

/-!
# A program that computes factorials

A text is followed through everything that happens to it.  It is read line by line into the tokens
of a program and assembled (`Factorial.assemble_text`).  The function that it declares counts its
argument down to zero in the first slot of the heap and multiplies the product in the second slot by
each count; what one round of this loop does (`Factorial.goes_round`) gives what the loop does by
induction on the count (`Factorial.goes_loop`).  The run as a whole is `Machine.run_factorial`.

A part of a run that ends no activation is a chain of rows of the table of opcodes (`Table.Goes`),
and straight code is such a chain (`Table.goes_of_effects`).
-/

namespace StackMachine

/-! ## Parts of a run -/

namespace Table

/-- A state leads to another by so many instructions. -/
inductive Goes (setup : Setup) : Nat → State → State → Prop where
  | refl {state : State} : Goes setup 0 state state
  | step {count : Nat} {state next last : State} (acts : Acts setup state next)
      (later : Goes setup count next last) : Goes setup (count + 1) state last

namespace Goes

variable {setup : Setup} {count more : Nat} {state next last : State}

theorem single (acts : Acts setup state next) : Goes setup 1 state next :=
  .step acts .refl

theorem trans (goes : Goes setup count state next) (later : Goes setup more next last) :
    Goes setup (count + more) state last := by
  induction goes with
  | refl =>
      rw [Nat.zero_add]
      exact later
  | step acts _ ih =>
      rw [Nat.add_right_comm]
      exact .step acts (ih later)

/-- A run comes to the end to which it comes from a later state. -/
theorem ends {setup : RunSetup} {fuel : Nat} {outcome : RunState.Outcome}
    (goes : Goes setup.toSetup count state next) (later : Ends setup fuel next outcome) :
    Ends setup (count + fuel) state outcome := by
  induction goes with
  | refl =>
      rw [Nat.zero_add]
      exact later
  | step acts _ ih =>
      rw [Nat.add_right_comm]
      exact .acted acts (ih later)

end Goes

/-- Straight code is executed one instruction after the other. -/
theorem goes_of_effects {setup : Setup} {tokens : List Token} {world after : World}
    (effects : Effects setup tokens world after) {function : Function} {position : Nat}
    (due : tokens <+: function.body.code.toList.drop position) (rest : List (Function × Int)) :
    Goes setup tokens.length ⟨(function, position) :: rest, world⟩
      ⟨(function, ↑(position + tokens.length)) :: rest, after⟩ := by
  induction effects generalizing position with
  | nil => exact .refl
  | @cons token tokens world between after first _ ih =>
      obtain ⟨later, isCode⟩ := due
      have here : function.body.code[position]? = some token := by
        rw [← Array.getElem?_toList, ← List.head?_drop, ← isCode]
        rfl
      have behind : tokens <+: function.body.code.toList.drop (position + 1) := by
        refine ⟨later, ?_⟩
        rw [← List.tail_drop, ← isCode]
        rfl
      have goes := ih behind
      rw [Nat.add_assoc, Nat.add_comm 1] at goes
      exact .step (.effect ⟨Int.natCast_nonneg position, here⟩ first) goes

end Table

namespace Factorial

/-! ## The text and its program -/

/-- A function that leaves the factorial of its argument on the stack. -/
def functionText : String :=
  "defun fact 1 int int
  store 0          ; n
  pushi 1 store 1  ; acc
  label 1
  pushi 0 load 0 gt
  branch 2
  load 1
  goto 3
  label 2
  load 0 load 1 mul store 1
  pushi 1 load 0 sub store 0
  goto 1
  label 3
"

/-- A program that applies the function to an integer. -/
def text (n : Int32) : String :=
  ".raw\n.class\n.function\n" ++ functionText ++ "\n\nendef\n" ++
    "defun main 0 NULL\n" ++ "pushi " ++ toString n.toInt ++ " call fact" ++ "\nendef\n"

def header : Token :=
  { opcode := .defun, name := "fact", params := [⟨.int, ""⟩], result := ⟨.int, ""⟩ }

/-- The lines of the body of the function with their tokens. -/
def bodyLines : List (String × List Token) :=
  [("  store 0          ; n", [{ opcode := .store, index := 0 }]),
    ("  pushi 1 store 1  ; acc",
      [{ opcode := .pushi, int := 1 }, { opcode := .store, index := 1 }]),
    ("  label 1", [{ opcode := .label, index := 1 }]),
    ("  pushi 0 load 0 gt",
      [{ opcode := .pushi, int := 0 }, { opcode := .load, index := 0 }, { opcode := .binary .gt }]),
    ("  branch 2", [{ opcode := .branch, index := 2 }]),
    ("  load 1", [{ opcode := .load, index := 1 }]),
    ("  goto 3", [{ opcode := .goto, index := 3 }]),
    ("  label 2", [{ opcode := .label, index := 2 }]),
    ("  load 0 load 1 mul store 1",
      [{ opcode := .load, index := 0 }, { opcode := .load, index := 1 }, { opcode := .binary .mul },
        { opcode := .store, index := 1 }]),
    ("  pushi 1 load 0 sub store 0",
      [{ opcode := .pushi, int := 1 }, { opcode := .load, index := 0 }, { opcode := .binary .sub },
        { opcode := .store, index := 0 }]),
    ("  goto 1", [{ opcode := .goto, index := 1 }]),
    ("  label 3", [{ opcode := .label, index := 3 }])]

def functionLines : List (String × List Token) :=
  ("defun fact 1 int int", [header]) :: bodyLines

/-- The lines up to the code of `main`. -/
def frontLines : List (String × List Token) :=
  [(".raw", [{ opcode := .rawMark }]), (".class", [{ opcode := .classMark }]),
    (".function", [{ opcode := .functionMark }])] ++ functionLines ++
  [("", []), ("", []), ("endef", [{ opcode := .endef }]),
    ("defun main 0 NULL", [{ opcode := .defun, name := "main" }])]

/-- The code of `main`. -/
def mainCode (n : Int32) : List Token :=
  [{ opcode := .pushi, int := n }, { opcode := .call, name := "fact" }]

/-- The lines of the whole text. -/
def lines (n : Int32) : List (String × List Token) :=
  frontLines ++
    [("pushi " ++ toString n.toInt ++ " call fact", mainCode n), ("endef", [{ opcode := .endef }])]

/-- The function that the text declares. -/
def fact : Function := Assembly.function header (bodyLines.flatMap Prod.snd)

/-- The `main` of the text. -/
def main (n : Int32) : Function :=
  Assembly.function { opcode := .defun, name := "main" } (mainCode n)

/-- The program of the text. -/
def program (n : Int32) : Program where
  functions? := some [fact, main n]

/-- The tokens of the lines are laid out as the program. -/
theorem exists_layout (n : Int32) :
    ∃ layout : Assembly.Layout, layout.tokens = (lines n).flatMap Prod.snd ∧
      layout.program = program n := by
  have inBody : ∀ token ∈ mainCode n, Assembly.InBody token := by
    simp [mainCode, Assembly.InBody, Opcode.isStructural]
  exact ⟨{
      raw := { opcode := .rawMark }
      classes := { opcode := .classMark }
      functions := { opcode := .functionMark }
      isRaw := rfl
      isClasses := rfl
      isFunctions := rfl
      definitions :=
        [⟨header, bodyLines.flatMap Prod.snd, { opcode := .endef }, rfl, by decide, rfl⟩,
          ⟨{ opcode := .defun, name := "main" }, mainCode n, { opcode := .endef }, rfl, inBody,
            rfl⟩] },
    rfl, rfl⟩

theorem toList_functionText :
    functionText.toList = functionLines.flatMap fun line => line.1.toList ++ ['\n'] := by
  have joined : functionText = String.join (functionLines.map fun line => line.1 ++ "\n") := by
    decide +kernel
  rw [joined, String.toList_join, List.flatMap_map]
  simp only [String.toList_append]
  rfl

theorem toList_text (n : Int32) :
    (text n).toList = (lines n).flatMap fun line => line.1.toList ++ ['\n'] := by
  -- The characters of the function stay those of its lines; only the short pieces are spelled out.
  unfold text
  simp only [String.toList_append, toList_functionText, lines, frontLines, List.flatMap_append]
  simp

theorem spells_frontLines : ∀ line ∈ frontLines, Spells (line.1.toList ++ ['\n']) line.2 := by
  simp only [spells_iff ""]
  decide +kernel

/-- The line of `main` that pushes the integer and calls the function. -/
theorem spells_call (n : Int32) :
    Spells (("pushi " ++ toString n.toInt ++ " call fact").toList ++ ['\n']) (mainCode n) := by
  let words := [("pushi", ' '), (toString n.toInt, ' '), ("call", ' '), ("fact", '\n')]
  have integer : ReadsBare (toString n.toInt) := readsBare_toString_int n.toInt
  have each : ∀ word ∈ words, ReadsBare word.1 ∧ isSeparator word.2 = true := by
    simp only [words, List.forall_mem_cons, List.not_mem_nil, false_implies, implies_true, integer]
    simp [ReadsBare, IsBare, isSeparator]
  have spelled : Token.Spelled (mainCode n) (words.map Prod.fst) :=
    .cons rfl (.int (readInt32_toString n)) (.cons rfl .call .nil)
  have isText : ("pushi " ++ toString n.toInt ++ " call fact").toList ++ ['\n'] =
      words.flatMap fun word => word.1.toList ++ [word.2] := by
    simp [words]
  rw [isText]
  exact spells_bareWords each spelled

/-- The text spells the tokens of its lines. -/
theorem spells_text (n : Int32) : Spells (text n).toList ((lines n).flatMap Prod.snd) := by
  have ending : Spells ("endef".toList ++ ['\n']) [{ opcode := .endef }] :=
    (spells_iff "" _ _).mpr (by decide +kernel)
  have each : ∀ line ∈ lines n, Spells (line.1.toList ++ ['\n']) line.2 := by
    refine List.forall_mem_append.mpr ⟨spells_frontLines, ?_⟩
    exact List.forall_mem_cons.mpr ⟨spells_call n, List.forall_mem_singleton.mpr ending⟩
  rw [toList_text]
  exact spells_lines each

/-- The text is assembled. -/
theorem assemble_text (name : String) (n : Int32) :
    (Source.mk name (.ofBytes (Utf8.encode (text n)))).assemble = .ok (program n) := by
  obtain ⟨layout, tokens, isProgram⟩ := exists_layout n
  have spells := spells_text n
  rw [← tokens] at spells
  rw [Input.ofBytes, Utf8.decode_encode, ← isProgram]
  exact spells.assemble name

/-! ## The loop -/

/-- A counter above zero is less by one in the next round. -/
theorem toInt_sub_one {k : Int32} (positive : 0 < k.toInt) : (k - 1).toInt = k.toInt - 1 := by
  have upper : k.toInt < 2 ^ 31 := k.toInt_lt
  have one : (1 : Int32).toInt = 1 := rfl
  rw [Int32.toInt_sub, one]
  exact Int.bmod_eq_of_le (by omega) (by omega)

/-- The product of the counts from some integer down to one. -/
def product (k : Int32) : Int32 := .ofNat k.toInt.toNat.factorial

theorem toInt_product_modEq (k : Int32) :
    (product k).toInt ≡ k.toInt.toNat.factorial [ZMOD 2 ^ 32] := by
  rw [product, Int32.toInt_ofNat']
  exact Int.bmod_emod

theorem product_of_not_pos {k : Int32} (notPositive : k.toInt ≤ 0) : product k = 1 := by
  rw [product, Int.toNat_of_nonpos notPositive]
  rfl

theorem product_of_pos {k : Int32} (positive : 0 < k.toInt) :
    product k = k * product (k - 1) := by
  have count : k.toInt.toNat = (k - 1).toInt.toNat + 1 := by
    rw [toInt_sub_one positive]
    omega
  have isCount : Int32.ofNat k.toInt.toNat = k := by
    rw [← Int32.ofInt_eq_ofNat, Int.toNat_of_nonneg positive.le, Int32.ofInt_toInt]
  calc
    product k = .ofNat (((k - 1).toInt.toNat + 1) * (k - 1).toInt.toNat.factorial) := by
      rw [product, count, Nat.factorial_succ]
    _ = k * product (k - 1) := by rw [Int32.ofNat_mul, ← count, isCount, product]

theorem min_zero_of_nonneg {k : Int32} (nonneg : 0 ≤ k.toInt) : min k 0 = 0 := by
  refine ite_eq_right_iff.mpr fun least => ?_
  have notPositive : k.toInt ≤ 0 := Int32.le_iff_toInt_le.mp least
  exact Int32.toInt_inj.mp (Int.le_antisymm notPositive nonneg)

section Loop

open Table

variable {setup : Setup}

theorem one_lt_effectiveLimit {setting : Int64} (notOne : setting ≠ 1) :
    1 < Memory.effectiveLimit setting := by
  have other : setting.toInt ≠ 1 := fun isOne => notOne (Int64.toInt_inj.mp isOne)
  unfold Memory.effectiveLimit Memory.maxHeap
  split <;> omega

/-- Puts on the stack whether the counter is positive. -/
def testCode : List Token :=
  [{ opcode := .label, index := 1 }, { opcode := .pushi, int := 0 },
    { opcode := .load, index := 0 }, { opcode := .binary .gt }]

/-- Multiplies the product by the counter and counts down. -/
def roundCode : List Token :=
  [{ opcode := .label, index := 2 }, { opcode := .load, index := 0 },
    { opcode := .load, index := 1 }, { opcode := .binary .mul }, { opcode := .store, index := 1 },
    { opcode := .pushi, int := 1 }, { opcode := .load, index := 0 }, { opcode := .binary .sub },
    { opcode := .store, index := 0 }]

theorem effects_testCode (stack : List Atom) (k acc : Int32) (input : Input) (output : Output) :
    Effects setup testCode ⟨⟨stack, #[.int k, .int acc]⟩, input, output⟩
      ⟨⟨.ofBool (compare k 0).isGT :: stack, #[.int k, .int acc]⟩, input, output⟩ :=
  .cons (.label rfl) (.cons (.pushi rfl) (.cons (.load rfl ⟨by decide, rfl⟩)
    (.cons (.binary rfl rfl) .nil)))

section

variable (notOne : setup.heapLimit ≠ 1)

include notOne

/-- The slots of the heap that the function uses are within the limit. -/
theorem inLimit {token : Token} (isSlot : token.index = 0 ∨ token.index = 1) :
    InLimit setup token := by
  have limit := one_lt_effectiveLimit notOne
  rcases isSlot with isSlot | isSlot <;> rw [InLimit, isSlot]
  · exact ⟨by decide, by change (0 : Int) < _; omega⟩
  · exact ⟨by decide, by change (1 : Int) < _; omega⟩

theorem effects_roundCode (stack : List Atom) (k acc : Int32) (input : Input) (output : Output) :
    Effects setup roundCode ⟨⟨stack, #[.int k, .int acc]⟩, input, output⟩
      ⟨⟨stack, #[.int (k - 1), .int (acc * k)]⟩, input, output⟩ := by
  have multiplied : Stored #[.int k, .int acc] 1 (.int (acc * k)) #[.int k, .int (acc * k)] :=
    (stored_iff ⟨stack, _⟩ 1 _ _).mpr rfl
  have counted : Stored #[.int k, .int (acc * k)] 0 (.int (k - 1))
      #[.int (k - 1), .int (acc * k)] := (stored_iff ⟨stack, _⟩ 0 _ _).mpr rfl
  exact .cons (.label rfl) (.cons (.load rfl ⟨by decide, rfl⟩) (.cons (.load rfl ⟨by decide, rfl⟩)
    (.cons (.binary rfl rfl) (.cons (.store rfl (inLimit notOne (.inr rfl)) multiplied)
      (.cons (.pushi rfl) (.cons (.load rfl ⟨by decide, rfl⟩) (.cons (.binary rfl rfl)
        (.cons (.store rfl (inLimit notOne (.inl rfl)) counted) .nil))))))))

end

variable (rest : List (Function × Int)) (input : Input) (output : Output)

/-- The function at one of its positions, with a counter and a product on the heap. -/
def stateAt (position : Nat) (stack : List Atom) (k acc : Int32) : State :=
  ⟨(fact, position) :: rest, ⟨⟨stack, #[.int k, .int acc]⟩, input, output⟩⟩

theorem isGT_compare_zero (k : Int32) : (compare k 0).isGT = decide (0 < k.toInt) := by
  rw [compare_toInt, Bool.eq_iff_iff, Ordering.isGT_iff_eq_gt, compare_gt_iff_gt,
    decide_eq_true_iff]
  rfl

theorem goes_test (stack : List Atom) (k acc : Int32) :
    Goes setup 4 (stateAt rest input output 3 stack k acc)
      (stateAt rest input output 7 (.ofBool (decide (0 < k.toInt)) :: stack) k acc) := by
  rw [← isGT_compare_zero]
  exact goes_of_effects (effects_testCode stack k acc input output) ⟨_, rfl⟩ rest

/-- A jump of the function to one of its labels. -/
theorem acts_goto (stack : List Atom) (k acc : Int32) {position target : Nat} {id : Int64}
    (due : fact.body.code[position]? = some { opcode := .goto, index := id })
    (leads : fact.body.target? id = some ⟨target⟩) :
    Acts setup (stateAt rest input output position stack k acc)
      (stateAt rest input output target stack k acc) :=
  .goto ⟨Int.natCast_nonneg position, due⟩ rfl leads

/-- With a positive counter the loop makes a round. -/
theorem goes_round (notOne : setup.heapLimit ≠ 1) (stack : List Atom) {k : Int32} (acc : Int32)
    (positive : 0 < k.toInt) :
    Goes setup 15 (stateAt rest input output 3 stack k acc)
      (stateAt rest input output 3 stack (k - 1) (acc * k)) := by
  have test : Goes setup 4 _ _ := goes_test rest input output stack k acc
  rw [decide_eq_true positive] at test
  have branch : Acts setup (stateAt rest input output 7 (.ofBool true :: stack) k acc)
      (stateAt rest input output 10 stack k acc) :=
    @Acts.branch setup fact 7 rest { opcode := .branch, index := 2 } 1 stack _ input output ⟨10⟩
      ⟨by decide, rfl⟩ rfl rfl (by decide)
  have round : Goes setup 9 (stateAt rest input output 10 stack k acc)
      (stateAt rest input output 19 stack (k - 1) (acc * k)) :=
    goes_of_effects (effects_roundCode notOne stack k acc input output) ⟨_, rfl⟩ rest
  have again : Acts setup (stateAt rest input output 19 stack (k - 1) (acc * k))
      (stateAt rest input output 3 stack (k - 1) (acc * k)) :=
    acts_goto rest input output stack _ _ rfl rfl
  exact test.trans ((Goes.single branch).trans (round.trans (.single again)))

/-- With any other counter the loop ends, and the product is on the stack. -/
theorem goes_exit (stack : List Atom) {k : Int32} (acc : Int32) (notPositive : k.toInt ≤ 0) :
    Goes setup 8 (stateAt rest input output 3 stack k acc)
      (stateAt rest input output 21 (.int acc :: stack) k acc) := by
  have test : Goes setup 4 _ _ := goes_test rest input output stack k acc
  rw [decide_eq_false (Int.not_lt.mpr notPositive)] at test
  have stay : Acts setup (stateAt rest input output 7 (.ofBool false :: stack) k acc)
      (stateAt rest input output 8 stack k acc) :=
    @Acts.stay setup fact 7 rest { opcode := .branch, index := 2 } stack _ input output ⟨10⟩
      ⟨by decide, rfl⟩ rfl rfl
  have load : Acts setup (stateAt rest input output 8 stack k acc)
      (stateAt rest input output 9 (.int acc :: stack) k acc) :=
    .effect (show At fact 8 { opcode := .load, index := 1 } from ⟨by decide, rfl⟩)
      (.load rfl ⟨by decide, rfl⟩)
  have leave : Acts setup (stateAt rest input output 9 (.int acc :: stack) k acc)
      (stateAt rest input output 20 (.int acc :: stack) k acc) :=
    acts_goto rest input output _ _ _ rfl rfl
  have label : Acts setup (stateAt rest input output 20 (.int acc :: stack) k acc)
      (stateAt rest input output 21 (.int acc :: stack) k acc) :=
    .effect (show At fact 20 { opcode := .label, index := 3 } from ⟨by decide, rfl⟩) (.label rfl)
  exact test.trans (.step stay (.step load (.step leave (.single label))))

/-- The loop multiplies the product by all counts. -/
theorem goes_loop (notOne : setup.heapLimit ≠ 1) (stack : List Atom) (k acc : Int32) :
    Goes setup (15 * k.toInt.toNat + 8) (stateAt rest input output 3 stack k acc)
      (stateAt rest input output 21 (.int (acc * product k) :: stack) (min k 0)
        (acc * product k)) := by
  -- Along the count: each round takes one from it and passes its factor on to the product.
  generalize isCount : k.toInt.toNat = count
  induction count generalizing k acc with
  | zero =>
      have notPositive : k.toInt ≤ 0 := by omega
      have least : min k 0 = k := if_pos (Int32.le_iff_toInt_le.mpr notPositive)
      rw [product_of_not_pos notPositive, Int32.mul_one, least]
      exact goes_exit rest input output stack acc notPositive
  | succ count ih =>
      have positive : 0 < k.toInt := by omega
      have less := toInt_sub_one positive
      have least : min (k - 1) 0 = min k 0 := by
        rw [min_zero_of_nonneg positive.le, min_zero_of_nonneg (by omega)]
      have later := ih (k - 1) (acc * k) (by omega)
      rw [Int32.mul_assoc, ← product_of_pos positive, least] at later
      have goes := (goes_round rest input output notOne stack acc positive).trans later
      rwa [← Nat.add_assoc, Nat.add_comm 15, ← Nat.mul_succ] at goes

/-- The function sets up its loop. -/
theorem goes_start (notOne : setup.heapLimit ≠ 1) (n : Int32) :
    Goes setup 3 ⟨(fact, 0) :: rest, ⟨⟨[.int n], #[]⟩, input, output⟩⟩
      (stateAt rest input output 3 [] n 1) := by
  have counter : Stored #[] 0 (.int n) #[.int n] := (stored_iff {} 0 _ _).mpr rfl
  have one : Stored #[.int n] 1 (.int 1) #[.int n, .int 1] :=
    (stored_iff ⟨[], #[.int n]⟩ 1 _ _).mpr rfl
  have effects : Effects setup
      [{ opcode := .store, index := 0 }, { opcode := .pushi, int := 1 },
        { opcode := .store, index := 1 }]
      ⟨⟨[.int n], #[]⟩, input, output⟩ ⟨⟨[], #[.int n, .int 1]⟩, input, output⟩ :=
    .cons (.store rfl (inLimit notOne (.inl rfl)) counter) (.cons (.pushi rfl)
      (.cons (.store rfl (inLimit notOne (.inr rfl)) one) .nil))
  exact @goes_of_effects setup _ _ _ effects fact 0 ⟨_, rfl⟩ rest

/-- The run from the beginning of `main` to the end of the function. -/
theorem goes_main (n : Int32) (isProgram : setup.program = program n)
    (notOne : setup.heapLimit ≠ 1) (nests : setup.maxDepth ≠ 1) :
    Goes setup (13 + 15 * n.toInt.toNat) ⟨[(main n, 0)], ⟨{}, input, output⟩⟩
      (stateAt [(main n, 2)] input output 21 [.int (product n)] (min n 0) (product n)) := by
  have shallow : setup.maxDepth.toInt ≤ 0 ∨ (([] : List (Function × Int)).length + 1 : Nat) <
      setup.maxDepth.toInt := by
    have other : setup.maxDepth.toInt ≠ 1 := fun isOne => nests (Int64.toInt_inj.mp isOne)
    simp only [List.length_nil]
    omega
  have found : setup.program.lookup? "fact" = some fact := by
    rw [isProgram]
    rfl
  have push : Acts setup ⟨[(main n, 0)], ⟨{}, input, output⟩⟩
      ⟨[(main n, 1)], ⟨⟨[.int n], #[]⟩, input, output⟩⟩ :=
    .effect (show At (main n) 0 { opcode := .pushi, int := n } from ⟨by decide, rfl⟩) (.pushi rfl)
  have call : Acts setup ⟨[(main n, 1)], ⟨⟨[.int n], #[]⟩, input, output⟩⟩
      ⟨[(fact, 0), (main n, 2)], ⟨⟨[.int n], #[]⟩, input, output⟩⟩ :=
    .call (show At (main n) 1 { opcode := .call, name := "fact" } from ⟨by decide, rfl⟩) rfl
      (by decide) found shallow
  have loop : Goes setup _ _ _ := goes_loop [(main n, 2)] input output notOne [] n 1
  rw [Int32.one_mul] at loop
  have goes := Goes.step push (.step call ((goes_start _ input output notOne n).trans loop))
  have count : 3 + (15 * n.toInt.toNat + 8) + 1 + 1 = 13 + 15 * n.toInt.toNat := by omega
  rwa [count] at goes

end Loop

end Factorial

namespace Machine

/-- A run that comes to its end by the table is reported as such. -/
theorem run_of_ends {machine : Machine} {fuel left : Nat} {world : World}
    (accepts : machine.setup.LogAccepts)
    (ends : Table.Ends machine.setup fuel machine.firstState ⟨world, .finished, left⟩)
    (delivers : world.output.flush.1 = none) :
    (machine.run fuel).1.failure = none ∧ (machine.run fuel).2.memory = world.memory := by
  rw [Table.ends_iff, toRun_firstState, ← outcome_execution accepts] at ends
  obtain ⟨isWorld, isHalt, -⟩ := RunState.Outcome.mk.inj ends
  have failure : (machine.run fuel).1.failure =
      failureOf (machine.execution fuel).halt (machine.execution fuel).state.world.output.flush.1 :=
    rfl
  rw [failure, ← isHalt, ← isWorld, delivers]
  exact ⟨rfl, congrArg World.memory isWorld.symm⟩

/-- Nothing keeps a machine from nesting two activations and using two slots of the heap, from
keeping its log, or from delivering the output that it still holds. -/
structure Unhindered (machine : Machine) : Prop where
  accepts : machine.setup.LogAccepts
  nests : machine.setup.maxDepth ≠ 1
  stores : machine.setup.heapLimit ≠ 1
  delivers : machine.output.flush.1 = none

theorem unhindered_new (program : Program) (sinks : Sinks) : (new program sinks []).Unhindered where
  accepts := fun tracer isTracer => by cases isTracer
  nests := show (0 : Int64) ≠ 1 by decide
  stores := show (0 : Int64) ≠ 1 by decide
  delivers := rfl

open Factorial in
/-- The text is assembled, and a machine that runs its program with enough fuel is left with one
integer on the stack: modulo `2 ^ 32` the factorial of the argument, or one if the argument is
negative.  On the heap are the counter that ended the loop and the integer again. -/
theorem run_factorial (name : String) (n : Int32) :
    ∃ program, (Source.mk name (.ofBytes (Utf8.encode (text n)))).assemble = .ok program ∧
      ∃ r : Int32, (0 ≤ n.toInt → r.toInt ≡ n.toInt.toNat.factorial [ZMOD 2 ^ 32]) ∧
        (n.toInt < 0 → r = 1) ∧
        ∀ (machine : Machine) (fuel : Nat), machine.setup.program = program →
          machine.Unhindered → 13 + 15 * n.toInt.toNat ≤ fuel →
          (machine.run fuel).1.failure = none ∧
            (machine.run fuel).2.memory = ⟨[.int r], #[.int (min n 0), .int r]⟩ := by
  refine ⟨program n, assemble_text name n, product n, fun _ => toInt_product_modEq n,
    fun negative => product_of_not_pos negative.le, fun machine fuel isProgram free enough => ?_⟩
  obtain ⟨left, rfl⟩ := Nat.exists_eq_add_of_le enough
  have begins : machine.firstState = ⟨[(main n, 0)], ⟨{}, machine.input, machine.output⟩⟩ := by
    rw [firstState, isProgram]
    rfl
  have goes := goes_main machine.input machine.output n isProgram free.stores free.nests
  have ended : Table.Ends machine.setup left
      (stateAt [(main n, 2)] machine.input machine.output 21 [.int (product n)] (min n 0)
        (product n)) _ :=
    .returned (by decide) (.returned (Int.le_refl 2) .completed)
  have ends := goes.ends ended
  rw [← begins] at ends
  exact run_of_ends free.accepts ends free.delivers

/-- The factorial of seventeen is beyond the range of integers. -/
theorem run_factorial_seventeen :
    ∃ program, (Source.mk "" (.ofBytes (Utf8.encode (Factorial.text 17)))).assemble = .ok program ∧
      ((new program #[] []).run 268).1.failure = none ∧
      ((new program #[] []).run 268).2.memory =
        ⟨[.int (-288522240)], #[.int 0, .int (-288522240)]⟩ := by
  obtain ⟨program, assembled, r, congruent, -, runs⟩ := run_factorial "" 17
  have isInteger : r = -288522240 := by
    have remainder : r.toInt % 2 ^ 32 = 355687428096000 % 2 ^ 32 := congruent (by decide)
    have lower : -2 ^ 31 ≤ r.toInt := r.le_toInt
    have upper : r.toInt < 2 ^ 31 := r.toInt_lt
    refine Int32.toInt_inj.mp ?_
    change r.toInt = -288522240
    omega
  subst isInteger
  exact ⟨program, assembled, runs _ 268 rfl (unhindered_new program #[]) (by decide)⟩

end Machine

end StackMachine
