import Mathlib
import StackMachine.Proofs.Program.Grammar

/-!
# Putting a label into a body

A label may be put into a body at any place.  If nothing in the body refers to its id, the other
ids keep leading to the tokens that they led to before: the places of those that follow the new
label are one further on (`target?_shorter`).  In a stream of instructions the change concerns one
function of the program and leaves the others alone (`functions_of_body`).
-/

namespace StackMachine

/-- A token that declares or jumps to a label id. -/
def Token.RefersTo (id : Int64) (token : Token) : Prop :=
  (token.opcode = .label ∨ token.opcode = .goto ∨ token.opcode = .branch) ∧ token.index = id

instance (id : Int64) : DecidablePred (Token.RefersTo id) :=
  fun _ => inferInstanceAs (Decidable (_ ∧ _))

/-- A place in a function for a label to which nothing there refers. -/
structure Insertion where
  header : Token
  front : List Token
  back : List Token
  id : Int64
  unused : ∀ token ∈ front ++ back, ¬ token.RefersTo id

namespace Insertion

variable (insertion : Insertion)

/-- The label that is put in. -/
def label : Token := { opcode := .label, index := insertion.id }

/-- The index of the label. -/
def place : Nat := insertion.front.length

/-- The function without the label. -/
def shorter : Function :=
  Assembly.function insertion.header (insertion.front ++ insertion.back)

/-- The function with the label. -/
def longer : Function :=
  Assembly.function insertion.header (insertion.front ++ insertion.label :: insertion.back)

/-- The position in the shorter code of a position in the longer one.  The label itself stands
where in the shorter code the token after it stands. -/
def position (position : Int) : Int :=
  if position ≤ insertion.place then position else position - 1

/-- The code index in the shorter code of one in the longer code. -/
def codeIndex (index : CodeIndex) : CodeIndex := ⟨insertion.position index.toInt⟩

@[simp]
theorem name_longer : insertion.longer.name = insertion.header.name :=
  rfl

@[simp]
theorem name_shorter : insertion.shorter.name = insertion.header.name :=
  rfl

@[simp]
theorem code_longer :
    insertion.longer.body.code =
      (insertion.front ++ insertion.label :: insertion.back).toArray :=
  Assembly.function_code _ _

@[simp]
theorem code_shorter :
    insertion.shorter.body.code = (insertion.front ++ insertion.back).toArray :=
  Assembly.function_code _ _

theorem position_of_le {position : Int} (le : position ≤ insertion.place) :
    insertion.position position = position :=
  if_pos le

theorem position_of_lt {position : Int} (lt : insertion.place < position) :
    insertion.position position = position - 1 :=
  if_neg (Int.not_le.mpr lt)

/-- The longer code has the label at its place. -/
theorem getElem?_place :
    insertion.longer.body.code[insertion.place]? = some insertion.label := by
  simp [place]

/-- Elsewhere the two codes have the same tokens at corresponding positions. -/
theorem getElem?_shorter {index : Nat} (ne : index ≠ insertion.place) :
    insertion.shorter.body.code[(insertion.position index).toNat]? =
      insertion.longer.body.code[index]? := by
  rw [code_shorter, code_longer, List.getElem?_toArray, List.getElem?_toArray]
  rcases Nat.lt_or_gt_of_ne ne with before | after
  · have same : (insertion.position index).toNat = index := by
      rw [position_of_le insertion (Int.ofNat_le.mpr before.le), Int.toNat_natCast]
    rw [same, List.getElem?_append_left before, List.getElem?_append_left before]
  · have previous : (insertion.position index).toNat = index - 1 := by
      rw [position_of_lt insertion (Int.ofNat_lt.mpr after)]
      omega
    have pastFront : insertion.front.length ≤ index - 1 := Nat.le_sub_one_of_lt after
    have next : index - insertion.front.length = index - 1 - insertion.front.length + 1 := by
      have : insertion.front.length < index := after
      omega
    rw [previous, List.getElem?_append_right pastFront, List.getElem?_append_right after.le, next,
      List.getElem?_cons_succ]

/-- An id other than that of the new label leads to corresponding places. -/
theorem target?_shorter {id : Int64} (other : id ≠ insertion.id) :
    insertion.shorter.body.target? id =
      (insertion.longer.body.target? id).map insertion.codeIndex := by
  change (labelTable (insertion.front ++ insertion.back))[id]? =
    ((labelTable (insertion.front ++ insertion.label :: insertion.back))[id]?).map
      insertion.codeIndex
  generalize insertion.back = back
  -- By induction on what follows the label, as it grows.
  induction back using List.reverseRecOn with
  | nil =>
      have isLabel : insertion.label.opcode = .label := rfl
      have ne : insertion.label.index ≠ id := fun same => other same.symm
      rw [labelTable_append_singleton, if_pos isLabel, List.append_nil]
      cases found : (labelTable insertion.front)[id]? with
      | none => simp [Std.ExtTreeMap.getElem?_insert, ne, found]
      | some index =>
          obtain ⟨nonneg, token, isToken, -⟩ := labelTable_leadsTo found
          rw [List.getElem?_toArray] at isToken
          obtain ⟨inRange, -⟩ := List.getElem?_eq_some_iff.mp isToken
          have le : index.toInt ≤ insertion.place := by
            change index.toInt ≤ insertion.front.length
            omega
          have same : insertion.codeIndex index = index :=
            congrArg CodeIndex.mk (position_of_le insertion le)
          simp [Std.ExtTreeMap.getElem?_insert, ne, found, same]
  | append_singleton back token ih =>
      rw [← List.append_assoc, ← List.cons_append, ← List.append_assoc,
        labelTable_append_singleton, labelTable_append_singleton]
      by_cases isLabel : token.opcode = .label
      · have last : insertion.codeIndex
            ⟨(insertion.front ++ insertion.label :: back).length⟩ =
              ⟨(insertion.front ++ back).length⟩ := by
          refine congrArg CodeIndex.mk ((position_of_lt insertion ?_).trans ?_)
          · simp [place]
          · simp
            omega
        rw [if_pos isLabel, if_pos isLabel, Std.ExtTreeMap.getElem?_insert,
          Std.ExtTreeMap.getElem?_insert]
        split
        · rw [Option.map_some, last]
        · exact ih
      · rw [if_neg isLabel, if_neg isLabel]
        exact ih

end Insertion

/-! ## In a stream of instructions -/

namespace Assembly

/-- The number of function headers among some instructions. -/
def headers (stream : List Instruction) : Nat :=
  stream.countP (·.token.opcode = .defun)

/-- Assembling a stream with a function in it assembles the function by itself: with another body
in its place the other functions are the same. -/
theorem functions_of_body {source : String} {opened : Option (Token × List Token)}
    {before body after : List Instruction} {header ending : Instruction}
    (isHeader : header.token.opcode = .defun) (isEnding : ending.token.opcode = .endef)
    (inBody : ∀ found ∈ body, InBody found.token) {result : List Function}
    (assembled : functions source none opened (before ++ header :: (body ++ ending :: after)) =
      .ok result) :
    ∃ earlier later : List Function,
      earlier.length = headers before + opened.toList.length ∧
      result = earlier ++ function header.token (body.map (·.token)) :: later ∧
      ∀ other : List Instruction, (∀ found ∈ other, InBody found.token) →
        functions source none opened (before ++ header :: (other ++ ending :: after)) =
          .ok (earlier ++ function header.token (other.map (·.token)) :: later) := by
  induction before generalizing opened result with
  | nil =>
      cases opened with
      | some opened =>
          -- A header cannot stand inside a function.
          simp [functions, isHeader, Opcode.isStructural] at assembled
      | none =>
          rw [List.nil_append, functions, if_pos isHeader, functions_body _ _ _ _ inBody isEnding]
            at assembled
          cases rest : functions source none none after with
          | error error =>
              rw [rest] at assembled
              cases assembled
          | ok later =>
              rw [rest] at assembled
              cases assembled
              refine ⟨[], later, rfl, rfl, fun other otherInBody => ?_⟩
              rw [List.nil_append, functions, if_pos isHeader,
                functions_body _ _ _ _ otherInBody isEnding, rest]
              rfl
  | cons found before ih =>
      rw [List.cons_append] at assembled
      cases opened with
      | none =>
          rw [functions] at assembled
          by_cases opens : found.token.opcode = .defun
          · rw [if_pos opens] at assembled
            obtain ⟨earlier, later, number, isResult, others⟩ := ih assembled
            refine ⟨earlier, later, ?_, isResult, fun other otherInBody => ?_⟩
            · simpa [headers, opens] using number
            · rw [List.cons_append, functions, if_pos opens]
              exact others other otherInBody
          · rw [if_neg opens] at assembled
            cases assembled
      | some opened =>
          obtain ⟨openHeader, code⟩ := opened
          rw [functions] at assembled
          by_cases ends : found.token.opcode = .endef
          · rw [if_pos ends] at assembled
            cases rest : functions source none none
                (before ++ header :: (body ++ ending :: after)) with
            | error error =>
                rw [rest] at assembled
                cases assembled
            | ok functions' =>
                rw [rest] at assembled
                cases assembled
                obtain ⟨earlier, later, number, rfl, others⟩ := ih rest
                refine ⟨function openHeader code.reverse :: earlier, later, ?_, rfl,
                  fun other otherInBody => ?_⟩
                · simpa [headers, ends] using number
                · rw [List.cons_append, functions, if_pos ends, others other otherInBody]
                  rfl
          · rw [if_neg ends] at assembled
            by_cases structural : found.token.opcode.isStructural = true
            · rw [if_pos structural] at assembled
              cases assembled
            · rw [if_neg structural] at assembled
              obtain ⟨earlier, later, number, isResult, others⟩ := ih assembled
              refine ⟨earlier, later, ?_, isResult, fun other otherInBody => ?_⟩
              · have notHeader : found.token.opcode ≠ .defun := by
                  intro isDefun
                  rw [isDefun] at structural
                  exact structural rfl
                simpa [headers, notHeader] using number
              · rw [List.cons_append, functions, if_neg ends, if_neg structural]
                exact others other otherInBody

end Assembly

open Assembly

/-- In an assembled stream, a function can be given any other body: the stream is assembled again,
and the other functions of the program are the same. -/
theorem TokenStream.assemble_of_body {name : String} {before body after : List Instruction}
    {header ending : Instruction} {program : Program}
    (isHeader : header.token.opcode = .defun) (isEnding : ending.token.opcode = .endef)
    (inBody : ∀ found ∈ body, InBody found.token)
    (assembled : (TokenStream.mk (before ++ header :: (body ++ ending :: after)) none).assemble
      name = .ok program) :
    ∃ earlier later : List Function, earlier.length = headers before ∧
      program.functions = earlier ++ function header.token (body.map (·.token)) :: later ∧
      ∀ other : List Instruction, (∀ found ∈ other, InBody found.token) →
        ∃ changed : Program,
          (TokenStream.mk (before ++ header :: (other ++ ending :: after)) none).assemble name =
            .ok changed ∧
          changed.functions =
            earlier ++ function header.token (other.map (·.token)) :: later := by
  obtain ⟨raw, classes, functionMark, rest, assembledFunctions, isStream, isRaw, isClasses,
    isFunctions, last, rfl⟩ := TokenStream.assemble_eq_ok assembled
  -- The header stands after the three marks.
  obtain ⟨between, rfl⟩ : ∃ between, before = raw :: classes :: functionMark :: between := by
    rcases before with _ | ⟨first, _ | ⟨second, _ | ⟨third, between⟩⟩⟩
    · obtain ⟨rfl, -⟩ := List.cons.inj isStream
      rw [isHeader] at isRaw
      cases isRaw
    · obtain ⟨rfl, -⟩ := List.cons.inj (List.cons.inj isStream).2
      rw [isHeader] at isClasses
      cases isClasses
    · obtain ⟨rfl, -⟩ := List.cons.inj (List.cons.inj (List.cons.inj isStream).2).2
      rw [isHeader] at isFunctions
      cases isFunctions
    · cases isStream
      exact ⟨between, rfl⟩
  cases isStream
  obtain ⟨earlier, later, number, rfl, others⟩ :=
    functions_of_body isHeader isEnding inBody last
  refine ⟨earlier, later, ?_, getD_collected _, fun other otherInBody => ?_⟩
  · simpa [headers, isRaw, isClasses, isFunctions] using number
  · have functions := others other otherInBody
    refine ⟨⟨collected _⟩, ?_, getD_collected _⟩
    simp only [List.cons_append, assemble, mark_eq_ok_iff.mpr ⟨raw, rfl, isRaw⟩,
      mark_eq_ok_iff.mpr ⟨classes, rfl, isClasses⟩,
      mark_eq_ok_iff.mpr ⟨functionMark, rfl, isFunctions⟩, functions, bind, Except.bind]
    rfl

/-- A function has the first place of its name if none before it has that name. -/
theorem Program.position?_eq_some_iff {program : Program} {earlier later : List Function}
    {function : Function} (functions : program.functions = earlier ++ function :: later)
    {name : String} :
    program.position? name = some earlier.length ↔
      function.name = name ∧ ∀ other ∈ earlier, other.name ≠ name := by
  rw [position?, functions, List.findIdx?_eq_some_iff_getElem]
  constructor
  · rintro ⟨inRange, found, first⟩
    refine ⟨by simpa using found, fun other mem => ?_⟩
    obtain ⟨index, indexInRange, rfl⟩ := List.mem_iff_getElem.mp mem
    have notFound := first index indexInRange
    rw [List.getElem_append_left indexInRange] at notFound
    simpa using notFound
  · rintro ⟨found, first⟩
    refine ⟨by simp, by simpa using found, fun index indexInRange => ?_⟩
    rw [List.getElem_append_left indexInRange]
    simpa using first _ (List.getElem_mem indexInRange)

end StackMachine
