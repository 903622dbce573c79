import Mathlib
import StackMachine.Program.Assemble
import StackMachine.Proofs.Program.Sound
import StackMachine.Proofs.Source.Scanned

/-!
# Assembled programs

What assembling guarantees of a program.  Its functions are made of instructions of the source
that may stand in a body, and its label tables lead to label tokens.  Hence every assembled
program is sound.
-/

namespace StackMachine

/-! ## Label tables -/

theorem labelTable_append_singleton (code : List Token) (token : Token) :
    labelTable (code ++ [token]) =
      if token.opcode = .label then (labelTable code).insert token.index ⟨code.length⟩
      else labelTable code := by
  simp [labelTable, List.zipIdx_append]

/-- A label table leads to the label tokens of its code. -/
theorem labelTable_leadsTo {code : List Token} {id : Int64} {position : CodeIndex}
    (found : (labelTable code)[id]? = some position) : LeadsTo code.toArray id position := by
  -- By induction on the code as it grows: a longer code keeps the places of a shorter one.
  induction code using List.reverseRecOn with
  | nil => simp [labelTable] at found
  | append_singleton code token ih =>
      have kept : LeadsTo code.toArray id position →
          LeadsTo (code ++ [token]).toArray id position := by
        rintro ⟨nonneg, label, place, isLabel⟩
        refine ⟨nonneg, label, ?_, isLabel⟩
        rw [List.getElem?_toArray] at place ⊢
        obtain ⟨inRange, -⟩ := List.getElem?_eq_some_iff.mp place
        rw [List.getElem?_append_left inRange]
        exact place
      rw [labelTable_append_singleton] at found
      split at found
      · next isLabel =>
          rw [Std.ExtTreeMap.getElem?_insert] at found
          split at found
          · next same =>
              cases found
              refine ⟨Int.natCast_nonneg _, token, ?_, isLabel, ?_⟩
              · simp
              · exact Std.LawfulEqCmp.eq_of_compare same
          · exact kept (ih found)
      · exact kept (ih found)

/-! ## Functions -/

namespace Assembly

/-- The tokens that assembling puts into a body. -/
def InBody (token : Token) : Prop :=
  token.opcode ≠ .endef ∧ token.opcode.isStructural = false

@[simp]
theorem function_code (header : Token) (code : List Token) :
    (function header code).body.code = code.toArray := by
  cases code <;> rfl

/-- Every function of a stream consists of a header and tokens of the stream that may stand in a
body. -/
theorem exists_of_mem_functions {source : String} {failure : Option ScanError}
    {opened : Option (Token × List Token)} {stream : List Instruction} {result : List Function}
    (assembled : functions source failure opened stream = .ok result)
    {Property : Token → Prop} (holds : ∀ found ∈ stream, Property found.token)
    (held : ∀ header code, opened = some (header, code) →
      ∀ token ∈ code, InBody token ∧ Property token)
    {function : Function} (mem : function ∈ result) :
    ∃ header code, function = Assembly.function header code ∧
      ∀ token ∈ code, InBody token ∧ Property token := by
  fun_induction functions source failure opened stream generalizing result with
  | case1 error => cases assembled
  | case2 =>
      cases assembled
      cases mem
  | case3 found rest isHeader ih =>
      refine ih assembled (fun i later => holds i (List.mem_cons_of_mem _ later)) ?_ mem
      rintro header code ⟨⟩ token ⟨⟩
  | case4 found rest notHeader => cases assembled
  | case5 opened => cases assembled
  | case6 header code found rest isEnd ih =>
      cases later : functions source failure none rest with
      | error error =>
          rw [later] at assembled
          cases assembled
      | ok others =>
          rw [later] at assembled
          cases assembled
          rcases List.mem_cons.mp mem with rfl | mem
          · refine ⟨header, code.reverse, rfl, fun token tokenMem => ?_⟩
            exact held header code rfl token (List.mem_reverse.mp tokenMem)
          · refine ih later (fun i later => holds i (List.mem_cons_of_mem _ later)) ?_ mem
            rintro header code ⟨⟩
  | case7 header code found rest notEnd structural => cases assembled
  | case8 header code found rest notEnd notStructural ih =>
      refine ih assembled (fun i later => holds i (List.mem_cons_of_mem _ later)) ?_ mem
      rintro _ _ ⟨⟩ token tokenMem
      rcases List.mem_cons.mp tokenMem with rfl | earlier
      · exact ⟨⟨notEnd, by simpa using notStructural⟩, holds found List.mem_cons_self⟩
      · exact held header code rfl token earlier

/-- A section mark is the next instruction of the stream. -/
theorem mark_eq_ok {source : String} {failure : Option ScanError} {expected : Opcode}
    {stream rest : List Instruction} (taken : mark source failure expected stream = .ok rest) :
    ∃ found, stream = found :: rest ∧ found.token.opcode = expected := by
  unfold mark at taken
  split at taken
  · cases taken
  · next found after =>
      split at taken
      · cases taken
      · split at taken
        · next isMark =>
            cases taken
            exact ⟨found, rfl, isMark⟩
        · cases taken

end Assembly

theorem exists_ok_of_bind {ε α β : Type} {action : Except ε α} {next : α → Except ε β} {b : β}
    (succeeded : action >>= next = .ok b) : ∃ a, action = .ok a ∧ next a = .ok b := by
  cases action with
  | error error => cases succeeded
  | ok a => exact ⟨a, rfl, succeeded⟩

/-- A list that was collected is that list. -/
@[simp]
theorem getD_collected {α : Type} (items : List α) : (collected items).getD [] = items := by
  cases items <;> rfl

/-- An assembled stream is three section marks and functions. -/
theorem TokenStream.assemble_eq_ok {stream : TokenStream} {source : String} {program : Program}
    (assembled : stream.assemble source = .ok program) :
    ∃ raw classes functionMark rest functions,
      stream.instructions = raw :: classes :: functionMark :: rest ∧
      raw.token.opcode = .rawMark ∧ classes.token.opcode = .classMark ∧
      functionMark.token.opcode = .functionMark ∧
      Assembly.functions source stream.failure none rest = .ok functions ∧
      program = { functions? := collected functions } := by
  obtain ⟨afterRaw, first, assembled⟩ := exists_ok_of_bind assembled
  obtain ⟨afterClass, second, assembled⟩ := exists_ok_of_bind assembled
  obtain ⟨rest, third, assembled⟩ := exists_ok_of_bind assembled
  obtain ⟨functions, last, assembled⟩ := exists_ok_of_bind assembled
  cases assembled
  obtain ⟨raw, isStream, isRaw⟩ := Assembly.mark_eq_ok first
  obtain ⟨classes, rfl, isClasses⟩ := Assembly.mark_eq_ok second
  obtain ⟨functionMark, rfl, isFunctions⟩ := Assembly.mark_eq_ok third
  exact ⟨raw, classes, functionMark, rest, functions, isStream, isRaw, isClasses, isFunctions,
    last, rfl⟩

/-- A scanned token that may stand in a body is executable. -/
theorem Token.Scanned.executable {token : Token} (scanned : token.Scanned)
    (inBody : Assembly.InBody token) : token.opcode.isExecutable = true := by
  obtain ⟨notEnd, notStructural⟩ := inBody
  have mem := scanned.opcode_mem
  have ne := scanned.opcode_ne
  cases opcode : token.opcode with
  | invalid => exact absurd opcode ne
  | endef => exact absurd opcode notEnd
  | rawMark | classMark | functionMark | defun =>
      rw [opcode] at notStructural
      cases notStructural
  | reserved offset =>
      rw [opcode] at mem
      simp [Opcode.named] at mem
  | pushi | pushf | pop | dup | load | store | stores | binary | call | label | goto | branch => rfl

/-- What assembling guarantees of a body. -/
structure Body.Assembled (body : Body) : Prop where
  executable : ∀ token ∈ body.code, token.opcode.isExecutable = true
  scanned : ∀ token ∈ body.code, token.Scanned
  leads : ∀ id position, body.target? id = some position → LeadsTo body.code id position
  labels_given : body.labels? = some body.labels

/-- The functions of an assembled source have executable, scanned tokens and labels that lead to
label tokens. -/
theorem Source.assembled_of_assemble {source : Source} {program : Program}
    (assembled : source.assemble = .ok program) {function : Function}
    (mem : function ∈ program.functions) : function.body.Assembled := by
  obtain ⟨raw, classes, functionMark, rest, functions, stream, -, -, -, ok, rfl⟩ :=
    TokenStream.assemble_eq_ok assembled
  rw [Program.functions, getD_collected] at mem
  have scanned : ∀ found ∈ rest, found.token.Scanned := by
    intro found later
    have mem : found ∈ source.instructions.instructions := by
      rw [stream]
      exact List.mem_append_right [raw, classes, functionMark] later
    exact Source.scanned_of_mem_instructions mem
  have notOpened : ∀ header code, (none : Option (Token × List Token)) = some (header, code) →
      ∀ token ∈ code, Assembly.InBody token ∧ token.Scanned := by
    rintro header code ⟨⟩
  obtain ⟨header, code, rfl, tokens⟩ := Assembly.exists_of_mem_functions ok scanned notOpened mem
  constructor
  · intro token tokenMem
    rw [Assembly.function_code, List.mem_toArray] at tokenMem
    obtain ⟨inBody, tokenScanned⟩ := tokens token tokenMem
    exact tokenScanned.executable inBody
  · intro token tokenMem
    rw [Assembly.function_code, List.mem_toArray] at tokenMem
    exact (tokens token tokenMem).2
  · intro id position target
    rw [Assembly.function_code]
    exact labelTable_leadsTo target
  · rfl

/-- Every assembled program is sound. -/
theorem Source.sound_of_assemble {source : Source} {program : Program}
    (assembled : source.assemble = .ok program) : program.Sound := by
  intro function mem
  have body := Source.assembled_of_assemble assembled mem
  exact ⟨body.executable, body.leads⟩

end StackMachine
