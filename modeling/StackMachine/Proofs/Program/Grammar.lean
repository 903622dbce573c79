import Mathlib
import StackMachine.Proofs.Program.Assembled

/-!
# The grammar of programs

A `Layout` is a way to read a list of tokens as a program: three section marks and definitions,
each of them a header, the tokens of a body and an end mark.  Assembling succeeds exactly on the
tokens of a layout, and its program, written out again, is those tokens: nothing of the stream is
lost.  The label table of an assembled function has the ids of its label tokens, each with the
place of the last token of that id.
-/

namespace StackMachine

namespace Assembly

instance : DecidablePred InBody := fun _ => inferInstanceAs (Decidable (_ ∧ _))

/-! ## Definitions and layouts -/

/-- The tokens of one function. -/
structure Definition where
  header : Token
  code : List Token
  ending : Token
  isHeader : header.opcode = .defun
  inBody : ∀ token ∈ code, InBody token
  isEnding : ending.opcode = .endef

namespace Definition

def tokens (definition : Definition) : List Token :=
  definition.header :: (definition.code ++ [definition.ending])

def function (definition : Definition) : Function :=
  Assembly.function definition.header definition.code

end Definition

/-- The tokens of a program. -/
structure Layout where
  raw : Token
  classes : Token
  functions : Token
  isRaw : raw.opcode = .rawMark
  isClasses : classes.opcode = .classMark
  isFunctions : functions.opcode = .functionMark
  definitions : List Definition

namespace Layout

def tokens (layout : Layout) : List Token :=
  layout.raw :: layout.classes :: layout.functions ::
    layout.definitions.flatMap Definition.tokens

def program (layout : Layout) : Program where
  functions? := collected (layout.definitions.map Definition.function)

end Layout

/-! ## What is accepted -/

/-- How the rest of a stream is read.  Outside a definition it consists of definitions; inside one
it starts with what is left of the definition. -/
def Reads : Option (Token × List Token) → List Token → List Function → Prop
  | none, tokens, result =>
      ∃ definitions : List Definition, tokens = definitions.flatMap Definition.tokens ∧
        result = definitions.map Definition.function
  | some (header, code), tokens, result =>
      ∃ (body : List Token) (ending : Token) (definitions : List Definition),
        tokens = body ++ ending :: definitions.flatMap Definition.tokens ∧
        (∀ token ∈ body, InBody token) ∧ ending.opcode = .endef ∧
        result = function header (code.reverse ++ body) :: definitions.map Definition.function

/-- Functions that are assembled have been read as the grammar says. -/
theorem reads_of_functions {source : String} {failure : Option ScanError}
    {opened : Option (Token × List Token)} {stream : List Instruction} {result : List Function}
    (assembled : functions source failure opened stream = .ok result) :
    Reads opened (stream.map (·.token)) result := by
  fun_induction functions source failure opened stream generalizing result with
  | case1 error => cases assembled
  | case2 =>
      cases assembled
      exact ⟨[], rfl, rfl⟩
  | case3 found rest isHeader ih =>
      obtain ⟨body, ending, definitions, tokens, inBody, isEnding, rfl⟩ := ih assembled
      refine ⟨⟨found.token, body, ending, isHeader, inBody, isEnding⟩ :: definitions, ?_, rfl⟩
      simp [Definition.tokens, tokens]
  | case4 found rest notHeader => cases assembled
  | case5 opened => cases assembled
  | case6 header code found rest isEnd ih =>
      cases later : functions source failure none rest with
      | error error =>
          rw [later] at assembled
          cases assembled
      | ok others =>
          rw [later] at assembled
          cases assembled
          obtain ⟨definitions, tokens, rfl⟩ := ih later
          refine ⟨[], found.token, definitions, ?_, List.forall_mem_nil _, isEnd, ?_⟩
          · simp [tokens]
          · rw [List.append_nil]
  | case7 header code found rest notEnd structural => cases assembled
  | case8 header code found rest notEnd notStructural ih =>
      obtain ⟨body, ending, definitions, tokens, inBody, isEnding, rfl⟩ := ih assembled
      refine ⟨found.token :: body, ending, definitions, ?_, ?_, isEnding, ?_⟩
      · simp [tokens]
      · exact List.forall_mem_cons.mpr ⟨⟨notEnd, by simpa using notStructural⟩, inBody⟩
      · simp

/-- The tokens of a body are taken up to the end mark. -/
theorem functions_body (source : String) (failure : Option ScanError) (header : Token)
    (code : List Token) {body rest : List Instruction} {ending : Instruction}
    (inBody : ∀ found ∈ body, InBody found.token) (isEnding : ending.token.opcode = .endef) :
    functions source failure (some (header, code)) (body ++ ending :: rest) =
      (functions source failure none rest).map
        (function header (code.reverse ++ body.map (·.token)) :: ·) := by
  induction body generalizing code with
  | nil => simp [functions, isEnding]
  | cons found body ih =>
      obtain ⟨⟨notEnd, notStructural⟩, inBody⟩ := List.forall_mem_cons.mp inBody
      rw [List.cons_append, functions, if_neg notEnd, if_neg (by simp [notStructural]), ih _ inBody]
      simp

/-- Definitions are assembled, one function for each. -/
theorem functions_of_definitions (source : String) {definitions : List Definition}
    {stream : List Instruction}
    (tokens : stream.map (·.token) = definitions.flatMap Definition.tokens) :
    functions source none none stream = .ok (definitions.map Definition.function) := by
  induction definitions generalizing stream with
  | nil =>
      obtain rfl : stream = [] := by simpa using tokens
      rfl
  | cons definition definitions ih =>
      -- Cut the stream where the definition ends.
      rw [List.flatMap_cons, Definition.tokens, List.cons_append, List.append_assoc,
        List.map_eq_cons_iff] at tokens
      obtain ⟨header, stream, rfl, isHeader, tokens⟩ := tokens
      obtain ⟨body, stream, rfl, isBody, tokens⟩ := List.map_eq_append_iff.mp tokens
      obtain ⟨ending, rest, rfl, isEnding, tokens⟩ := List.map_eq_cons_iff.mp tokens
      have defines : header.token.opcode = .defun := by
        rw [isHeader]
        exact definition.isHeader
      have inBody : ∀ found ∈ body, InBody found.token := by
        intro found mem
        apply definition.inBody
        rw [← isBody]
        exact List.mem_map_of_mem mem
      have ends : ending.token.opcode = .endef := by
        rw [isEnding]
        exact definition.isEnding
      rw [functions, if_pos defines, functions_body _ _ _ _ inBody ends, ih tokens, isHeader,
        isBody]
      rfl

/-- A stream without a failure starts with a section mark exactly if the mark is taken. -/
theorem mark_eq_ok_iff {source : String} {expected : Opcode} {stream rest : List Instruction} :
    mark source none expected stream = .ok rest ↔
      ∃ found, stream = found :: rest ∧ found.token.opcode = expected := by
  constructor
  · exact mark_eq_ok
  · rintro ⟨found, rfl, isMark⟩
    simp [mark, isMark]

end Assembly

open Assembly

/-- A stream without a failure is assembled exactly if it has a layout, into the program of that
layout. -/
theorem TokenStream.assemble_eq_ok_iff {stream : List Instruction} {source : String}
    {program : Program} :
    (TokenStream.mk stream none).assemble source = .ok program ↔
      ∃ layout : Layout, layout.tokens = stream.map (·.token) ∧ program = layout.program := by
  constructor
  · intro assembled
    obtain ⟨raw, classes, functionMark, rest, functions, isStream, isRaw, isClasses, isFunctions,
      last, rfl⟩ := TokenStream.assemble_eq_ok assembled
    obtain ⟨definitions, tokens, rfl⟩ := reads_of_functions last
    refine ⟨⟨raw.token, classes.token, functionMark.token, isRaw, isClasses, isFunctions,
      definitions⟩, ?_, rfl⟩
    change stream = _ at isStream
    simp [Layout.tokens, isStream, tokens]
  · rintro ⟨layout, tokens, rfl⟩
    obtain ⟨raw, afterRaw, rfl, isRaw, tokens⟩ := List.map_eq_cons_iff.mp tokens.symm
    obtain ⟨classes, afterClasses, rfl, isClasses, tokens⟩ := List.map_eq_cons_iff.mp tokens
    obtain ⟨functionMark, rest, rfl, isFunctions, tokens⟩ := List.map_eq_cons_iff.mp tokens
    have first : mark source none .rawMark (raw :: classes :: functionMark :: rest) = .ok _ :=
      mark_eq_ok_iff.mpr ⟨raw, rfl, isRaw ▸ layout.isRaw⟩
    have second : mark source none .classMark (classes :: functionMark :: rest) = .ok _ :=
      mark_eq_ok_iff.mpr ⟨classes, rfl, isClasses ▸ layout.isClasses⟩
    have third : mark source none .functionMark (functionMark :: rest) = .ok _ :=
      mark_eq_ok_iff.mpr ⟨functionMark, rfl, isFunctions ▸ layout.isFunctions⟩
    have last := functions_of_definitions source tokens
    simp only [assemble, first, second, third, last, bind, Except.bind]
    rfl

/-! ## Writing a program out -/

/-- The tokens that define a function. -/
def Function.written (function : Function) : List Token :=
  function.header :: (function.body.code.toList ++ [{ opcode := .endef }])

/-- The tokens of a program. -/
def Program.written (program : Program) : List Token :=
  { opcode := .rawMark } :: { opcode := .classMark } :: { opcode := .functionMark } ::
    program.functions.flatMap Function.written

namespace Assembly

/-- What a program keeps of a token: all of a token of a body, the operands of any other. -/
def kept (token : Token) : Token :=
  if InBody token then token else token.plain

end Assembly

/-! ## Labels -/

/-- A token that declares a label id. -/
def Token.Labels (id : Int64) (token : Token) : Prop :=
  token.opcode = .label ∧ token.index = id

instance (id : Int64) : DecidablePred (Token.Labels id) :=
  fun _ => inferInstanceAs (Decidable (_ ∧ _))

/-- The place of the last token of some code that declares a label id. -/
def LastLabel (code : List Token) (id : Int64) (position : CodeIndex) : Prop :=
  ∃ index : Nat, position.toInt = index ∧ (∃ token, code[index]? = some token ∧ token.Labels id) ∧
    ∀ later token, index < later → code[later]? = some token → ¬ token.Labels id

theorem lastLabel_append_singleton_of_labels {code : List Token} {token : Token} {id : Int64}
    (labels : token.Labels id) {position : CodeIndex} :
    LastLabel (code ++ [token]) id position ↔ position = ⟨code.length⟩ := by
  constructor
  · rintro ⟨index, isIndex, ⟨found, isFound, -⟩, last⟩
    obtain ⟨inRange, -⟩ := List.getElem?_eq_some_iff.mp isFound
    rw [List.length_append, List.length_singleton] at inRange
    -- The new token is after every earlier one, and it declares the id itself.
    have notEarlier : ¬ index < code.length := fun earlier =>
      last code.length token earlier (by simp) labels
    obtain rfl : index = code.length := by omega
    obtain ⟨toInt⟩ := position
    exact congrArg CodeIndex.mk isIndex
  · rintro rfl
    refine ⟨code.length, rfl, ⟨token, by simp, labels⟩, ?_⟩
    intro later found after isFound
    obtain ⟨inRange, -⟩ := List.getElem?_eq_some_iff.mp isFound
    rw [List.length_append, List.length_singleton] at inRange
    omega

theorem lastLabel_append_singleton_of_not_labels {code : List Token} {token : Token} {id : Int64}
    (other : ¬ token.Labels id) {position : CodeIndex} :
    LastLabel (code ++ [token]) id position ↔ LastLabel code id position := by
  -- At every place the two codes have the same tokens that declare the id.
  have same : ∀ (place : Nat) (found : Token), found.Labels id →
      ((code ++ [token])[place]? = some found ↔ code[place]? = some found) := by
    intro place found labels
    rcases Nat.lt_or_ge place code.length with inRange | outOfRange
    · rw [List.getElem?_append_left inRange]
    · rw [List.getElem?_append_right outOfRange, List.getElem?_eq_none outOfRange,
        List.getElem?_singleton]
      refine iff_of_false (fun isFound => ?_) nofun
      split at isFound
      · cases isFound
        exact other labels
      · cases isFound
  refine exists_congr fun index => and_congr_right fun _ => and_congr ?_ ?_
  · refine exists_congr fun found => ?_
    exact and_congr_left fun labels => same index found labels
  · refine forall₃_congr fun later found _ => ?_
    exact ⟨fun last isFound labels => last ((same later found labels).mpr isFound) labels,
      fun last isFound labels => last ((same later found labels).mp isFound) labels⟩

/-- A label table gives each id the place of the last token that declares it. -/
theorem getElem?_labelTable_eq_some_iff {code : List Token} {id : Int64} {position : CodeIndex} :
    (labelTable code)[id]? = some position ↔ LastLabel code id position := by
  induction code using List.reverseRecOn with
  | nil => simp [labelTable, LastLabel]
  | append_singleton code token ih =>
      rw [labelTable_append_singleton]
      by_cases labels : token.Labels id
      · obtain ⟨isLabel, rfl⟩ := labels
        rw [lastLabel_append_singleton_of_labels ⟨isLabel, rfl⟩, if_pos isLabel,
          Std.ExtTreeMap.getElem?_insert_self, Option.some_inj]
        exact eq_comm
      · rw [lastLabel_append_singleton_of_not_labels labels, ← ih]
        split
        · next isLabel =>
            have ne : token.index ≠ id := fun same => labels ⟨isLabel, same⟩
            simp [Std.ExtTreeMap.getElem?_insert, ne]
        · rfl

/-- The ids of a label table are those that its code declares. -/
theorem mem_labelTable_iff {code : List Token} {id : Int64} :
    id ∈ labelTable code ↔ ∃ token ∈ code, token.Labels id := by
  induction code using List.reverseRecOn with
  | nil => simp [labelTable]
  | append_singleton code token ih =>
      rw [labelTable_append_singleton]
      split
      · next isLabel => simp [ih, Token.Labels, isLabel, or_comm]
      · next notLabel => simp [ih, Token.Labels, notLabel]

/-- The table of an assembled function has the ids that its code declares, each with its last
place. -/
theorem Assembly.labels_function (header : Token) (code : List Token) (id : Int64) :
    (id ∈ (function header code).body.labels ↔
      ∃ token ∈ (function header code).body.code, token.Labels id) ∧
    ∀ position, (function header code).body.target? id = some position ↔
      LastLabel (function header code).body.code.toList id position := by
  rw [function_code]
  constructor
  · simp only [List.mem_toArray]
    exact mem_labelTable_iff
  · exact fun position => getElem?_labelTable_eq_some_iff

/-! ## Assembling -/

end StackMachine
