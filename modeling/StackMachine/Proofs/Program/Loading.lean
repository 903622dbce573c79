import Mathlib
import StackMachine.Proofs.Program.Grammar
import StackMachine.Proofs.Source.Spelling

/-!
# How loading a source ends

Loading a source gives a program or an error, and an error says something true about the source: a
syntax or grammar error names it, and a device error is the error of its own device.  The one
exception is a function header that declares more parameters than can be held.  It is met exactly
if scanning reaches such a header and assembling has found nothing wrong before
(`Source.assemble_explained`).
-/

namespace StackMachine

/-! ## Why scans stop -/

/-- A reason to stop that says something true about the source. -/
def Source.Explains (source : Source) : Option ScanError → Prop
  | none => True
  | some (.malformed error) => error.source = source.name
  | some (.unreadable fault) => source.input.fault = some fault
  | some .oversized => False

/-- The words of a header that declares too many parameters. -/
def Source.OversizedAt (source : Source) (cursor : Cursor) : Prop :=
  ∃ name digits after count, source.Words cursor ["defun", name, digits] after ∧
    readIndex digits = .ok count ∧ maxArity < count.toInt.toNat

namespace Scan

/-- A scan that stops only for reasons with a property. -/
def Stops {α : Type} (Property : Option ScanError → Prop) (scan : Scan α) : Prop :=
  ∀ cursor stop, scan cursor = .error stop → Property stop

theorem stops_pure {α : Type} (Property : Option ScanError → Prop) (a : α) :
    Stops Property (pure a : Scan α) := by
  intro cursor stop stopped
  cases stopped

theorem stops_bind {α β : Type} {Property : Option ScanError → Prop} {scan : Scan α}
    {next : α → Scan β} (first : Stops Property scan) (second : ∀ a, Stops Property (next a)) :
    Stops Property (scan >>= next) := by
  intro cursor stop stopped
  rcases bind_eq_error_iff.mp stopped with stopped | ⟨a, between, -, stopped⟩
  · exact first cursor stop stopped
  · exact second a between stop stopped

variable (source : Source) (keyword : String)

theorem stops_reject {α : Type} (word : String) (cause : SyntaxCause) :
    Stops source.Explains (reject source word cause : Scan α) := by
  intro cursor stop stopped
  rw [reject_apply] at stopped
  cases stopped
  rfl

/-- The device of a source is blamed only for its own failure. -/
theorem fault_of_nextWord {fault : Option ReadFault} {cursor : Cursor} {failure : ReadFault}
    (failed : cursor.nextWord fault = .failed failure) : fault = some failure := by
  unfold Cursor.nextWord at failed
  split at failed
  · cases failed
  · cases failed
    rfl
  · split at failed
    · unfold Cursor.literal at failed
      dsimp only at failed
      split at failed <;> cases failed
      rfl
    · unfold Cursor.bareWord at failed
      dsimp only at failed
      split at failed <;> cases failed
      rfl

theorem stops_word : Stops source.Explains (word source) := by
  intro cursor stop stopped
  unfold word at stopped
  split at stopped
  · cases stopped
  · cases stopped
    trivial
  · cases stopped
    rfl
  · next failed =>
      cases stopped
      exact fault_of_nextWord failed

theorem stops_operand : Stops source.Explains (operand source keyword) := by
  intro cursor stop stopped
  unfold operand at stopped
  split at stopped
  · exact stops_reject source keyword .missingOperand cursor stop stopped
  · exact stops_word source cursor stop stopped

theorem stops_number {α : Type} (read : String → Except NumberFault α) :
    Stops source.Explains (number source keyword read) := by
  refine stops_bind (stops_operand source keyword) fun text => ?_
  cases read text with
  | ok value => exact stops_pure _ value
  | error fault => exact stops_reject source text (.invalidNumber fault)

theorem stops_types (count : Nat) : Stops source.Explains (types source keyword count) := by
  induction count with
  | zero => exact stops_pure _ []
  | succ count ih =>
      exact stops_bind (stops_operand source keyword) fun _ =>
        stops_bind ih fun _ => stops_pure _ _

/-- Apart from headers, operands stop a scan only for a true reason. -/
theorem stops_operands {opcode : Opcode} (other : opcode ≠ .defun) :
    Stops source.Explains (operands source keyword opcode) := by
  unfold operands
  split
  · exact absurd rfl other
  · exact stops_bind (stops_number source keyword _) fun _ => stops_pure _ _
  · exact stops_bind (stops_number source keyword _) fun _ => stops_pure _ _
  -- The five opcodes with one index.
  iterate 5
    exact stops_bind (stops_number source keyword _) fun _ => stops_pure _ _
  · exact stops_bind (stops_number source keyword _) fun _ =>
      stops_bind (stops_number source keyword _) fun _ =>
        stops_bind (stops_operand source keyword) fun _ => stops_pure _ _
  · exact stops_bind (stops_operand source keyword) fun _ => stops_pure _ _
  · exact stops_pure _ _

variable {source keyword} {cursor : Cursor}

/-- An arity stops a scan for a true reason or because it is too large. -/
theorem arity_eq_error {stop : Option ScanError}
    (stopped : arity source keyword cursor = .error stop) :
    source.Explains stop ∨ stop = some .oversized ∧
      ∃ digits after count, word source cursor = .ok (digits, after) ∧
        readIndex digits = .ok count ∧ maxArity < count.toInt.toNat := by
  rcases bind_eq_error_iff.mp stopped with stopped | ⟨count, after, isIndex, stopped⟩
  · exact .inl (stops_number source keyword readIndex cursor stop stopped)
  · split at stopped
    · next large =>
        cases stopped
        obtain ⟨digits, isWord, read⟩ := number_eq_ok_iff.mp isIndex
        exact .inr ⟨rfl, digits, after, count, isWord, read, large⟩
    · cases stopped

/-- A header stops a scan for a true reason or because it declares too many parameters. -/
theorem header_eq_error {stop : Option ScanError}
    (stopped : header source keyword cursor = .error stop) :
    source.Explains stop ∨ stop = some .oversized ∧
      ∃ name digits after count, source.Words cursor [name, digits] after ∧
        readIndex digits = .ok count ∧ maxArity < count.toInt.toNat := by
  rcases bind_eq_error_iff.mp stopped with stopped | ⟨name, afterName, isName, stopped⟩
  · exact .inl (stops_operand source keyword cursor stop stopped)
  rcases bind_eq_error_iff.mp stopped with stopped | ⟨count, afterCount, -, stopped⟩
  · rcases arity_eq_error stopped with explained | ⟨isStop, digits, after, count, isWord, large⟩
    · exact .inl explained
    · have named := operand_eq_ok_iff.mp isName
      exact .inr ⟨isStop, name, digits, after, count, .cons named (.cons isWord (.nil after)),
        large⟩
  · -- Behind the arity there are only words.
    have behind : Stops source.Explains (do
        let params ← types source keyword count
        let result ← operand source keyword
        return ({ opcode := .defun, name, params, result := .ofWord result } : Token)) :=
      stops_bind (stops_types source keyword count) fun _ =>
        stops_bind (stops_operand source keyword) fun _ => stops_pure _ _
    exact .inl (behind afterCount stop stopped)

/-- A header of too many parameters stops a scan. -/
theorem header_oversized {name digits : String} {after : Cursor} {count : Int64}
    (words : source.Words cursor [name, digits] after) (read : readIndex digits = .ok count)
    (large : maxArity < count.toInt.toNat) :
    header source keyword cursor = .error (some .oversized) := by
  simp only [Source.words_cons_iff, Source.words_nil_iff] at words
  obtain ⟨afterName, isName, _, isCount, rfl⟩ := words
  refine bind_eq_error_iff.mpr (.inr ⟨name, afterName, operand_eq_ok_iff.mpr isName, ?_⟩)
  refine bind_eq_error_iff.mpr (.inl ?_)
  refine bind_eq_error_iff.mpr
    (.inr ⟨count, after, number_eq_ok_iff.mpr ⟨digits, isCount, read⟩, ?_⟩)
  rw [if_pos large]
  rfl

theorem ofKeyword?_defun : Opcode.ofKeyword? "defun" = some .defun := by decide

theorem eq_defun_of_ofKeyword? (isHeader : Opcode.ofKeyword? keyword = some .defun) :
    keyword = "defun" := by
  have satisfied := List.find?_some isHeader
  simp only [Bool.and_eq_true, beq_iff_eq] at satisfied
  exact satisfied.2.symm

/-- An instruction stops a scan for a true reason or because a header starts there that declares
too many parameters. -/
theorem instruction_eq_error {stop : Option ScanError}
    (stopped : instruction source cursor = .error stop) :
    source.Explains stop ∨ stop = some .oversized ∧ source.OversizedAt cursor := by
  rcases bind_eq_error_iff.mp stopped with stopped | ⟨keyword, between, isKeyword, stopped⟩
  · exact .inl (stops_word source cursor stop stopped)
  rcases bind_eq_error_iff.mp stopped with stopped | ⟨here, _, got, stopped⟩
  · cases stopped
  cases got
  cases found : Opcode.ofKeyword? keyword with
  | none =>
      rw [found] at stopped
      exact .inl (stops_reject source keyword .unknownKeyword between stop stopped)
  | some opcode =>
      rw [found] at stopped
      rcases bind_eq_error_iff.mp stopped with stopped | ⟨token, after, -, stopped⟩
      · by_cases isHeader : opcode = .defun
        · subst isHeader
          obtain rfl := eq_defun_of_ofKeyword? found
          rcases header_eq_error stopped with
            explained | ⟨isStop, name, digits, after, count, words, large⟩
          · exact .inl explained
          · exact .inr ⟨isStop, name, digits, after, count, .cons isKeyword words, large⟩
        · exact .inl (stops_operands source keyword isHeader between stop stopped)
      · cases stopped

/-- The header that declares too many parameters stops a scan. -/
theorem instruction_oversized_iff :
    instruction source cursor = .error (some .oversized) ↔ source.OversizedAt cursor := by
  constructor
  · intro stopped
    rcases instruction_eq_error stopped with explained | ⟨-, oversized⟩
    · exact absurd explained id
    · exact oversized
  · rintro ⟨name, digits, after, count, words, read, large⟩
    obtain ⟨between, isKeyword, words⟩ := Source.words_cons_iff.mp words
    refine bind_eq_error_iff.mpr (.inr ⟨"defun", between, isKeyword, ?_⟩)
    refine bind_eq_error_iff.mpr (.inr ⟨between, between, rfl, ?_⟩)
    rw [ofKeyword?_defun]
    exact bind_eq_error_iff.mpr (.inl (header_oversized words read large))

end Scan

namespace Source

/-- Scanning a source reaches a header that declares too many parameters. -/
def Overreaches (source : Source) : Prop :=
  ∃ last, source.Scans (.start source.input.unread) source.instructions.instructions last ∧
    source.OversizedAt last

/-- The instructions of a source end for a true reason or at an oversized header. -/
theorem failure_explained {source : Source} :
    source.Explains source.instructions.failure ∨
      source.instructions.failure = some .oversized := by
  obtain ⟨last, -, stopped⟩ :=
    Tokenizer.exists_scans_streamFrom source (.start source.input.unread)
  rcases Scan.instruction_eq_error stopped with explained | ⟨isStop, -⟩
  · exact .inl explained
  · exact .inr isStop

theorem failure_eq_oversized_iff {source : Source} :
    source.instructions.failure = some .oversized ↔ source.Overreaches := by
  constructor
  · intro failed
    obtain ⟨last, scans, stopped⟩ :=
      Tokenizer.exists_scans_streamFrom source (.start source.input.unread)
    change Scan.instruction source last = .error source.instructions.failure at stopped
    rw [failed] at stopped
    exact ⟨last, scans, Scan.instruction_oversized_iff.mp stopped⟩
  · rintro ⟨last, scans, oversized⟩
    have isStream := Tokenizer.streamFrom_eq_iff.mpr
      ⟨last, scans, Scan.instruction_oversized_iff.mpr oversized⟩
    exact congrArg TokenStream.failure isStream

end Source

/-! ## The beginnings of programs -/

namespace Assembly

/-- Tokens that begin a program. -/
def Begins (tokens : List Token) : Prop :=
  ∃ layout : Layout, tokens <+: layout.tokens

/-- Tokens that continue a program behind its section marks, outside or inside a definition. -/
def Continues : (inside : Bool) → List Token → Prop
  | false, tokens =>
      ∃ definitions : List Definition, tokens <+: definitions.flatMap Definition.tokens
  | true, tokens =>
      ∃ (body : List Token) (ending : Token) (definitions : List Definition),
        tokens <+: body ++ ending :: definitions.flatMap Definition.tokens ∧
        (∀ token ∈ body, InBody token) ∧ ending.opcode = .endef

theorem continues_nil (inside : Bool) : Continues inside [] := by
  cases inside with
  | false => exact ⟨[], List.nil_prefix⟩
  | true => exact ⟨[], { opcode := .endef }, [], List.nil_prefix, List.forall_mem_nil _, rfl⟩

variable {token : Token} {tokens : List Token}

/-- Outside a definition there is nothing but headers. -/
theorem continues_outside_iff :
    Continues false (token :: tokens) ↔ token.opcode = .defun ∧ Continues true tokens := by
  constructor
  · rintro ⟨definitions, isPrefix⟩
    cases definitions with
    | nil => simp at isPrefix
    | cons definition definitions =>
        rw [List.flatMap_cons, Definition.tokens, List.cons_append, List.append_assoc,
          List.cons_prefix_cons] at isPrefix
        obtain ⟨rfl, isPrefix⟩ := isPrefix
        exact ⟨definition.isHeader, definition.code, definition.ending, definitions, isPrefix,
          definition.inBody, definition.isEnding⟩
  · rintro ⟨isHeader, body, ending, definitions, isPrefix, inBody, isEnding⟩
    refine ⟨⟨token, body, ending, isHeader, inBody, isEnding⟩ :: definitions, ?_⟩
    rw [List.flatMap_cons, Definition.tokens, List.cons_append, List.append_assoc]
    exact List.cons_prefix_cons.mpr ⟨rfl, isPrefix⟩

/-- Inside a definition there are tokens of its body and an end mark. -/
theorem continues_inside_iff :
    Continues true (token :: tokens) ↔
      token.opcode = .endef ∧ Continues false tokens ∨ InBody token ∧ Continues true tokens := by
  constructor
  · rintro ⟨body, ending, definitions, isPrefix, inBody, isEnding⟩
    cases body with
    | nil =>
        obtain ⟨rfl, rest⟩ := List.cons_prefix_cons.mp isPrefix
        exact .inl ⟨isEnding, definitions, rest⟩
    | cons first body =>
        obtain ⟨rfl, rest⟩ := List.cons_prefix_cons.mp isPrefix
        obtain ⟨first, inBody⟩ := List.forall_mem_cons.mp inBody
        exact .inr ⟨first, body, ending, definitions, rest, inBody, isEnding⟩
  · rintro (⟨isEnding, definitions, isPrefix⟩ | ⟨first, body, ending, definitions, isPrefix,
      inBody, isEnding⟩)
    · exact ⟨[], token, definitions, List.cons_prefix_cons.mpr ⟨rfl, isPrefix⟩,
        List.forall_mem_nil _, isEnding⟩
    · exact ⟨token :: body, ending, definitions, List.cons_prefix_cons.mpr ⟨rfl, isPrefix⟩,
        List.forall_mem_cons.mpr ⟨first, inBody⟩, isEnding⟩

theorem begins_nil : Begins [] :=
  ⟨⟨{ opcode := .rawMark }, { opcode := .classMark }, { opcode := .functionMark }, rfl, rfl, rfl,
    []⟩, List.nil_prefix⟩

variable {raw classes functionMark : Token}

theorem begins_one_iff : Begins [raw] ↔ raw.opcode = .rawMark := by
  constructor
  · rintro ⟨layout, isPrefix⟩
    rw [(List.cons_prefix_cons.mp isPrefix).1]
    exact layout.isRaw
  · intro isRaw
    exact ⟨⟨raw, { opcode := .classMark }, { opcode := .functionMark }, isRaw, rfl, rfl, []⟩,
      List.cons_prefix_cons.mpr ⟨rfl, List.nil_prefix⟩⟩

theorem begins_two_iff :
    Begins [raw, classes] ↔ raw.opcode = .rawMark ∧ classes.opcode = .classMark := by
  constructor
  · rintro ⟨layout, isPrefix⟩
    simp only [Layout.tokens, List.cons_prefix_cons] at isPrefix
    obtain ⟨rfl, rfl, -⟩ := isPrefix
    exact ⟨layout.isRaw, layout.isClasses⟩
  · rintro ⟨isRaw, isClasses⟩
    refine ⟨⟨raw, classes, { opcode := .functionMark }, isRaw, isClasses, rfl, []⟩, ?_⟩
    simp only [Layout.tokens, List.cons_prefix_cons]
    exact ⟨trivial, trivial, List.nil_prefix⟩

theorem begins_iff :
    Begins (raw :: classes :: functionMark :: tokens) ↔
      raw.opcode = .rawMark ∧ classes.opcode = .classMark ∧
        functionMark.opcode = .functionMark ∧ Continues false tokens := by
  constructor
  · rintro ⟨layout, isPrefix⟩
    simp only [Layout.tokens, List.cons_prefix_cons] at isPrefix
    obtain ⟨rfl, rfl, rfl, isPrefix⟩ := isPrefix
    exact ⟨layout.isRaw, layout.isClasses, layout.isFunctions, layout.definitions, isPrefix⟩
  · rintro ⟨isRaw, isClasses, isFunctions, definitions, isPrefix⟩
    refine ⟨⟨raw, classes, functionMark, isRaw, isClasses, isFunctions, definitions⟩, ?_⟩
    simp only [Layout.tokens, List.cons_prefix_cons]
    exact ⟨trivial, trivial, trivial, isPrefix⟩

/-! ## Errors of assembling -/

/-- A failure of the scanner is passed on, and a grammar error names the source. -/
def Reports (source : String) (failure : Option ScanError) : AssemblyError → Prop
  | .scan error => failure = some error
  | .grammar error => error.source = source

variable {source : String} {failure : Option ScanError}

theorem reports_atEnd (expected : Opcode) :
    Reports source failure (atEnd source failure expected) := by
  cases failure <;> rfl

theorem reports_of_mark {expected : Opcode} {stream : List Instruction} {error : AssemblyError}
    (failed : mark source failure expected stream = .error error) :
    Reports source failure error := by
  unfold mark at failed
  split at failed
  · cases failed
    exact reports_atEnd expected
  · split at failed
    · next oversized =>
        cases failed
        simp only [Bool.and_eq_true, beq_iff_eq] at oversized
        exact oversized.2
    · split at failed <;> cases failed
      rfl

theorem reports_of_functions {opened : Option (Token × List Token)} {stream : List Instruction}
    {error : AssemblyError} (failed : functions source failure opened stream = .error error) :
    Reports source failure error := by
  fun_induction functions source failure opened stream with
  | case1 scanError isFailure =>
      cases failed
      exact isFailure
  | case2 => cases failed
  | case3 found rest isHeader ih => exact ih failed
  | case4 found rest notHeader =>
      cases failed
      rfl
  | case5 opened =>
      cases failed
      exact reports_atEnd .endef
  | case6 header code found rest isEnd ih =>
      cases later : functions source failure none rest with
      | error error =>
          rw [later] at failed
          cases failed
          exact ih later
      | ok others =>
          rw [later] at failed
          cases failed
  | case7 header code found rest notEnd structural =>
      cases failed
      rfl
  | case8 header code found rest notEnd notStructural ih => exact ih failed

/-- Behind the section marks, an oversized header is met exactly if nothing is wrong before. -/
theorem functions_oversized_iff {opened : Option (Token × List Token)}
    {stream : List Instruction} :
    functions source (some .oversized) opened stream = .error (.scan .oversized) ↔
      Continues opened.isSome (stream.map (·.token)) := by
  induction stream generalizing opened with
  | nil =>
      have continues : Continues opened.isSome [] := continues_nil _
      cases opened <;> exact iff_of_true rfl continues
  | cons found rest ih =>
      cases opened with
      | none =>
          rw [functions, Option.isSome_none, List.map_cons, continues_outside_iff]
          by_cases isHeader : found.token.opcode = .defun
          · rw [if_pos isHeader, ih]
            simp [isHeader]
          · rw [if_neg isHeader]
            simp [isHeader]
      | some pair =>
          obtain ⟨header, code⟩ := pair
          rw [functions, Option.isSome_some, List.map_cons, continues_inside_iff]
          by_cases isEnd : found.token.opcode = .endef
          · have outside : ¬ InBody found.token := fun inBody => inBody.1 isEnd
            have continues : functions source (some .oversized) none rest =
                .error (.scan .oversized) ↔ Continues false (rest.map (·.token)) := ih
            rw [if_pos isEnd, ← continues]
            cases functions source (some .oversized) none rest <;>
              simp [Except.map, isEnd, outside]
          · rw [if_neg isEnd]
            by_cases structural : found.token.opcode.isStructural = true
            · have outside : ¬ InBody found.token := fun inBody => by simp [inBody.2] at structural
              rw [if_pos structural]
              simp [isEnd, outside]
            · have inside : InBody found.token := ⟨isEnd, by simpa using structural⟩
              rw [if_neg structural, ih]
              simp [isEnd, inside]

/-- A mark with nothing behind it but the oversized header is not judged. -/
theorem mark_bind_last {α : Type} (expected : Opcode) (found : Instruction)
    (next : List Instruction → Except AssemblyError α) :
    (mark source (some .oversized) expected [found] >>= next) = .error (.scan .oversized) :=
  rfl

/-- A mark with an instruction behind it is judged; the oversized header is met later. -/
theorem mark_bind_oversized_iff {α : Type} {expected : Opcode} {found following : Instruction}
    {rest : List Instruction} {next : List Instruction → Except AssemblyError α} :
    (mark source (some .oversized) expected (found :: following :: rest) >>= next) =
        .error (.scan .oversized) ↔
      found.token.opcode = expected ∧ next (following :: rest) = .error (.scan .oversized) := by
  by_cases isMark : found.token.opcode = expected <;>
    simp [mark, isMark, bind, Except.bind]

/-- The instructions that have been judged when the scanner meets an oversized header.  A section
mark is judged only after the instruction behind it has been scanned. -/
def judged (tokens : List Token) : List Token :=
  if tokens.length ≤ 3 then tokens.dropLast else tokens

end Assembly

open Assembly

namespace TokenStream

variable {stream : TokenStream} {source : String}

/-- Assembling fails with the scanner's own error or with one that names the source. -/
theorem reports_of_assemble {error : AssemblyError}
    (failed : stream.assemble source = .error error) : Reports source stream.failure error := by
  unfold assemble at failed
  simp only [bind, Except.bind] at failed
  split at failed
  · next first =>
      cases failed
      exact reports_of_mark first
  split at failed
  · next second =>
      cases failed
      exact reports_of_mark second
  split at failed
  · next third =>
      cases failed
      exact reports_of_mark third
  split at failed
  · next last =>
      cases failed
      exact reports_of_functions last
  · cases failed

/-- Assembling meets an oversized header exactly if nothing was wrong before. -/
theorem assemble_oversized_iff :
    stream.assemble source = .error (.scan .oversized) ↔
      stream.failure = some .oversized ∧ Begins (judged (stream.instructions.map (·.token))) := by
  obtain ⟨instructions, failure⟩ := stream
  by_cases oversized : failure = some .oversized
  · subst oversized
    rw [and_iff_right rfl]
    -- The three marks are taken one by one, each with a look at what is behind it.
    match instructions with
    | [] => exact iff_of_true rfl begins_nil
    | [_] => exact iff_of_true rfl begins_nil
    | [raw, classes] =>
        have isJudged : judged [raw.token, classes.token] = [raw.token] := rfl
        simp only [assemble, mark_bind_oversized_iff, mark_bind_last, List.map_cons, List.map_nil,
          isJudged, begins_one_iff, and_true]
    | [raw, classes, functionMark] =>
        have isJudged : judged [raw.token, classes.token, functionMark.token] =
            [raw.token, classes.token] := rfl
        simp only [assemble, mark_bind_oversized_iff, mark_bind_last, List.map_cons, List.map_nil,
          isJudged, begins_two_iff, and_true]
    | raw :: classes :: functionMark :: found :: rest =>
        have isJudged : judged ((raw :: classes :: functionMark :: found :: rest).map (·.token)) =
            (raw :: classes :: functionMark :: found :: rest).map (·.token) :=
          if_neg (by simp)
        have continues : functions source (some .oversized) none (found :: rest) =
            .error (.scan .oversized) ↔ Continues false ((found :: rest).map (·.token)) :=
          functions_oversized_iff
        rw [isJudged, List.map_cons, List.map_cons, List.map_cons, begins_iff, ← continues]
        simp only [assemble, mark_bind_oversized_iff, and_congr_right_iff]
        intro _ _ _
        cases functions source (some .oversized) none (found :: rest) with
        | error error => simp [bind, Except.bind]
        | ok functions => apply iff_of_false <;> rintro ⟨⟩
  · refine iff_of_false (fun failed => ?_) fun both => oversized both.1
    exact oversized (reports_of_assemble failed)

end TokenStream

/-! ## Loading -/

/-- An error that says something true about a source. -/
def Source.Accounts (source : Source) : AssemblyError → Prop
  | .scan error => source.Explains (some error)
  | .grammar error => error.source = source.name

/-- Loading a source ends with a program, with an error that is true of the source, or at a header
that declares too many parameters; the last exactly if scanning reaches such a header and what has
been judged before begins a program. -/
theorem Source.assemble_explained (source : Source) :
    (∀ error, source.assemble = .error error →
      error = .scan .oversized ∨ source.Accounts error) ∧
    (source.assemble = .error (.scan .oversized) ↔
      source.Overreaches ∧
        Begins (judged (source.instructions.instructions.map (·.token)))) := by
  constructor
  · intro error failed
    have reported := TokenStream.reports_of_assemble failed
    cases error with
    | grammar error => exact .inr reported
    | scan error =>
        rcases source.failure_explained with explained | oversized
        · rw [reported] at explained
          exact .inr explained
        · rw [reported, Option.some.injEq] at oversized
          exact .inl (congrArg AssemblyError.scan oversized)
  · rw [← Source.failure_eq_oversized_iff]
    exact TokenStream.assemble_oversized_iff

/-- A source whose only function declares more parameters than can be held. -/
def hugeAritySource : Source where
  name := "huge"
  input := ⟨".raw .class .function defun main 9223372036854775807 int".toList, none⟩

theorem Source.assemble_explained_hugeArity :
    hugeAritySource.Overreaches ∧ hugeAritySource.assemble = .error (.scan .oversized) ∧
      ¬ hugeAritySource.Accounts (.scan .oversized) := by
  have oversized : hugeAritySource.OversizedAt
      ⟨"defun main 9223372036854775807 int".toList, 0, 0⟩ :=
    ⟨"main", "9223372036854775807", _, _,
      .cons (by cbv) (.cons (by cbv) (.cons (by cbv) (.nil _))), by cbv, by decide⟩
  have scans : hugeAritySource.Scans (.start hugeAritySource.input.unread)
      [⟨{ opcode := .rawMark }, 0⟩, ⟨{ opcode := .classMark }, 0⟩,
        ⟨{ opcode := .functionMark }, 0⟩]
      ⟨"defun main 9223372036854775807 int".toList, 0, 0⟩ :=
    .cons (by cbv) (.cons (by cbv) (.cons (by cbv) (.nil _)))
  have isStream := Tokenizer.streamFrom_eq_iff.mpr
    ⟨_, scans, Scan.instruction_oversized_iff.mpr oversized⟩
  have overreaches : hugeAritySource.Overreaches :=
    ⟨_, congrArg TokenStream.instructions isStream ▸ scans, oversized⟩
  have begins : Assembly.Begins
      (Assembly.judged (hugeAritySource.instructions.instructions.map (·.token))) := by
    rw [show hugeAritySource.instructions = _ from isStream]
    exact Assembly.begins_two_iff.mpr ⟨rfl, rfl⟩
  exact ⟨overreaches, (Source.assemble_explained hugeAritySource).2.mpr ⟨overreaches, begins⟩, id⟩

end StackMachine
