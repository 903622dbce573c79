import StackMachine.Program.Basic
import StackMachine.Source.Stream

/-!
# Assembling

A program is written as three section marks followed by function definitions, each
of them a header, any number of instructions and an end mark:

    .raw .class .function (defun instruction* endef)*

Assembling turns such a stream of instructions into a program.  Of several labels
with one id the last counts.
-/

namespace StackMachine

/-- An instruction, or the end of the source (`none`), where the grammar asks for another. -/
structure GrammarError where
  /-- The name of the source, empty if it has none. -/
  source : String
  expected : Opcode
  found : Option Instruction
  deriving DecidableEq, Repr

/-- The wording of a grammar error. -/
def GrammarError.message (e : GrammarError) : String :=
  match e.found with
  | some found =>
      (if e.source.isEmpty then "" else e.source ++ " ")
        ++ s!"row {found.row}: expected {e.expected.name}, found {found.token.text}"
  | none =>
      (if e.source.isEmpty then "" else e.source ++ ": ")
        ++ s!"expected {e.expected.name}, found EOF"

/-- Why a source gives no program. -/
inductive AssemblyError where
  | scan (error : ScanError)
  | grammar (error : GrammarError)
  deriving DecidableEq, Repr

/-- The wording of an assembly error. -/
def AssemblyError.message : AssemblyError → String
  | .scan error => error.message
  | .grammar error => error.message

/-- The label table of some code: each id has the index of the last label with that id. -/
def labelTable (code : List Token) : LabelTable :=
  code.zipIdx.foldl (fun table (token, position) =>
    if token.opcode = .label then table.insert token.index ⟨position⟩ else table) ∅

namespace Assembly

/-- The error at the end of a stream where an opcode is due. -/
def atEnd (source : String) (failure : Option ScanError) (expected : Opcode) : AssemblyError :=
  match failure with
  | some error => .scan error
  | none => .grammar ⟨source, expected, none⟩

/-- The function of a header and its code. -/
def function (header : Token) (code : List Token) : Function where
  name := header.name
  params? := collected header.params
  result := header.result
  body := { code? := (collected code).map List.toArray, labels? := some (labelTable code) }

/-- Takes a section mark.  The instruction after it is scanned before the mark is judged, so a
scan that cannot be carried out wins over a wrong mark. -/
def mark (source : String) (failure : Option ScanError) (expected : Opcode) :
    List Instruction → Except AssemblyError (List Instruction)
  | [] => .error (atEnd source failure expected)
  | found :: rest =>
      if rest.isEmpty && failure == some .oversized then .error (.scan .oversized)
      else if found.token.opcode = expected then .ok rest
      else .error (.grammar ⟨source, expected, some found⟩)

/-- The functions of a stream.  `opened` is the header of the function that is being read and
its code so far, last token first. -/
def functions (source : String) (failure : Option ScanError) :
    (opened : Option (Token × List Token)) → List Instruction →
    Except AssemblyError (List Function)
  | none, [] =>
      match failure with
      | some error => .error (.scan error)
      | none => .ok []
  | none, found :: rest =>
      if found.token.opcode = .defun then
        functions source failure (some (found.token, [])) rest
      else .error (.grammar ⟨source, .defun, some found⟩)
  | some _, [] => .error (atEnd source failure .endef)
  | some (header, code), found :: rest =>
      if found.token.opcode = .endef then
        (functions source failure none rest).map (function header code.reverse :: ·)
      else if found.token.opcode.isStructural then
        .error (.grammar ⟨source, .endef, some found⟩)
      else functions source failure (some (header, found.token :: code)) rest

end Assembly

/-- The program of a stream of instructions from a source of a given name. -/
def TokenStream.assemble (stream : TokenStream) (source : String) :
    Except AssemblyError Program := do
  let rest ← Assembly.mark source stream.failure .rawMark stream.instructions
  let rest ← Assembly.mark source stream.failure .classMark rest
  let rest ← Assembly.mark source stream.failure .functionMark rest
  let functions ← Assembly.functions source stream.failure none rest
  return { functions? := collected functions }

/-- The program of a source. -/
def Source.assemble (source : Source) : Except AssemblyError Program :=
  source.instructions.assemble source.name

end StackMachine
