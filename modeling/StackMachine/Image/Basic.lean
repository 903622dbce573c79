import StackMachine.Image.Program

/-!
# Program images

An image is four magic bytes, a format version and the data item of a program.  An
image is loaded only if its program could have been assembled from a source: every
token in a body is executable, indices and sizes are not negative, calls have names,
and every label leads to a label token with its id.
-/

namespace StackMachine

/-- Why a function cannot come from a source. -/
inductive Defect where
  | notExecutable (position : Nat) (opcode : Opcode)
  | negativeIndex (position : Nat) (token : Token)
  | negativeSize (position : Nat) (token : Token)
  | namelessCall (position : Nat)
  | labelOutOfRange (id : Int64) (position : CodeIndex)
  | labelMismatch (id : Int64) (position : CodeIndex) (token : Token)
  deriving DecidableEq, Repr

/-- The wording of a defect. -/
def Defect.message : Defect → String
  | .notExecutable position opcode => s!"@{position}: non-executable op {opcode.name}"
  | .negativeIndex position token => s!"@{position}: negative index in {token.text}"
  | .negativeSize position token => s!"@{position}: negative size in {token.text}"
  | .namelessCall position => s!"@{position}: call without a name"
  | .labelOutOfRange id position =>
      s!"label {id.toInt} target @{position.toInt} out of range"
  | .labelMismatch id position token =>
      s!"label {id.toInt} target @{position.toInt} is {token.text}"

namespace Body

/-- The defect of a token at a position. -/
def tokenDefect? (token : Token) (position : Nat) : Option Defect :=
  if !token.opcode.isExecutable then some (.notExecutable position token.opcode)
  else if token.index < 0 then some (.negativeIndex position token)
  else if token.size < 0 then some (.negativeSize position token)
  else if token.opcode = .call ∧ token.name = "" then some (.namelessCall position)
  else none

/-- The defect of a label. -/
def labelDefect? (code : Array Token) (id : Int64) (position : CodeIndex) : Option Defect :=
  if position.toInt < 0 then some (.labelOutOfRange id position)
  else
    match code[position.toInt.toNat]? with
    | none => some (.labelOutOfRange id position)
    | some token =>
        if token.opcode = .label ∧ token.index = id then none
        else some (.labelMismatch id position token)

/-- The first defect of a body: of its tokens in order, then of its labels by id. -/
def defect? (body : Body) : Option Defect :=
  (body.code.toList.zipIdx.findSome? fun (token, position) => tokenDefect? token position).or
    (body.labels.toList.findSome? fun (id, position) => labelDefect? body.code id position)

end Body

/-- Why bytes are no image. -/
inductive ImageError where
  | missingMagic
  /-- The version, if there is room for one. -/
  | unsupportedVersion (version : Option Nat)
  /-- The rest is no data item, or not that of a program. -/
  | malformed
  | invalid (position : Nat) (name : String) (defect : Defect)
  deriving DecidableEq, Repr

/-- The wording of an image error. -/
def ImageError.message : ImageError → String
  | .missingMagic => "image: missing magic bytes"
  | .unsupportedVersion none => "image: unsupported version"
  | .unsupportedVersion (some version) => s!"image: unsupported version {version}"
  | .malformed => "image: unmarshal program"
  | .invalid position name defect =>
      s!"image: invalid program: function #{position} {quoted name}: {defect.message}"

namespace Image

/-- The first bytes of every image. -/
def magic : Bytes := [0x52, 0x56, 0x4D, 0x49]

/-- The version of the format. -/
def version : Nat := 1

/-- The conventional ending of the name of an image file. -/
def extension : String := ".rvmc"

/-- The image of a program. -/
def encode (program : Program) : Bytes :=
  magic ++ Cbor.bigEndian 4 version ++ (ofProgram program).encode

/-- A body whose labels are given. -/
def withLabels (function : Function) : Function :=
  { function with body := { function.body with labels? := some function.body.labels } }

/-- Checks functions in order, the first of which has a given position. -/
def checkedFrom : Nat → List Function → Except ImageError (List Function)
  | _, [] => .ok []
  | position, function :: rest =>
      match (withLabels function).body.defect? with
      | some defect => .error (.invalid position function.name defect)
      | none => (checkedFrom (position + 1) rest).map (withLabels function :: ·)

/-- The program, if it could have been assembled. -/
def checked (program : Program) : Except ImageError Program :=
  match program.functions? with
  | none => .ok program
  | some functions => (checkedFrom 0 functions).map fun functions => ⟨some functions⟩

/-- The program of an image. -/
def decode (bytes : Bytes) : Except ImageError Program :=
  if bytes.take magic.length ≠ magic then .error .missingMagic
  else
    match Cbor.takeBytes 4 (bytes.drop magic.length) with
    | none => .error (.unsupportedVersion none)
    | some (found, rest) =>
        if Cbor.ofBigEndian found ≠ version then
          .error (.unsupportedVersion (some (Cbor.ofBigEndian found)))
        else
          match Cbor.decode rest >>= program? with
          | none => .error .malformed
          | some program => checked program

end Image

end StackMachine
