import StackMachine.Number.Literal
import StackMachine.Source.Words
import StackMachine.Token.Basic

/-!
# Scanning instructions

An instruction is a keyword followed by its operands, one word each.  Scanning
reads one instruction at a cursor, or says why there is none: the text has ended, a
word is wrong, or the source could not be read.
-/

namespace StackMachine

/-- What is wrong with a word. -/
inductive SyntaxCause where
  | unknownKeyword
  | missingOperand
  | unterminatedLiteral
  | invalidNumber (fault : NumberFault)
  deriving DecidableEq, Repr

/-- The wording of a cause. -/
def SyntaxCause.message : SyntaxCause → String
  | .unknownKeyword => "unknown keyword"
  | .missingOperand => "missing argument"
  | .unterminatedLiteral => "right quotation missing"
  | .invalidNumber fault => "invalid number: " ++ fault.message

/-- A word that cannot be part of an instruction. -/
structure SyntaxError where
  /-- The name of the source. -/
  source : String
  /-- The row on which the last word read began. -/
  row : Nat
  word : String
  cause : SyntaxCause
  deriving DecidableEq, Repr

/-- The wording of a syntax error. -/
def SyntaxError.message (e : SyntaxError) : String :=
  s!"{e.source} row {e.row}: {e.cause.message} {quoted e.word}"

/-- Why scanning fails. -/
inductive ScanError where
  | malformed (error : SyntaxError)
  | unreadable (fault : ReadFault)
  /-- A function declares more parameters than an address space can hold.  Nothing is
  reported: the scan itself cannot go on. -/
  | oversized
  deriving DecidableEq, Repr

/-- The wording of a scan error. -/
def ScanError.message : ScanError → String
  | .malformed error => error.message
  | .unreadable fault => fault.message
  | .oversized => "runtime error: makeslice: len out of range"

/-- The longest parameter list: twenty-four bytes for each type in a space of `2 ^ 48` bytes. -/
def maxArity : Nat := 0x1000000000000 / 24

/-- Scanning reads on from a cursor, and stops at the end of the text (`none`) or with an error. -/
abbrev Scan := StateT Cursor (Except (Option ScanError))

namespace Scan

/-- Reports a word on the row of the last word read. -/
def reject {α : Type} (source : Source) (word : String) (cause : SyntaxCause) : Scan α := do
  let cursor ← get
  throw (some (.malformed ⟨source.name, cursor.wordRow, word, cause⟩))

/-- The next word. -/
def word (source : Source) : Scan String := fun cursor =>
  match cursor.nextWord source.input.fault with
  | .word text after => .ok (text, after)
  | .ended => .error none
  | .unterminated literal row =>
      .error (some (.malformed ⟨source.name, row, "\"" ++ literal, .unterminatedLiteral⟩))
  | .failed fault => .error (some (.unreadable fault))

/-- The next word, which an instruction cannot do without. -/
def operand (source : Source) (keyword : String) : Scan String := fun cursor =>
  match word source cursor with
  | .error none => reject source keyword .missingOperand cursor
  | result => result

/-- An operand that some reader must accept. -/
def number {α : Type} (source : Source) (keyword : String)
    (read : String → Except NumberFault α) : Scan α := do
  let text ← operand source keyword
  match read text with
  | .ok value => return value
  | .error fault => reject source text (.invalidNumber fault)

/-- An index operand. -/
def index (source : Source) (keyword : String) : Scan Int64 :=
  number source keyword readIndex

/-- A floating-point operand. -/
def float (source : Source) (keyword : String) : Scan Binary32 :=
  number source keyword fun text =>
    match Binary32.read? text with
    | some value => .ok value
    | none => .error .syntactic

/-- A list of type operands. -/
def types (source : Source) (keyword : String) : Nat → Scan (List DeclaredType)
  | 0 => return []
  | count + 1 => do
      let word ← operand source keyword
      let rest ← types source keyword count
      return .ofWord word :: rest

/-- The number of parameters of a function. -/
def arity (source : Source) (keyword : String) : Scan Nat := do
  let count ← index source keyword
  if maxArity < count.toInt.toNat then throw (some .oversized) else return count.toInt.toNat

/-- The operands of a function header: name, arity, parameter types, result type. -/
def header (source : Source) (keyword : String) : Scan Token := do
  let name ← operand source keyword
  let count ← arity source keyword
  let params ← types source keyword count
  let result ← operand source keyword
  return { opcode := .defun, name, params, result := .ofWord result }

/-- The operands of an instruction whose keyword has been read. -/
def operands (source : Source) (keyword : String) (opcode : Opcode) : Scan Token :=
  match opcode with
  | .defun => header source keyword
  | .pushi => do
      let int ← number source keyword readInt32
      return { opcode, int }
  | .pushf => do
      let float ← float source keyword
      return { opcode, float }
  | .load | .store | .label | .goto | .branch => do
      let index ← index source keyword
      return { opcode, index }
  | .stores => do
      let index ← Scan.index source keyword
      let size ← Scan.index source keyword
      let name ← operand source keyword
      return { opcode, index, size, name }
  | .call => do
      let name ← operand source keyword
      return { opcode, name }
  | _ => return { opcode }

/-- The instruction of a keyword that has just been read. -/
def afterKeyword (source : Source) (keyword : String) : Scan Instruction := do
  let cursor ← get
  match Opcode.ofKeyword? keyword with
  | some opcode =>
      let token ← operands source keyword opcode
      return ⟨token, cursor.wordRow⟩
  | none => reject source keyword .unknownKeyword

/-- One instruction. -/
def instruction (source : Source) : Scan Instruction := do
  let keyword ← word source
  afterKeyword source keyword

/-! ## Scanning makes progress -/

/-- A scan that never moves backwards. -/
def Forward {α : Type} (scan : Scan α) : Prop :=
  ∀ cursor value after, scan cursor = .ok (value, after) →
    after.text.length ≤ cursor.text.length

theorem forward_pure {α : Type} (a : α) : Forward (pure a : Scan α) := by
  intro cursor value after h
  cases h
  exact Nat.le_refl _

theorem forward_bind {α β : Type} {scan : Scan α} {next : α → Scan β}
    (first : Forward scan) (second : ∀ a, Forward (next a)) : Forward (scan >>= next) := by
  intro cursor value after h
  simp only [bind, StateT.bind, Except.bind] at h
  cases middle : scan cursor with
  | error e => simp [middle] at h
  | ok pair =>
      obtain ⟨a, between⟩ := pair
      simp only [middle] at h
      exact Nat.le_trans (second a between value after h) (first cursor a between middle)

theorem forward_reject {α : Type} (source : Source) (word : String) (cause : SyntaxCause) :
    Forward (reject source word cause : Scan α) := by
  intro cursor value after h
  simp [reject, get, getThe, MonadStateOf.get, StateT.get, bind, StateT.bind, Except.bind, pure,
    Except.pure, throw, throwThe, MonadExceptOf.throw, StateT.lift] at h

/-- A word is never empty of characters: reading it shortens the text. -/
theorem length_word_lt {source : Source} {cursor after : Cursor} {text : String}
    (h : word source cursor = .ok (text, after)) :
    after.text.length < cursor.text.length := by
  unfold word at h
  split at h
  · next _ _ read =>
      simp only [Except.ok.injEq, Prod.mk.injEq] at h
      rw [← h.2]
      exact Cursor.length_nextWord_lt read
  · simp at h
  · simp at h
  · simp at h

theorem forward_word (source : Source) : Forward (word source) :=
  fun _ _ _ h => Nat.le_of_lt (length_word_lt h)

theorem forward_operand (source : Source) (keyword : String) :
    Forward (operand source keyword) := by
  intro cursor value after h
  unfold operand at h
  split at h
  · exact forward_reject source keyword .missingOperand cursor value after h
  · exact forward_word source cursor value after h

theorem forward_number {α : Type} (source : Source) (keyword : String)
    (read : String → Except NumberFault α) : Forward (number source keyword read) := by
  refine forward_bind (forward_operand source keyword) fun text => ?_
  cases read text with
  | ok value => exact forward_pure value
  | error fault => exact forward_reject source text (.invalidNumber fault)

theorem forward_types (source : Source) (keyword : String) (count : Nat) :
    Forward (types source keyword count) := by
  induction count with
  | zero => exact forward_pure []
  | succ count ih =>
      exact forward_bind (forward_operand source keyword) fun _ =>
        forward_bind ih fun _ => forward_pure _

theorem forward_throw {α : Type} (e : Option ScanError) : Forward (throw e : Scan α) := by
  intro cursor value after h
  simp [throw, throwThe, MonadExceptOf.throw, StateT.lift, bind, Except.bind] at h

theorem forward_arity (source : Source) (keyword : String) :
    Forward (arity source keyword) := by
  refine forward_bind (forward_number source keyword readIndex) fun count => ?_
  split
  · exact forward_throw _
  · exact forward_pure _

theorem forward_header (source : Source) (keyword : String) :
    Forward (header source keyword) :=
  forward_bind (forward_operand source keyword) fun _ =>
    forward_bind (forward_arity source keyword) fun _ =>
      forward_bind (forward_types source keyword _) fun _ =>
        forward_bind (forward_operand source keyword) fun _ => forward_pure _

theorem forward_operands (source : Source) (keyword : String) (opcode : Opcode) :
    Forward (operands source keyword opcode) := by
  unfold operands
  split
  · exact forward_header source keyword
  · exact forward_bind (forward_number _ _ _) fun _ => forward_pure _
  · exact forward_bind (forward_number _ _ _) fun _ => forward_pure _
  · exact forward_bind (forward_number _ _ _) fun _ => forward_pure _
  · exact forward_bind (forward_number _ _ _) fun _ => forward_pure _
  · exact forward_bind (forward_number _ _ _) fun _ => forward_pure _
  · exact forward_bind (forward_number _ _ _) fun _ => forward_pure _
  · exact forward_bind (forward_number _ _ _) fun _ => forward_pure _
  · exact forward_bind (forward_number _ _ _) fun _ =>
      forward_bind (forward_number _ _ _) fun _ =>
        forward_bind (forward_operand _ _) fun _ => forward_pure _
  · exact forward_bind (forward_operand _ _) fun _ => forward_pure _
  · exact forward_pure _

theorem forward_get : Forward (get : Scan Cursor) := by
  intro cursor value after h
  simp only [get, getThe, MonadStateOf.get, StateT.get, pure, Except.pure, Except.ok.injEq,
    Prod.mk.injEq] at h
  exact Nat.le_of_eq (by rw [h.2])

theorem forward_afterKeyword (source : Source) (keyword : String) :
    Forward (afterKeyword source keyword) := by
  refine forward_bind forward_get fun cursor => ?_
  cases Opcode.ofKeyword? keyword with
  | some opcode => exact forward_bind (forward_operands _ _ _) fun _ => forward_pure _
  | none => exact forward_reject _ _ _

/-- Scanning an instruction consumes at least one character. -/
theorem length_instruction_lt {source : Source} {cursor after : Cursor}
    {scanned : Instruction} (h : instruction source cursor = .ok (scanned, after)) :
    after.text.length < cursor.text.length := by
  unfold instruction at h
  simp only [bind, StateT.bind, Except.bind] at h
  cases read : word source cursor with
  | error e => simp [read] at h
  | ok pair =>
      obtain ⟨keyword, between⟩ := pair
      simp only [read] at h
      exact Nat.lt_of_le_of_lt (forward_afterKeyword source keyword between scanned after h)
        (length_word_lt read)

end Scan

end StackMachine
