import StackMachine.Source.Scan

/-!
# Instructions with one of lookahead

A tokenizer holds the next instruction of a source, or the reason why there is
none, and hands it out without consuming it (`peek`) or consuming it (`next`).  Once
there is no next instruction, nothing changes any more.
-/

namespace StackMachine

/-- A source being read, with its next instruction scanned already. -/
structure Tokenizer where
  source : Source
  /-- Where the instruction after the next one begins. -/
  cursor : Cursor
  /-- The next instruction; `none` is the end of the text. -/
  ahead : Except (Option ScanError) Instruction

/-- A finite list of instructions and what comes after it: the end (`none`) or an error. -/
structure TokenStream where
  instructions : List Instruction
  failure : Option ScanError := none
  deriving DecidableEq, Repr

namespace Tokenizer

/-- Scans the instruction at a cursor. -/
def scanAt (source : Source) (cursor : Cursor) : Tokenizer :=
  match Scan.instruction source cursor with
  | .ok (instruction, after) => ⟨source, after, .ok instruction⟩
  | .error stop => ⟨source, cursor, .error stop⟩

/-- A tokenizer at the start of a source. -/
def ofSource (source : Source) : Tokenizer :=
  scanAt source (.start source.input.unread)

/-- The next instruction, which stays the next one. -/
def peek (t : Tokenizer) : Except (Option ScanError) Instruction := t.ahead

/-- The next instruction, and the tokenizer after it. -/
def next (t : Tokenizer) : Except (Option ScanError) Instruction × Tokenizer :=
  match t.ahead with
  | .ok instruction => (.ok instruction, scanAt t.source t.cursor)
  | .error stop => (.error stop, t)

/-- The scan of the next instruction could not be carried out at all. -/
def overflowed (t : Tokenizer) : Bool :=
  match t.ahead with
  | .error (some .oversized) => true
  | _ => false

/-- Everything from a cursor on. -/
def streamFrom (source : Source) (cursor : Cursor) : TokenStream :=
  match _scanned : Scan.instruction source cursor with
  | .ok (instruction, after) =>
      let rest := streamFrom source after
      { rest with instructions := instruction :: rest.instructions }
  | .error stop => ⟨[], stop⟩
termination_by cursor.text.length
decreasing_by exact Scan.length_instruction_lt _scanned

/-- Everything a tokenizer will hand out. -/
def stream (t : Tokenizer) : TokenStream :=
  match t.ahead with
  | .ok instruction =>
      let rest := streamFrom t.source t.cursor
      { rest with instructions := instruction :: rest.instructions }
  | .error stop => ⟨[], stop⟩

end Tokenizer

/-- All instructions of a source. -/
def Source.instructions (source : Source) : TokenStream :=
  Tokenizer.streamFrom source (.start source.input.unread)

end StackMachine
