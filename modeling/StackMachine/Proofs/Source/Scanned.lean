import Mathlib
import StackMachine.Proofs.Number.Nearest
import StackMachine.Source.Stream

/-!
# What scanning yields

Every instruction that a source gives has the opcode of a keyword, no negative index or size, and a
number only if it pushes one, of which at most one NaN; and it has no operands but those of its
keyword.  The statements are proved along the scanner: `Yields` is what a scan guarantees of its
value, and each part of the scanner has one lemma.
-/

namespace StackMachine

namespace Scan

/-- A scan all of whose values have a property. -/
def Yields {α : Type} (Property : α → Prop) (scan : Scan α) : Prop :=
  ∀ cursor value after, scan cursor = .ok (value, after) → Property value

theorem yields_pure {α : Type} {Property : α → Prop} {a : α} (holds : Property a) :
    Yields Property (pure a : Scan α) := by
  intro cursor value after scanned
  cases scanned
  exact holds

theorem yields_bind {α β : Type} {First : α → Prop} {Second : β → Prop} {scan : Scan α}
    {next : α → Scan β} (first : Yields First scan)
    (second : ∀ a, First a → Yields Second (next a)) : Yields Second (scan >>= next) := by
  intro cursor value after scanned
  simp only [bind, StateT.bind, Except.bind] at scanned
  cases middle : scan cursor with
  | error stop => simp [middle] at scanned
  | ok pair =>
      obtain ⟨a, between⟩ := pair
      simp only [middle] at scanned
      exact second a (first cursor a between middle) between value after scanned

theorem yields_any {α : Type} (scan : Scan α) : Yields (fun _ => True) scan :=
  fun _ _ _ _ => trivial

theorem yields_reject {α : Type} (Property : α → Prop) (source : Source) (word : String)
    (cause : SyntaxCause) : Yields Property (reject source word cause) := by
  intro cursor value after scanned
  simp [reject, get, getThe, MonadStateOf.get, StateT.get, bind, StateT.bind, Except.bind, pure,
    Except.pure, throw, throwThe, MonadExceptOf.throw, StateT.lift] at scanned

/-- A number is what its reader made of some word. -/
theorem yields_number {α : Type} (source : Source) (keyword : String)
    (read : String → Except NumberFault α) :
    Yields (fun value => ∃ word, read word = .ok value) (number source keyword read) := by
  refine yields_bind (yields_any (operand source keyword)) fun word _ => ?_
  cases found : read word with
  | ok value => exact yields_pure ⟨word, found⟩
  | error fault => exact yields_reject _ source word (.invalidNumber fault)

end Scan

/-- Digits within a bound give a number within it. -/
theorem readDigitsFrom_le {largest value number : Nat} {digits : List Char}
    (small : value ≤ largest) (read : readDigitsFrom largest value digits = .ok number) :
    number ≤ largest := by
  induction digits generalizing value with
  | nil =>
      cases read
      exact small
  | cons digit digits ih =>
      simp only [readDigitsFrom] at read
      split at read
      · split at read
        · next within => exact ih within read
        · cases read
      · cases read

/-- An index is never negative. -/
theorem readIndex_nonneg {word : String} {index : Int64} (read : readIndex word = .ok index) :
    0 ≤ index := by
  unfold readIndex readDigits at read
  split at read
  · cases read
  · cases digits : readDigitsFrom 0x7FFFFFFFFFFFFFFF 0 word.toList with
    | error fault =>
        rw [digits] at read
        cases read
    | ok number =>
        rw [digits] at read
        cases read
        have bound := readDigitsFrom_le (Nat.zero_le _) digits
        rw [Int64.le_iff_toInt_le, Int64.toInt_ofNat_of_lt (by omega)]
        exact Int.natCast_nonneg number

namespace Binary32

theorem isNaN_readDecimal? {negative : Bool} {text : List Char} {x : Binary32}
    (read : readDecimal? negative text = some x) : x.isNaN = false := by
  obtain ⟨parts, -, rfl⟩ := Option.map_eq_some_iff.mp read
  exact isNaN_nearest _ _ _

theorem isNaN_readHexadecimal? {negative : Bool} {text : List Char} {x : Binary32}
    (read : readHexadecimal? negative text = some x) : x.isNaN = false := by
  unfold readHexadecimal? at read
  obtain ⟨_, -, read⟩ := Option.bind_eq_some_iff.mp read
  dsimp only at read
  split at read
  · cases read
  · split at read
    · obtain ⟨exponent, -, read⟩ := Option.bind_eq_some_iff.mp read
      cases read
      exact isNaN_nearest _ _ _
    · cases read

theorem isNaN_readMagnitude? {negative : Bool} {text : List Char} {x : Binary32}
    (read : readMagnitude? negative text = some x) : x.isNaN = false := by
  unfold readMagnitude? at read
  split at read
  · cases read
    exact isNaN_infinity negative
  · unfold readUnsigned? at read
    split at read
    · split at read
      · exact isNaN_readHexadecimal? read
      · exact isNaN_readDecimal? read
    · exact isNaN_readDecimal? read

/-- The only NaN that a word spells is the one that operations give. -/
theorem read?_eq_nan {word : String} {x : Binary32} (read : read? word = some x)
    (isNaN : x.isNaN = true) : x = nan := by
  unfold read? at read
  dsimp only at read
  split at read
  · cases read
    rfl
  · split at read
    · cases read
    · split at read
      all_goals
        rw [isNaN_readMagnitude? read] at isNaN
        cases isNaN

end Binary32

/-- What scanning guarantees of a token. -/
structure Token.Scanned (token : Token) : Prop where
  opcode_mem : token.opcode ∈ Opcode.named
  opcode_ne : token.opcode ≠ .invalid
  index_nonneg : 0 ≤ token.index
  size_nonneg : 0 ≤ token.size
  eq_zero : token.opcode ≠ .pushf → token.float = .zero
  eq_nan : token.float.isNaN = true → token.float = .nan

theorem Opcode.ofKeyword?_eq_some {word : String} {opcode : Opcode}
    (found : ofKeyword? word = some opcode) : opcode ∈ named ∧ opcode ≠ .invalid := by
  have satisfied := List.find?_some found
  simp only [Bool.and_eq_true, bne_iff_ne] at satisfied
  exact ⟨List.mem_of_find?_eq_some found, satisfied.1⟩

namespace Scan

/-- A token whose numbers are all zero. -/
theorem scanned_of_zero {token : Token} (mem : token.opcode ∈ Opcode.named)
    (ne : token.opcode ≠ .invalid) (index : token.index = 0) (size : token.size = 0)
    (float : token.float = .zero) : token.Scanned where
  opcode_mem := mem
  opcode_ne := ne
  index_nonneg := Int64.le_of_eq index.symm
  size_nonneg := Int64.le_of_eq size.symm
  eq_zero _ := float
  eq_nan isNaN := by
    rw [float] at isNaN
    exact absurd isNaN (by decide)

theorem yields_index (source : Source) (keyword : String) :
    Yields (0 ≤ ·) (index source keyword) := by
  intro cursor value after scanned
  obtain ⟨word, read⟩ := yields_number source keyword readIndex cursor value after scanned
  exact readIndex_nonneg read

theorem yields_float (source : Source) (keyword : String) :
    Yields (fun x => x.isNaN = true → x = .nan) (float source keyword) := by
  intro cursor value after scanned isNaN
  obtain ⟨word, read⟩ := yields_number source keyword _ cursor value after scanned
  split at read
  · next x found =>
      cases read
      exact Binary32.read?_eq_nan found isNaN
  · cases read

theorem yields_header (source : Source) (keyword : String) :
    Yields Token.Scanned (header source keyword) :=
  yields_bind (yields_any _) fun _ _ => yields_bind (yields_any _) fun _ _ =>
    yields_bind (yields_any _) fun _ _ => yields_bind (yields_any _) fun _ _ =>
      yields_pure (scanned_of_zero (by simp [Opcode.named]) nofun rfl rfl rfl)

theorem yields_operands (source : Source) (keyword : String) {opcode : Opcode}
    (mem : opcode ∈ Opcode.named) (ne : opcode ≠ .invalid) :
    Yields Token.Scanned (operands source keyword opcode) := by
  have bare : Token.Scanned { opcode } := scanned_of_zero mem ne rfl rfl rfl
  unfold operands
  split
  · exact yields_header source keyword
  · exact yields_bind (yields_any _) fun _ _ => yields_pure { bare with }
  · exact yields_bind (yields_float _ _) fun _ canonical =>
      yields_pure { bare with eq_zero := fun other => absurd rfl other, eq_nan := canonical }
  -- The five opcodes with one index.
  iterate 5
    exact yields_bind (yields_index _ _) fun _ nonneg =>
      yields_pure { bare with index_nonneg := nonneg }
  · exact yields_bind (yields_index _ _) fun _ indexNonneg =>
      yields_bind (yields_index _ _) fun _ sizeNonneg =>
        yields_bind (yields_any _) fun _ _ =>
          yields_pure { bare with index_nonneg := indexNonneg, size_nonneg := sizeNonneg }
  · exact yields_bind (yields_any _) fun _ _ => yields_pure { bare with }
  · exact yields_pure bare

/-- What holds of the tokens of all keywords holds of the tokens of instructions. -/
theorem yields_instruction {Property : Token → Prop} {source : Source}
    (holds : ∀ keyword opcode, opcode ∈ Opcode.named → opcode ≠ .invalid →
      Yields Property (operands source keyword opcode)) :
    Yields (fun scanned => Property scanned.token) (instruction source) := by
  refine yields_bind (yields_any _) fun keyword _ => yields_bind (yields_any _) fun cursor _ => ?_
  cases found : Opcode.ofKeyword? keyword with
  | some opcode =>
      obtain ⟨mem, ne⟩ := Opcode.ofKeyword?_eq_some found
      exact yields_bind (holds keyword opcode mem ne) fun token scanned => yields_pure scanned
  | none => exact yields_reject _ source keyword .unknownKeyword

end Scan

/-- What scanning an instruction guarantees holds of every instruction of a source. -/
theorem Tokenizer.of_mem_streamFrom {source : Source} {cursor : Cursor} {Property : Token → Prop}
    (yields : Scan.Yields (fun scanned => Property scanned.token) (Scan.instruction source))
    {found : Instruction} (mem : found ∈ (streamFrom source cursor).instructions) :
    Property found.token := by
  fun_induction streamFrom source cursor with
  | case1 cursor first after scanned rest ih =>
      rcases List.mem_cons.mp mem with rfl | later
      · exact yields cursor found after scanned
      · exact ih later
  | case2 cursor stop scanned => cases mem

theorem Source.scanned_of_mem_instructions {source : Source} {found : Instruction}
    (mem : found ∈ source.instructions.instructions) : found.token.Scanned :=
  Tokenizer.of_mem_streamFrom (Scan.yields_instruction fun keyword _ mem ne =>
    Scan.yields_operands source keyword mem ne) mem

/-! ## Operands -/

/-- A token with the operands of its opcode only. -/
def Token.plain (token : Token) : Token :=
  match token.opcode with
  | .defun =>
      { opcode := .defun, name := token.name, params := token.params, result := token.result }
  | .pushi => { opcode := .pushi, int := token.int }
  | .pushf => { opcode := .pushf, float := token.float }
  | .stores => { opcode := .stores, index := token.index, size := token.size, name := token.name }
  | .call => { opcode := .call, name := token.name }
  | .load | .store | .label | .goto | .branch => { opcode := token.opcode, index := token.index }
  | opcode => { opcode }

end StackMachine
