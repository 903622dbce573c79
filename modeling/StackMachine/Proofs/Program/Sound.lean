import Mathlib
import StackMachine.Image.Basic

/-!
# Sound programs

A body is sound if every token in it is executable and every label leads to a label token with
its id.  The check of an image decides exactly this, together with the signs of indices and sizes
and the names of calls; so every program that is read from an image is sound.
-/

namespace StackMachine

/-- A token that the check of an image lets pass. -/
structure Token.Valid (token : Token) : Prop where
  executable : token.opcode.isExecutable = true
  index_nonneg : 0 ≤ token.index
  size_nonneg : 0 ≤ token.size
  named : token.opcode = .call → token.name ≠ ""

/-- A place of the code that holds a label with a given id. -/
def LeadsTo (code : Array Token) (id : Int64) (position : CodeIndex) : Prop :=
  0 ≤ position.toInt ∧ ∃ token, code[position.toInt.toNat]? = some token ∧
    token.opcode = .label ∧ token.index = id

/-- A body that never leads control astray. -/
structure Body.Sound (body : Body) : Prop where
  executable : ∀ token ∈ body.code, token.opcode.isExecutable = true
  leads : ∀ id position, body.target? id = some position → LeadsTo body.code id position

/-- A program of sound bodies. -/
def Program.Sound (program : Program) : Prop :=
  ∀ function ∈ program.functions, function.body.Sound

/-! ## Changing tokens -/

/-- A body with each of its tokens changed. -/
def Body.mapTokens (change : Token → Token) (body : Body) : Body :=
  { body with code? := body.code?.map (Array.map change) }

/-- A function with each of its tokens changed. -/
def Function.mapTokens (change : Token → Token) (function : Function) : Function :=
  { function with body := function.body.mapTokens change }

/-- A program with each of its tokens changed. -/
def Program.mapTokens (change : Token → Token) (program : Program) : Program :=
  ⟨program.functions?.map (List.map (Function.mapTokens change))⟩

@[simp]
theorem Body.code_mapTokens (change : Token → Token) (body : Body) :
    (body.mapTokens change).code = body.code.map change := by
  unfold Body.mapTokens Body.code
  cases body.code? <;> simp

@[simp]
theorem Body.target?_mapTokens (change : Token → Token) (body : Body) (id : Int64) :
    (body.mapTokens change).target? id = body.target? id :=
  rfl

@[simp]
theorem Program.functions_mapTokens (change : Token → Token) (program : Program) :
    (program.mapTokens change).functions = program.functions.map (Function.mapTokens change) := by
  rcases program with ⟨_ | functions⟩ <;> rfl

/-! ## Defects -/

namespace Body

theorem tokenDefect?_eq_none_iff (token : Token) (position : Nat) :
    tokenDefect? token position = none ↔ token.Valid := by
  unfold tokenDefect?
  constructor
  · intro passed
    split at passed
    · cases passed
    split at passed
    · cases passed
    split at passed
    · cases passed
    split at passed
    · cases passed
    next executable index size nameless =>
      exact ⟨by simpa using executable, Int64.not_lt.mp index, Int64.not_lt.mp size,
        fun call empty => nameless ⟨call, empty⟩⟩
  · rintro ⟨executable, index, size, named⟩
    rw [if_neg (by simp [executable]), if_neg (Int64.not_lt.mpr index),
      if_neg (Int64.not_lt.mpr size), if_neg fun nameless => named nameless.1 nameless.2]

theorem labelDefect?_eq_none_iff (code : Array Token) (id : Int64) (position : CodeIndex) :
    labelDefect? code id position = none ↔ LeadsTo code id position := by
  unfold labelDefect? LeadsTo
  by_cases negative : position.toInt < 0
  · simp [negative]
  · rw [if_neg negative]
    have nonneg : 0 ≤ position.toInt := Int.not_lt.mp negative
    cases found : code[position.toInt.toNat]? with
    | none => simp
    | some token => simp [nonneg]

/-- A body without a defect: all tokens are valid and all labels lead to their tokens. -/
theorem defect?_eq_none_iff (body : Body) :
    body.defect? = none ↔
      (∀ token ∈ body.code, token.Valid) ∧
        ∀ id position, body.target? id = some position → LeadsTo body.code id position := by
  unfold defect?
  rw [Option.or_eq_none_iff, List.findSome?_eq_none_iff, List.findSome?_eq_none_iff]
  refine and_congr ?_ ?_
  · constructor
    · intro passed token mem
      obtain ⟨position, inRange, rfl⟩ := Array.mem_iff_getElem.mp mem
      refine (tokenDefect?_eq_none_iff _ position).mp (passed (body.code[position], position) ?_)
      rw [List.mem_zipIdx_iff_getElem?]
      simp [inRange]
    · rintro valid ⟨token, position⟩ mem
      refine (tokenDefect?_eq_none_iff token position).mpr (valid token ?_)
      exact Array.mem_def.mpr (List.fst_mem_of_mem_zipIdx mem)
  · constructor
    · intro passed id position target
      refine (labelDefect?_eq_none_iff body.code id position).mp (passed (id, position) ?_)
      exact Std.ExtTreeMap.mem_toList_iff_getElem?_eq_some.mpr target
    · rintro leads ⟨id, position⟩ mem
      refine (labelDefect?_eq_none_iff body.code id position).mpr (leads id position ?_)
      exact Std.ExtTreeMap.mem_toList_iff_getElem?_eq_some.mp mem

theorem sound_of_defect?_eq_none {body : Body} (passed : body.defect? = none) : body.Sound := by
  obtain ⟨valid, leads⟩ := body.defect?_eq_none_iff.mp passed
  exact ⟨fun token mem => (valid token mem).executable, leads⟩

end Body

namespace Image

/-- Checking succeeds exactly on functions without a defect, and only gives them their labels. -/
theorem checkedFrom_eq_ok_iff (position : Nat) (functions checked : List Function) :
    checkedFrom position functions = .ok checked ↔
      (∀ function ∈ functions, (withLabels function).body.defect? = none) ∧
        checked = functions.map withLabels := by
  induction functions generalizing position checked with
  | nil => simp [checkedFrom, eq_comm]
  | cons first rest ih =>
      unfold checkedFrom
      cases passed : (withLabels first).body.defect? with
      | some defect => simp [passed]
      | none =>
          simp only [List.forall_mem_cons, passed, true_and, List.map_cons]
          constructor
          · intro ok
            cases later : checkedFrom (position + 1) rest with
            | error error =>
                rw [later] at ok
                cases ok
            | ok others =>
                rw [later] at ok
                cases ok
                obtain ⟨valid, rfl⟩ := (ih (position + 1) others).mp later
                exact ⟨valid, rfl⟩
          · rintro ⟨valid, rfl⟩
            rw [(ih (position + 1) _).mpr ⟨valid, rfl⟩]
            rfl

/-- A checked program is the program with its labels given, and has no defect. -/
theorem checked_eq_ok_iff (program result : Program) :
    checked program = .ok result ↔
      (∀ function ∈ program.functions, (withLabels function).body.defect? = none) ∧
        result = ⟨program.functions?.map (List.map withLabels)⟩ := by
  rcases program with ⟨_ | functions⟩
  · simp [checked, Program.functions, eq_comm]
  · simp only [checked, Program.functions, Option.getD_some, Option.map_some]
    constructor
    · intro ok
      cases done : checkedFrom 0 functions with
      | error error =>
          rw [done] at ok
          cases ok
      | ok others =>
          rw [done] at ok
          cases ok
          obtain ⟨valid, rfl⟩ := (checkedFrom_eq_ok_iff 0 functions others).mp done
          exact ⟨valid, rfl⟩
    · rintro ⟨valid, rfl⟩
      rw [(checkedFrom_eq_ok_iff 0 functions _).mpr ⟨valid, rfl⟩]
      rfl

/-- Checking fails at a function with a defect. -/
theorem checkedFrom_eq_error {start : Nat} {functions : List Function} {error : ImageError}
    (failed : checkedFrom start functions = .error error) :
    ∃ offset function defect, functions[offset]? = some function ∧
      (withLabels function).body.defect? = some defect ∧
      error = .invalid (start + offset) function.name defect := by
  induction functions generalizing start with
  | nil => cases failed
  | cons first rest ih =>
      unfold checkedFrom at failed
      cases passed : (withLabels first).body.defect? with
      | some defect =>
          rw [passed] at failed
          cases failed
          exact ⟨0, first, defect, rfl, passed, rfl⟩
      | none =>
          rw [passed] at failed
          cases later : checkedFrom (start + 1) rest with
          | ok others =>
              rw [later] at failed
              cases failed
          | error found =>
              rw [later] at failed
              cases failed
              obtain ⟨offset, function, defect, place, isDefect, rfl⟩ := ih later
              refine ⟨offset + 1, function, defect, place, isDefect, ?_⟩
              rw [Nat.add_assoc, Nat.add_comm 1 offset]

theorem checked_eq_error {program : Program} {error : ImageError}
    (failed : checked program = .error error) :
    ∃ position function defect, program.functions[position]? = some function ∧
      (withLabels function).body.defect? = some defect ∧
      error = .invalid position function.name defect := by
  rcases program with ⟨_ | functions⟩
  · cases failed
  · unfold checked at failed
    cases done : checkedFrom 0 functions with
    | ok others =>
        dsimp only at failed
        rw [done] at failed
        cases failed
    | error found =>
        dsimp only at failed
        rw [done] at failed
        cases failed
        obtain ⟨offset, function, defect, place, isDefect, rfl⟩ := checkedFrom_eq_error done
        exact ⟨offset, function, defect, place, isDefect, by rw [Nat.zero_add]⟩

/-- A program that is read from an image was read from the end of its bytes, and has passed the
check. -/
theorem checked_of_decode {bytes : Bytes} {program : Program} (read : decode bytes = .ok program) :
    ∃ rest raw, rest <:+ bytes ∧ (Cbor.decode rest >>= program?) = some raw ∧
      checked raw = .ok program := by
  unfold decode Cbor.takeBytes at read
  split at read
  · cases read
  split at read
  · cases read
  · next version rest enough =>
      split at enough
      · cases enough
        split at read
        · cases read
        split at read
        · cases read
        · next raw found =>
            exact ⟨_, raw, (List.drop_suffix _ _).trans (List.drop_suffix _ _), found, read⟩
      · cases enough

/-- Every program that is read from an image is sound. -/
theorem sound_of_decode {bytes : Bytes} {program : Program} (read : decode bytes = .ok program) :
    program.Sound := by
  obtain ⟨-, raw, -, -, ok⟩ := checked_of_decode read
  obtain ⟨valid, rfl⟩ := (checked_eq_ok_iff raw program).mp ok
  intro function mem
  rcases raw with ⟨_ | functions⟩
  · cases mem
  · obtain ⟨original, originalMem, rfl⟩ := List.mem_map.mp mem
    exact Body.sound_of_defect?_eq_none (valid original originalMem)

end Image

end StackMachine
