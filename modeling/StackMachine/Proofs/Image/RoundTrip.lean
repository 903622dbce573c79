import Mathlib
import StackMachine.Image.Basic
import StackMachine.Proofs.Image.Limits

/-!
# The round trip of a program through its image

Loading the image of a program succeeds exactly if the program is within the limits of an image
and has no defect, and gives the program in canonical form: zeros without a sign, one NaN, and a
label table for every function.  Functions, tokens, types, names and labels are all there, in their
order.
-/

namespace StackMachine

/-- What loading gives for the image of a program. -/
def Program.canonical (program : Program) : Program :=
  ⟨(program.mapTokens Token.canonical).functions?.map (List.map Image.withLabels)⟩

theorem Image.withLabels_eq_self {function : Function}
    (given : function.body.labels? = some function.body.labels) :
    withLabels function = function := by
  rw [withLabels, ← given]

/-- A program all of whose labels are given has canonical numbers after loading, and else it is
the same. -/
theorem Program.canonical_of_given {program : Program}
    (given : ∀ function ∈ program.functions, function.body.labels? = some function.body.labels) :
    program.canonical = program.mapTokens Token.canonical := by
  rcases program with ⟨_ | functions⟩
  · rfl
  · have labelled : (functions.map (Function.mapTokens Token.canonical)).map Image.withLabels =
        functions.map (Function.mapTokens Token.canonical) := by
      rw [List.map_map]
      refine List.map_congr_left fun function mem => ?_
      exact Image.withLabels_eq_self (given function mem)
    exact congrArg (fun functions => Program.mk (some functions)) labelled

/-! ## Defects -/

@[simp]
theorem Token.valid_canonical_iff (token : Token) : token.canonical.Valid ↔ token.Valid :=
  ⟨fun ⟨executable, index, size, named⟩ => ⟨executable, index, size, named⟩,
    fun ⟨executable, index, size, named⟩ => ⟨executable, index, size, named⟩⟩

/-- The canonical form of a code has the labels of the code. -/
theorem leadsTo_canonical_iff (code : Array Token) (id : Int64) (position : CodeIndex) :
    LeadsTo (code.map Token.canonical) id position ↔ LeadsTo code id position := by
  simp [LeadsTo, Token.canonical]

/-- The canonical form of a body has a defect exactly if the body has one. -/
theorem Body.defect?_canonical_iff (body : Body) :
    (body.mapTokens Token.canonical).defect? = none ↔ body.defect? = none := by
  simp [Body.defect?_eq_none_iff, leadsTo_canonical_iff]

namespace Image

open Cbor (Item)

@[simp]
theorem defect?_withLabels (function : Function) :
    (withLabels function).body.defect? = function.body.defect? :=
  rfl

/-- Labels that lead to places of a code within limits are in range. -/
theorem labelsInRange_of_leads {body : Body} (within : body.WithinLimits)
    (leads : ∀ id position, body.target? id = some position → LeadsTo body.code id position) :
    LabelsInRange body := by
  intro id position target
  obtain ⟨nonneg, token, found, -⟩ := leads id position target
  have size : body.code.size ≤ Cbor.maxElements := within.code.1
  have limit : Cbor.maxElements = 131072 := rfl
  obtain ⟨inCode, -⟩ := Array.getElem?_eq_some_iff.mp found
  unfold InRange
  omega

/-! ## Loading -/

/-- Loading what was written reads the item of the program and checks it. -/
theorem decode_encode (program : Program) :
    decode (encode program) =
      match Cbor.decode (ofProgram program).encode >>= program? with
      | none => .error .malformed
      | some raw => checked raw := by
  have start : (encode program).take magic.length = magic := rfl
  have rest : (encode program).drop magic.length =
      Cbor.bigEndian 4 version ++ (ofProgram program).encode := rfl
  have found : Cbor.takeBytes 4 (Cbor.bigEndian 4 version ++ (ofProgram program).encode) =
      some (Cbor.bigEndian 4 version, (ofProgram program).encode) :=
    Cbor.takeBytes_append (Cbor.bigEndian 4 version) _
  have current : Cbor.ofBigEndian (Cbor.bigEndian 4 version) = version :=
    Cbor.ofBigEndian_bigEndian (by decide)
  rw [decode, if_neg (not_not.mpr start), rest, found]
  exact if_neg (not_not.mpr current)

/-- The item of a program is read from its spelling, with canonical numbers, exactly if its labels
are in range and it is within limits. -/
theorem read_encode_eq_some_iff (program raw : Program) :
    (Cbor.decode (ofProgram program).encode >>= program?) = some raw ↔
      (∀ function ∈ program.functions, LabelsInRange function.body) ∧ program.WithinLimits ∧
        raw = program.mapTokens Token.canonical := by
  have plain := spellable_ofProgram program Cbor.maxLevels
  rw [Option.bind_eq_bind, Option.bind_eq_some_iff]
  constructor
  · rintro ⟨item, decoded, read⟩
    obtain ⟨fits, rfl⟩ := (Item.decode_encode_eq_some_iff plain).mp decoded
    obtain ⟨inRange, rfl⟩ := (program?_ofProgram_eq_some_iff program raw).mp read
    exact ⟨inRange, (fits_ofProgram_iff inRange).mp fits, rfl⟩
  · rintro ⟨inRange, within, rfl⟩
    have fits := (fits_ofProgram_iff inRange).mpr within
    exact ⟨_, (Item.decode_encode_eq_some_iff plain).mpr ⟨fits, rfl⟩,
      (program?_ofProgram_eq_some_iff program _).mpr ⟨inRange, rfl⟩⟩

/-- Checking the canonical form of a program finds the defects of the program. -/
theorem checked_canonical_eq_ok_iff (program result : Program) :
    checked (program.mapTokens Token.canonical) = .ok result ↔
      (∀ function ∈ program.functions, function.body.defect? = none) ∧
        result = program.canonical := by
  rw [checked_eq_ok_iff, Program.functions_mapTokens]
  simp only [defect?_withLabels, List.forall_mem_map]
  exact and_congr (forall₂_congr fun function _ => function.body.defect?_canonical_iff) Iff.rfl

/-- Loading the image of a program that is within limits checks its canonical form. -/
theorem decode_encode_of_within {program : Program}
    (inRange : ∀ function ∈ program.functions, LabelsInRange function.body)
    (within : program.WithinLimits) :
    decode (encode program) = checked (program.mapTokens Token.canonical) := by
  rw [decode_encode, (read_encode_eq_some_iff program _).mpr ⟨inRange, within, rfl⟩]

/-- An image that is loaded is that of a program within limits. -/
theorem checked_of_decode_encode {program result : Program}
    (loaded : decode (encode program) = .ok result) :
    program.WithinLimits ∧ checked (program.mapTokens Token.canonical) = .ok result := by
  rw [decode_encode] at loaded
  split at loaded
  · cases loaded
  · next raw read =>
      obtain ⟨-, within, rfl⟩ := (read_encode_eq_some_iff program raw).mp read
      exact ⟨within, loaded⟩

end Image

end StackMachine
