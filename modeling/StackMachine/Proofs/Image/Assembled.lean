import Mathlib
import StackMachine.Proofs.Image.RoundTrip

/-!
# Images of assembled programs

The check of an image and the assembler agree on what a program is, but for one thing: a source may
call a function with an empty name, and the check refuses that.  So the image of an assembled
program is loaded exactly if every call in it has a name, and is refused for a nameless call
otherwise.
-/

namespace StackMachine

namespace Body

/-- The only defect of a token that can be assembled is a missing name. -/
theorem tokenDefect?_of_executable {token : Token} (executable : token.opcode.isExecutable = true)
    (index : 0 ≤ token.index) (size : 0 ≤ token.size) (position : Nat) :
    tokenDefect? token position =
      if token.opcode = .call ∧ token.name = "" then some (.namelessCall position) else none := by
  rw [tokenDefect?, if_neg (by simp [executable]), if_neg (Int64.not_lt.mpr index),
    if_neg (Int64.not_lt.mpr size)]

/-- The canonical form of an assembled body has no defect but a nameless call. -/
theorem Assembled.namelessCall {body : Body} (assembled : body.Assembled) {defect : Defect}
    (found : (body.mapTokens Token.canonical).defect? = some defect) :
    ∃ place token, body.code[place]? = some token ∧ token.opcode = .call ∧ token.name = "" ∧
      defect = .namelessCall place := by
  rw [Body.defect?, Option.or_eq_some_iff] at found
  rcases found with inCode | ⟨-, inLabels⟩
  · obtain ⟨⟨token, place⟩, mem, isDefect⟩ := List.exists_of_findSome?_eq_some inCode
    rw [List.mem_zipIdx_iff_getElem?, code_mapTokens, Array.getElem?_toList, Array.getElem?_map,
      Option.map_eq_some_iff] at mem
    obtain ⟨original, atPlace, rfl⟩ := mem
    have originalMem := Array.mem_of_getElem? atPlace
    have scanned := assembled.scanned original originalMem
    have executable : original.canonical.opcode.isExecutable = true :=
      assembled.executable original originalMem
    dsimp only at isDefect
    rw [tokenDefect?_of_executable executable scanned.index_nonneg scanned.size_nonneg] at isDefect
    split at isDefect
    · next nameless =>
        cases isDefect
        exact ⟨place, original, atPlace, nameless.1, nameless.2, rfl⟩
    · cases isDefect
  · obtain ⟨⟨id, position⟩, mem, isDefect⟩ := List.exists_of_findSome?_eq_some inLabels
    have leads := assembled.leads id position
      (Std.ExtTreeMap.mem_toList_iff_getElem?_eq_some.mp mem)
    dsimp only at isDefect
    rw [code_mapTokens, (labelDefect?_eq_none_iff _ id position).mpr
      ((leadsTo_canonical_iff _ id position).mpr leads)] at isDefect
    cases isDefect

/-- An assembled body passes the check exactly if its calls have names. -/
theorem Assembled.defect?_eq_none_iff {body : Body} (assembled : body.Assembled) :
    body.defect? = none ↔ ∀ token ∈ body.code, token.opcode = .call → token.name ≠ "" := by
  rw [Body.defect?_eq_none_iff]
  constructor
  · rintro ⟨valid, -⟩ token mem
    exact (valid token mem).named
  · intro named
    refine ⟨fun token mem => ?_, assembled.leads⟩
    have scanned := assembled.scanned token mem
    exact ⟨assembled.executable token mem, scanned.index_nonneg, scanned.size_nonneg,
      named token mem⟩

end Body

namespace Image

/-- The image of an assembled program within limits is loaded exactly if every call in the program
has a name; otherwise it is refused for a call that has none. -/
theorem decode_encode_of_assemble {source : Source} {program : Program}
    (assembled : source.assemble = .ok program) (within : program.WithinLimits) :
    ((∃ result, decode (encode program) = .ok result) ↔
        ∀ function ∈ program.functions, ∀ token ∈ function.body.code,
          token.opcode = .call → token.name ≠ "") ∧
      ∀ error, decode (encode program) = .error error →
        ∃ position function place token, program.functions[position]? = some function ∧
          function.body.code[place]? = some token ∧ token.opcode = .call ∧ token.name = "" ∧
          error = .invalid position function.name (.namelessCall place) := by
  have bodies : ∀ function ∈ program.functions, function.body.Assembled :=
    fun function mem => Source.assembled_of_assemble assembled mem
  have inRange : ∀ function ∈ program.functions, LabelsInRange function.body := by
    intro function mem
    exact labelsInRange_of_leads (within.2 function mem).body (bodies function mem).leads
  rw [decode_encode_of_within inRange within]
  constructor
  · simp only [checked_canonical_eq_ok_iff, exists_and_left, exists_eq, and_true]
    exact forall₂_congr fun function mem => (bodies function mem).defect?_eq_none_iff
  · intro error failed
    obtain ⟨position, canonical, defect, atPosition, isDefect, rfl⟩ := checked_eq_error failed
    rw [Program.functions_mapTokens, List.getElem?_map, Option.map_eq_some_iff] at atPosition
    obtain ⟨function, atPosition, rfl⟩ := atPosition
    have body := bodies function (List.mem_of_getElem? atPosition)
    obtain ⟨place, token, atPlace, call, nameless, rfl⟩ := body.namelessCall isDefect
    exact ⟨position, function, place, token, atPosition, atPlace, call, nameless, rfl⟩

/-- A source that calls a function without a name. -/
def namelessSource : Source where
  name := "nameless"
  input := ⟨".raw .class .function defun main 0 NULL call \"\" endef".toList, none⟩

/-- The program of `namelessSource`. -/
def namelessProgram : Program where
  functions? := some
    [Assembly.function { opcode := .defun, name := "main" } [{ opcode := .call, name := "" }]]

theorem decode_encode_nameless :
    namelessSource.assemble = .ok namelessProgram ∧ namelessProgram.WithinLimits ∧
      ¬ ∃ result, decode (encode namelessProgram) = .ok result := by
  have assembled : namelessSource.assemble = .ok namelessProgram := by cbv
  have within : namelessProgram.WithinLimits := by
    have empty : TextFits "" := textFits_of_isEmpty rfl
    have main : TextFits "main" := by
      unfold TextFits Cbor.HeadHolds
      decide
    refine ⟨by decide, fun function mem => ?_⟩
    obtain rfl := List.mem_singleton.mp mem
    refine ⟨main, ⟨by decide, nofun⟩, empty, ⟨by decide, fun token mem => ?_⟩, by decide⟩
    obtain rfl := List.mem_singleton.mp mem
    exact ⟨empty, ⟨by decide, nofun⟩, empty⟩
  refine ⟨assembled, within, fun loaded => ?_⟩
  have named := (decode_encode_of_assemble assembled within).1.mp loaded
  exact named _ List.mem_cons_self { opcode := .call, name := "" } (by simp) rfl rfl

end Image

end StackMachine
