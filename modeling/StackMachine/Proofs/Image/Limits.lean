import Mathlib
import StackMachine.Proofs.Image.Program

/-!
# Which programs an image has room for

A reader of images takes lists and tables of so many elements only, and texts whose length a head
can hold.  Nesting is no limit: the deepest part of a program, the class name of a parameter of a
token, lies eight levels down.  So the item of a program fits a reader exactly if the program
keeps these limits.
-/

namespace StackMachine

/-- A text whose length a head can hold. -/
def TextFits (text : String) : Prop := Cbor.HeadHolds (Utf8.encode text).length

/-- A list that is not too long, of members that are within their limits. -/
def ListFits {α : Type} (Member : α → Prop) (items : List α) : Prop :=
  items.length ≤ Cbor.maxElements ∧ ∀ item ∈ items, Member item

/-- A declared type within the limits of an image. -/
def DeclaredType.WithinLimits (type : DeclaredType) : Prop := TextFits type.className

/-- A token within the limits of an image. -/
structure Token.WithinLimits (token : Token) : Prop where
  name : TextFits token.name
  params : ListFits DeclaredType.WithinLimits token.params
  result : token.result.WithinLimits

/-- A body within the limits of an image. -/
structure Body.WithinLimits (body : Body) : Prop where
  code : ListFits Token.WithinLimits body.code.toList
  labels : body.labels.size ≤ Cbor.maxElements

/-- A function within the limits of an image. -/
structure Function.WithinLimits (function : Function) : Prop where
  name : TextFits function.name
  params : ListFits DeclaredType.WithinLimits function.params
  result : function.result.WithinLimits
  body : function.body.WithinLimits

/-- A program within the limits of an image. -/
def Program.WithinLimits (program : Program) : Prop :=
  ListFits Function.WithinLimits program.functions

namespace Image

open Cbor (Item)

/-! ## Spelling -/

/-- An item that writing can spell, to whatever level. -/
def Spellable (item : Item) : Prop := ∀ levels, item.Plain levels

theorem spellable_unsigned (n : Nat) : Spellable (.unsigned n) := by
  intro levels
  cases levels <;> trivial

theorem spellable_ofInt (n : Int) : Spellable (ofInt n) := by
  intro levels
  unfold ofInt
  split <;> cases levels <;> trivial

theorem spellable_null : Spellable .null := by
  intro levels
  have small : 22 < 24 := by decide
  cases levels <;> exact small

theorem spellable_ofText (text : String) : Spellable (ofText text) := by
  intro levels
  cases levels <;> exact ⟨_, rfl⟩

theorem spellable_float {width : Cbor.FloatWidth} {bits : Nat} (small : bits < 256 ^ width.bytes) :
    Spellable (.float width bits) := by
  intro levels
  cases levels <;> exact small

theorem spellable_array {items : List Item} (spellable : ∀ item ∈ items, Spellable item) :
    Spellable (.array items) := by
  intro levels
  cases levels with
  | zero => trivial
  | succ levels => exact fun item mem => spellable item mem levels

theorem spellable_map {entries : List Item} (even : entries.length % 2 = 0)
    (spellable : ∀ entry ∈ entries, Spellable entry) : Spellable (.map entries) := by
  intro levels
  cases levels with
  | zero => trivial
  | succ levels => exact ⟨even, fun entry mem => spellable entry mem levels⟩

theorem spellable_ofFloat (x : Binary32) : Spellable (ofFloat x) := by
  have half {pattern : Nat} (bound : pattern ≤ BinaryFormat.half.infinity) :
      Spellable (.float .half
        ((if x.isNegative then BinaryFormat.half.signBit else 0) + pattern)) := by
    have sign : (if x.isNegative then BinaryFormat.half.signBit else 0) ≤
        BinaryFormat.half.signBit := by
      split
      · exact le_rfl
      · exact Nat.zero_le _
    have room : BinaryFormat.half.signBit + BinaryFormat.half.infinity < 256 ^ 2 := by decide
    exact spellable_float ((Nat.add_le_add sign bound).trans_lt room)
  unfold ofFloat
  split
  · exact spellable_float (by decide)
  dsimp only
  split
  · exact half le_rfl
  split
  · next short => exact half short.1.le
  · exact spellable_float x.bits.toNat_lt

theorem spellable_ofList {α : Type} {toItem : α → Item}
    (spellable : ∀ item, Spellable (toItem item)) (items : Option (List α)) :
    Spellable (ofList toItem items) := by
  cases items with
  | none => exact spellable_null
  | some items =>
      apply spellable_array
      intro item mem
      obtain ⟨member, -, rfl⟩ := List.mem_map.mp mem
      exact spellable member

/-- The name and the value of a field, unless it is left out. -/
def fieldEntries (field : Nat × Option Item) : List Item :=
  match field.2 with
  | some item => [.unsigned field.1, item]
  | none => []

theorem ofFields_eq (fields : List (Nat × Option Item)) :
    ofFields fields = .map (fields.flatMap fieldEntries) :=
  rfl

theorem mem_fieldEntries {field : Nat × Option Item} {entry : Item} :
    entry ∈ fieldEntries field ↔
      ∃ item, field.2 = some item ∧ (entry = .unsigned field.1 ∨ entry = item) := by
  unfold fieldEntries
  cases field.2 <;> simp

/-- A record has two entries for each field that is given. -/
theorem length_entries (fields : List (Nat × Option Item)) :
    ∃ given ≤ fields.length, (fields.flatMap fieldEntries).length = 2 * given := by
  induction fields with
  | nil => exact ⟨0, le_rfl, rfl⟩
  | cons field fields ih =>
      obtain ⟨given, few, length⟩ := ih
      rw [List.flatMap_cons, List.length_append, length, List.length_cons]
      obtain ⟨name, _ | item⟩ := field
      · exact ⟨given, by omega, Nat.zero_add _⟩
      · exact ⟨given + 1, by omega, by rw [Nat.mul_add, Nat.add_comm]; rfl⟩

/-- A record is spelled if its fields are. -/
theorem spellable_ofFields {fields : List (Nat × Option Item)}
    (spellable : ∀ field ∈ fields, ∀ item ∈ field.2, Spellable item) :
    Spellable (ofFields fields) := by
  refine spellable_map ?_ ?_
  · obtain ⟨given, -, length⟩ := length_entries fields
    exact length ▸ Nat.mul_mod_right 2 given
  · intro entry mem
    obtain ⟨field, fieldMem, mem⟩ := List.mem_flatMap.mp mem
    obtain ⟨item, value, rfl | rfl⟩ := mem_fieldEntries.mp mem
    · exact spellable_unsigned field.1
    · exact spellable field fieldMem entry value

theorem spellable_ofType (type : DeclaredType) : Spellable (ofType type) := by
  refine spellable_ofFields ?_
  simp [spellable_unsigned, spellable_ofText]

theorem spellable_ofToken (token : Token) : Spellable (ofToken token) := by
  have params : Spellable (.array (token.params.map ofType)) :=
    spellable_ofList spellable_ofType (some token.params)
  refine spellable_ofFields ?_
  simp [spellable_unsigned, spellable_ofInt, spellable_ofFloat, spellable_ofText,
    spellable_ofType, params]

theorem spellable_ofLabels (labels : Option LabelTable) : Spellable (ofLabels labels) := by
  cases labels with
  | none => exact spellable_null
  | some table =>
      rw [ofLabels_some]
      refine spellable_map ?_ ?_
      · simp [List.length_flatMap]
      · simp only [List.mem_flatMap]
        rintro entry ⟨pair, -, mem⟩
        rcases List.mem_pair.mp mem with rfl | rfl <;> exact spellable_ofInt _

theorem spellable_ofBody (body : Body) : Spellable (ofBody body) := by
  refine spellable_ofFields ?_
  simp [spellable_ofList spellable_ofToken, spellable_ofLabels]

theorem spellable_ofFunction (function : Function) : Spellable (ofFunction function) := by
  refine spellable_ofFields ?_
  simp [spellable_ofText, spellable_ofList spellable_ofType, spellable_ofType, spellable_ofBody]

/-- The item of every program can be spelled. -/
theorem spellable_ofProgram (program : Program) : Spellable (ofProgram program) := by
  refine spellable_ofFields ?_
  simp [spellable_ofList spellable_ofFunction]

/-! ## Fitting a reader -/

theorem fits_ofText_iff (levels : Nat) (text : String) :
    (ofText text).Fits levels ↔ TextFits text := by
  cases levels <;> simp [ofText, Item.Fits, TextFits]

theorem fits_unsigned {levels n : Nat} (holds : Cbor.HeadHolds n) :
    (Item.unsigned n).Fits levels := by
  cases levels <;> exact holds

theorem fits_ofFloat (levels : Nat) (x : Binary32) : (ofFloat x).Fits levels := by
  unfold ofFloat
  split
  · cases levels <;> trivial
  dsimp only
  split
  · cases levels <;> trivial
  split <;> cases levels <;> trivial

theorem fits_ofInt {levels : Nat} {n : Int} (low : -0x8000000000000000 ≤ n)
    (high : n ≤ 0x7FFFFFFFFFFFFFFF) : (ofInt n).Fits levels := by
  unfold ofInt
  split
  · have holds : Cbor.HeadHolds (-1 - n).toNat := by
      unfold Cbor.HeadHolds
      omega
    cases levels <;> exact holds
  · refine fits_unsigned ?_
    unfold Cbor.HeadHolds
    omega

theorem fits_ofInt_int32 (levels : Nat) (n : Int32) : (ofInt n.toInt).Fits levels := by
  have low := n.le_toInt
  have high := n.toInt_lt
  exact fits_ofInt (by omega) (by omega)

theorem fits_ofInt_int64 (levels : Nat) (n : Int64) : (ofInt n.toInt).Fits levels := by
  have low := n.le_toInt
  have high := n.toInt_lt
  exact fits_ofInt (by omega) (by omega)

theorem fits_byte (levels : Nat) (byte : UInt8) : (Item.unsigned byte.toNat).Fits levels :=
  fits_unsigned (byte.toNat_lt.trans (by decide))

/-- A list fits if it is short and its members fit. -/
theorem fits_ofList_iff {α : Type} {toItem : α → Item} {Member : α → Prop} {levels : Nat}
    {items : Option (List α)}
    (members : ∀ item ∈ items.getD [], (toItem item).Fits levels ↔ Member item) :
    (ofList toItem items).Fits (levels + 1) ↔ ListFits Member (items.getD []) := by
  cases items with
  | none => simp [ofList, Item.null, Item.Fits, ListFits]
  | some items =>
      simp only [ofList, Item.Fits, List.length_map, List.forall_mem_map]
      exact and_congr_right fun _ => forall₂_congr members

theorem length_le_of_named {fields : List (Nat × Option Item)} (isNamed : Named fields) :
    fields.length ≤ 9 := by
  obtain ⟨distinct, small⟩ := isNamed
  have within : fields.map Prod.fst ⊆ List.range 9 := by
    intro name mem
    exact List.mem_range.mpr (small name mem)
  simpa using (distinct.subperm within).length_le

/-- A record fits if its fields do. -/
theorem fits_ofFields_iff {fields : List (Nat × Option Item)} (isNamed : Named fields)
    (levels : Nat) :
    (ofFields fields).Fits (levels + 1) ↔
      ∀ field ∈ fields, ∀ item ∈ field.2, item.Fits levels := by
  rw [ofFields_eq, Item.Fits]
  constructor
  · rintro ⟨-, fit⟩ field fieldMem item value
    exact fit item (List.mem_flatMap.mpr
      ⟨field, fieldMem, mem_fieldEntries.mpr ⟨item, value, .inr rfl⟩⟩)
  · intro fit
    refine ⟨?_, fun entry mem => ?_⟩
    · obtain ⟨given, few, length⟩ := length_entries fields
      have length_le := length_le_of_named isNamed
      have limit : 9 ≤ Cbor.maxElements := by decide
      omega
    · obtain ⟨field, fieldMem, mem⟩ := List.mem_flatMap.mp mem
      obtain ⟨item, value, rfl | rfl⟩ := mem_fieldEntries.mp mem
      · have small := isNamed.2 field.1 (List.mem_map_of_mem fieldMem)
        exact fits_unsigned (small.trans (by decide))
      · exact fit field fieldMem entry value

theorem textFits_of_isEmpty {text : String} (empty : text.isEmpty = true) : TextFits text := by
  rw [String.isEmpty_iff] at empty
  subst empty
  exact Nat.zero_lt_of_ne_zero (by decide)

/-- A field that is left out where it fits anyway. -/
theorem fits_omitted_iff {absent : Prop} [Decidable absent] {item : Item} {levels : Nat}
    {Within : Prop} (empty : absent → Within) (given : item.Fits levels ↔ Within) :
    (∀ found ∈ (if absent then none else some item), found.Fits levels) ↔ Within := by
  by_cases absence : absent
  · simp [absence, empty absence]
  · simp [absence, given]

theorem fits_omitted {absent : Prop} [Decidable absent] {item : Item} {levels : Nat}
    (fits : item.Fits levels) :
    ∀ found ∈ (if absent then none else some item), found.Fits levels :=
  (fits_omitted_iff (fun _ => fits) Iff.rfl).mpr fits

theorem fits_ofType_iff (levels : Nat) (type : DeclaredType) :
    (ofType type).Fits (levels + 1) ↔ type.WithinLimits := by
  rw [ofType, fits_ofFields_iff (by simp [Named])]
  simp only [List.forall_mem_cons, List.not_mem_nil, false_imp_iff, forall_const, and_true,
    Option.mem_some_iff, forall_eq', fits_byte, true_and]
  exact fits_omitted_iff textFits_of_isEmpty (fits_ofText_iff levels type.className)

theorem fits_ofToken_iff (levels : Nat) (token : Token) :
    (ofToken token).Fits (levels + 3) ↔ token.WithinLimits := by
  have name := @fits_omitted_iff (token.name.isEmpty = true) _ _ (levels + 2) _
    textFits_of_isEmpty (fits_ofText_iff (levels + 2) token.name)
  have params := @fits_omitted_iff (token.params.isEmpty = true) _
    (.array (token.params.map ofType)) (levels + 2)
    (ListFits DeclaredType.WithinLimits token.params)
    (by
      intro empty
      rw [List.isEmpty_iff.mp empty]
      exact ⟨Nat.zero_le _, nofun⟩)
    (@fits_ofList_iff _ _ _ _ (some token.params) fun type _ => fits_ofType_iff levels type)
  rw [ofToken, fits_ofFields_iff (by simp [Named])]
  simp only [List.forall_mem_cons, List.not_mem_nil, false_imp_iff, forall_const, and_true,
    Option.mem_some_iff, forall_eq', fits_byte, true_and, name, params, fits_ofType_iff]
  constructor
  · rintro ⟨-, -, -, -, nameFits, paramsFit, resultFits⟩
    exact ⟨nameFits, paramsFit, resultFits⟩
  · rintro ⟨nameFits, paramsFit, resultFits⟩
    exact ⟨fits_omitted (fits_ofInt_int32 _ _), fits_omitted (fits_ofFloat _ _),
      fits_omitted (fits_ofInt_int64 _ _), fits_omitted (fits_ofInt_int64 _ _), nameFits, paramsFit,
      resultFits⟩

theorem fits_ofLabels_iff (levels : Nat) {labels : Option LabelTable}
    (inRange : ∀ (id : Int64) position, (labels.getD ∅)[id]? = some position → InRange position) :
    (ofLabels labels).Fits (levels + 1) ↔ (labels.getD ∅).size ≤ Cbor.maxElements := by
  cases labels with
  | none => simp [ofLabels, Item.null, Item.Fits]
  | some table =>
      have perm : (sortedLabels table).Perm table.toList := List.mergeSort_perm _ _
      have length : (sortedLabels table).length = table.size := by
        rw [perm.length_eq, Std.ExtTreeMap.length_toList]
      rw [ofLabels_some, Item.Fits, Option.getD_some]
      have pairs : ((sortedLabels table).flatMap fun pair =>
          [ofInt pair.1.toInt, ofInt pair.2.toInt]).length / 2 = table.size := by
        simp [List.length_flatMap, length]
      rw [pairs, and_iff_left_iff_imp]
      rintro - entry mem
      obtain ⟨⟨id, position⟩, pairMem, mem⟩ := List.mem_flatMap.mp mem
      rcases List.mem_pair.mp mem with rfl | rfl
      · exact fits_ofInt_int64 levels id
      · obtain ⟨low, high⟩ := inRange id position
          (Std.ExtTreeMap.mem_toList_iff_getElem?_eq_some.mp (perm.mem_iff.mp pairMem))
        exact fits_ofInt low high

theorem fits_ofBody_iff (levels : Nat) {body : Body} (inRange : LabelsInRange body) :
    (ofBody body).Fits (levels + 5) ↔ body.WithinLimits := by
  have tokens : (body.code?.map Array.toList).getD [] = body.code.toList := by
    unfold Body.code
    cases body.code? <;> rfl
  rw [ofBody, fits_ofFields_iff (by simp [Named])]
  simp only [List.forall_mem_cons, List.not_mem_nil, false_imp_iff, forall_const, and_true,
    Option.mem_some_iff, forall_eq', tokens, fits_ofLabels_iff (levels + 3) inRange,
    fits_ofList_iff fun token _ => fits_ofToken_iff levels token]
  constructor
  · rintro ⟨code, labels⟩
    exact ⟨code, labels⟩
  · rintro ⟨code, labels⟩
    exact ⟨code, labels⟩

theorem fits_ofFunction_iff (levels : Nat) {function : Function}
    (inRange : LabelsInRange function.body) :
    (ofFunction function).Fits (levels + 6) ↔ function.WithinLimits := by
  rw [ofFunction, fits_ofFields_iff (by simp [Named])]
  simp only [List.forall_mem_cons, List.not_mem_nil, false_imp_iff, forall_const, and_true,
    Option.mem_some_iff, forall_eq', fits_ofText_iff, fits_ofType_iff,
    fits_ofList_iff fun type _ => fits_ofType_iff (levels + 3) type,
    fits_ofBody_iff levels inRange]
  constructor
  · rintro ⟨name, params, result, body⟩
    exact ⟨name, params, result, body⟩
  · rintro ⟨name, params, result, body⟩
    exact ⟨name, params, result, body⟩

/-- The item of a program fits a reader exactly if the program is within its limits. -/
theorem fits_ofProgram_iff {program : Program}
    (inRange : ∀ function ∈ program.functions, LabelsInRange function.body) :
    (ofProgram program).Fits Cbor.maxLevels ↔ program.WithinLimits := by
  have levels : Cbor.maxLevels = 24 + 6 + 1 + 1 := rfl
  rw [ofProgram, levels, fits_ofFields_iff (by simp [Named])]
  simp only [List.forall_mem_cons, List.not_mem_nil, false_imp_iff, forall_const, and_true,
    Option.mem_some_iff, forall_eq']
  exact fits_ofList_iff fun function mem => fits_ofFunction_iff 24 (inRange function mem)

end Image

end StackMachine
