import Mathlib
import StackMachine.Proofs.Image.Limits

/-!
# What a reader of images takes

Reading accepts many spellings of an item: heads longer than needed, texts in chunks, lengths that
are not given.  Whatever the spelling, the item that is read fits the reader, since every number
comes from a head and every text is no longer than the bytes it was read from.  So the program of
an item that was read is within the limits of an image.
-/

namespace StackMachine

namespace Cbor

/-! ## Heads -/

/-- A reader that, from bytes whose length a head can hold, reads good values, each of which takes
up some of the bytes. -/
def Reads {α : Type} (Good : α → Prop) (weight : α → Nat) (read : Bytes → Option (α × Bytes)) :
    Prop :=
  ∀ bytes a rest, HeadHolds bytes.length → read bytes = some (a, rest) →
    Good a ∧ weight a + rest.length ≤ bytes.length

section Reads

variable {α : Type} {Good : α → Prop} {weight : α → Nat} {read : Bytes → Option (α × Bytes)}
  (reads : Reads Good weight read)
include reads

theorem Reads.readMany (count : Nat) :
    Reads (fun items => items.length = count ∧ ∀ item ∈ items, Good item)
      (fun items => (items.map weight).sum) (readMany read count) := by
  induction count with
  | zero =>
      intro bytes items rest holds found
      cases found
      exact ⟨⟨rfl, List.forall_mem_nil _⟩, Nat.le_of_eq (Nat.zero_add _)⟩
  | succ count ih =>
      intro bytes items rest holds found
      obtain ⟨⟨item, between⟩, readFirst, found⟩ := Option.bind_eq_some_iff.mp found
      obtain ⟨⟨others, behind⟩, readOthers, same⟩ := Option.bind_eq_some_iff.mp found
      cases same
      obtain ⟨good, first⟩ := reads _ _ _ holds readFirst
      have holdsToo : HeadHolds between.length := by
        unfold HeadHolds at holds ⊢
        omega
      obtain ⟨⟨length, allGood⟩, later⟩ := ih _ _ _ holdsToo readOthers
      refine ⟨⟨congrArg Nat.succ length, List.forall_mem_cons.mpr ⟨good, allGood⟩⟩, ?_⟩
      simp only [List.map_cons, List.sum_cons] at later ⊢
      omega

theorem Reads.readToBreak (fuel : Nat) :
    Reads (fun items => ∀ item ∈ items, Good item) (fun items => (items.map weight).sum)
      (readToBreak read fuel) := by
  induction fuel with
  | zero =>
      intro bytes items rest holds found
      cases found
  | succ fuel ih =>
      intro bytes items rest holds found
      cases bytes with
      | nil => cases found
      | cons byte bytes =>
          unfold Cbor.readToBreak at found
          split at found
          · cases found
            exact ⟨List.forall_mem_nil _, by simp⟩
          · obtain ⟨⟨item, between⟩, readFirst, found⟩ := Option.bind_eq_some_iff.mp found
            obtain ⟨⟨others, behind⟩, readOthers, same⟩ := Option.bind_eq_some_iff.mp found
            cases same
            obtain ⟨good, first⟩ := reads _ _ _ holds readFirst
            have holdsToo : HeadHolds between.length := by
              unfold HeadHolds at holds ⊢
              omega
            obtain ⟨allGood, later⟩ := ih _ _ _ holdsToo readOthers
            refine ⟨List.forall_mem_cons.mpr ⟨good, allGood⟩, ?_⟩
            simp only [List.map_cons, List.sum_cons] at later ⊢
            omega

/-- The members of an array or a map are good and not too many. -/
theorem Reads.readMembers {each : Nat} (some : 0 < each) (found : Head) :
    Reads (fun items => items.length / each ≤ maxElements ∧ ∀ item ∈ items, Good item)
      (fun items => (items.map weight).sum) (readMembers read each found) := by
  intro bytes items rest holds members
  unfold Cbor.readMembers at members
  split at members
  · obtain ⟨⟨others, behind⟩, readOthers, members⟩ := Option.bind_eq_some_iff.mp members
    obtain ⟨⟨⟩, few, same⟩ := Option.bind_eq_some_iff.mp members
    cases same
    obtain ⟨good, shorter⟩ := reads.readToBreak _ _ _ _ holds readOthers
    unfold guard at few
    split at few
    · next within => exact ⟨⟨within.2, good⟩, shorter⟩
    · cases few
  · split at members
    · next few =>
        obtain ⟨⟨length, good⟩, shorter⟩ := reads.readMany _ _ _ _ holds members
        refine ⟨⟨?_, good⟩, shorter⟩
        rwa [length, Nat.mul_div_cancel_left _ some]
    · cases members

end Reads

end Cbor

namespace Image

open Cbor (Item)

/-- An item that fits a reader of some depth. -/
def Fitting (item : Item) : Prop := ∃ levels, item.Fits levels

theorem Fitting.text {chunks : List Bytes} (fitting : Fitting (.text chunks)) :
    Cbor.HeadHolds chunks.flatten.length := by
  obtain ⟨levels, fits⟩ := fitting
  cases levels <;> exact fits

theorem Fitting.array {items : List Item} (fitting : Fitting (.array items)) :
    items.length ≤ Cbor.maxElements ∧ ∀ item ∈ items, Fitting item := by
  obtain ⟨_ | levels, fits⟩ := fitting
  · cases fits
  · exact ⟨fits.1, fun item mem => ⟨levels, fits.2 item mem⟩⟩

theorem Fitting.map {entries : List Item} (fitting : Fitting (.map entries)) :
    entries.length / 2 ≤ Cbor.maxElements ∧ ∀ entry ∈ entries, Fitting entry := by
  obtain ⟨_ | levels, fits⟩ := fitting
  · cases fits
  · exact ⟨fits.1, fun entry mem => ⟨levels, fits.2 entry mem⟩⟩

/-- What is read from an item that fits is good. -/
def Yields {α : Type} (Good : α → Prop) (read : Item → Option α) : Prop :=
  ∀ item value, Fitting item → read item = some value → Good value

/-! ## Texts and lists -/

theorem Yields.mapM {α : Type} {Good : α → Prop} {read : Item → Option α}
    (yields : Yields Good read) {items : List Item} (fitting : ∀ item ∈ items, Fitting item)
    {values : List α} (found : items.mapM read = some values) :
    values.length = items.length ∧ ∀ value ∈ values, Good value := by
  induction items generalizing values with
  | nil =>
      cases found
      exact ⟨rfl, List.forall_mem_nil _⟩
  | cons item items ih =>
      rw [List.mapM_cons] at found
      obtain ⟨first, readFirst, found⟩ := Option.bind_eq_some_iff.mp found
      obtain ⟨others, readOthers, same⟩ := Option.bind_eq_some_iff.mp found
      cases same
      obtain ⟨fits, fitting⟩ := List.forall_mem_cons.mp fitting
      obtain ⟨length, good⟩ := ih fitting readOthers
      exact ⟨congrArg Nat.succ length, List.forall_mem_cons.mpr ⟨yields _ _ fits readFirst, good⟩⟩

theorem Yields.list? {α : Type} {Good : α → Prop} {read : Item → Option α}
    (yields : Yields Good read) :
    Yields (fun values? => ListFits Good (values?.getD [])) (list? read) := by
  intro item values? fitting found
  unfold Image.list? at found
  split at found
  · obtain ⟨values, isRead, rfl⟩ := Option.map_eq_some_iff.mp found
    obtain ⟨few, fits⟩ := fitting.array
    obtain ⟨length, good⟩ := yields.mapM fits isRead
    exact ⟨length.trans_le few, good⟩
  · split at found
    · cases found
      exact ⟨Nat.zero_le _, List.forall_mem_nil _⟩
    · cases found

/-! ## Records -/

/-- A field holds something good if its default is good. -/
theorem Yields.field {α : Type} {Good : α → Prop} {read : Item → Option α}
    (yields : Yields Good read) {fields : List (Nat × Item)}
    (fitting : ∀ field ∈ fields, Fitting field.2) {name : Nat} {default value : α}
    (isGood : Good default) (found : field fields name default read = some value) : Good value := by
  unfold Image.field at found
  split at found
  · next item isItem =>
      obtain ⟨before, behind, rfl, -⟩ := List.lookup_eq_some_iff.mp isItem
      exact yields item value (fitting (name, item) (by simp)) found
  · cases found
    exact isGood

end Image

end StackMachine
