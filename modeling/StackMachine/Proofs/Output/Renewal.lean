import Mathlib
import StackMachine.Proofs.Output.Mirroring

/-!
# A sink that has been used before

A sink that has received something goes on like a new one with the room that is left, and in the
end it holds what it had and then what the new one has received (`Sink.onto`).
-/

namespace StackMachine

namespace Sink

/-- A device has taken no more than it has room for.  The capacity of other sinks is of no
account. -/
def Fits (sink : Sink) : Prop :=
  sink.kind = .device ∨ sink.kind = .flushing →
    ∀ capacity ∈ sink.capacity, sink.received.size ≤ capacity

/-- A new sink of the same make with the room that is left. -/
def renewed (sink : Sink) : Sink where
  kind := sink.kind
  capacity := sink.capacity.map (· - sink.received.size)
  short := sink.short
  flushFails := sink.flushFails

/-- A sink to which has happened, after all that had happened, what happened to another. -/
def onto (earlier later : Sink) : Sink :=
  { earlier with
    received := earlier.received ++ later.received
    writes := earlier.writes ++ later.writes
    flushes := earlier.flushes + later.flushes }

@[simp]
theorem onto_renewed (sink : Sink) : sink.onto sink.renewed = sink := by
  simp [onto, renewed]

/-- Whatever is written to a sink, it is of the same make. -/
theorem record_grown (sink : Sink) (bytes : Bytes) (taken : Nat) :
    sink.Grown (sink.record bytes taken) := by
  by_cases drops : sink.kind = .discard
  · have same : sink.record bytes taken = sink := by rw [record, drops]
    rw [same]
    exact .refl sink
  · exact grown_record drops bytes taken

/-- A device takes no more than it has room for. -/
theorem Fits.record {sink : Sink} (fits : sink.Fits) (bytes : Bytes) :
    (sink.record bytes (sink.respond bytes.length).taken).Fits := by
  have grown := sink.record_grown bytes (sink.respond bytes.length).taken
  intro isDevice capacity limit
  rw [grown.kind] at isDevice
  rw [grown.capacity] at limit
  have room : sink.received.size ≤ capacity := fits isDevice capacity limit
  have bound : sink.received.size + (sink.respond bytes.length).taken ≤ capacity := by
    have limit : sink.capacity = some capacity := limit
    have answer : sink.respond bytes.length =
        if sink.capacity.any (· < sink.received.size + bytes.length) then
          ⟨min bytes.length (sink.capacity.getD 0 - sink.received.size), some .refused⟩
        else if sink.short then ⟨bytes.length - 1, none⟩ else ⟨bytes.length, none⟩ := by
      rcases isDevice with device | flushing
      · rw [respond, device]
      · rw [respond, flushing]
    rw [answer, limit]
    simp only [Option.any_some, decide_eq_true_eq, Option.getD_some]
    split_ifs with full short
    · dsimp only
      omega
    · dsimp only
      omega
    · dsimp only
      omega
  have keeps : sink.kind ≠ .discard := by
    rintro drops
    simp [drops] at isDevice
  rw [← Array.length_toList, received_record keeps, List.length_append, List.length_take]
  exact (Nat.add_le_add_left (Nat.min_le_left _ _) _).trans bound

/-- A sink that was once the renewal of another. -/
structure Continues (earlier later : Sink) : Prop where
  grown : earlier.renewed.Grown later
  fits : earlier.Fits
  laterFits : later.Fits

variable {earlier later : Sink}

theorem continues_renewed (fits : earlier.Fits) : earlier.Continues earlier.renewed where
  grown := .refl _
  fits := fits
  laterFits := by
    intro _ capacity _
    exact Nat.zero_le capacity

namespace Continues

/-- Two devices have the same room left. -/
theorem room (continues : earlier.Continues later)
    (isDevice : later.kind = .device ∨ later.kind = .flushing) (length : Nat) :
    (earlier.onto later).capacity.any (· < (earlier.onto later).received.size + length) =
        later.capacity.any (· < later.received.size + length) ∧
      (earlier.onto later).capacity.getD 0 - (earlier.onto later).received.size =
        later.capacity.getD 0 - later.received.size := by
  have fits := continues.fits (continues.grown.kind ▸ isDevice)
  have size : (earlier.onto later).received.size =
      earlier.received.size + later.received.size := Array.size_append
  have same : (earlier.onto later).capacity = earlier.capacity := rfl
  have left : later.capacity = earlier.capacity.map (· - earlier.received.size) :=
    continues.grown.capacity
  rw [size, same, left]
  cases limit : earlier.capacity with
  | none => simp
  | some capacity =>
      have enough : earlier.received.size ≤ capacity := fits capacity limit
      constructor
      · simp only [Option.any_some, Option.map_some, decide_eq_decide]
        omega
      · simp only [Option.getD_some, Option.map_some]
        omega

/-- The two sinks answer alike. -/
theorem respond (continues : earlier.Continues later) (length : Nat) :
    (earlier.onto later).respond length = later.respond length := by
  have kind : (earlier.onto later).kind = later.kind := continues.grown.kind.symm
  have short : (earlier.onto later).short = later.short := continues.grown.short.symm
  unfold Sink.respond
  rw [kind, short]
  cases isKind : later.kind with
  | memory | discard => rfl
  | device | flushing =>
      obtain ⟨refuses, left⟩ := continues.room (by simp [isKind]) length
      dsimp only
      rw [refuses, left]

/-- The two sinks receive alike. -/
theorem record (continues : earlier.Continues later) (bytes : Bytes) (taken : Nat) :
    (earlier.onto later).record bytes taken = earlier.onto (later.record bytes taken) := by
  have kind : (earlier.onto later).kind = later.kind := continues.grown.kind.symm
  have received : earlier.received ++ later.received ++ bytes.take taken =
      earlier.received ++ (later.received ++ bytes.take taken) :=
    Array.toList_inj.mp (by simp)
  have writes : (earlier.writes ++ later.writes).push bytes.length =
      earlier.writes ++ later.writes.push bytes.length :=
    Array.toList_inj.mp (by simp)
  unfold Sink.record
  split
  · next drops =>
      rw [kind] at drops
      rw [drops]
  · next keeps =>
      rw [kind] at keeps
      split
      · next drops => exact absurd drops keeps
      · simp only [onto, received, writes]

theorem write (continues : earlier.Continues later) (bytes : Bytes) :
    earlier.Continues (later.record bytes (later.respond bytes.length).taken) where
  grown := continues.grown.trans (later.record_grown bytes _)
  fits := continues.fits
  laterFits := continues.laterFits.record bytes

theorem flush (continues : earlier.Continues later) : earlier.Continues later.recordFlush where
  grown := continues.grown.trans later.grown_recordFlush
  fits := continues.fits
  laterFits := continues.laterFits

/-- The sink that has been used before is in order as well, and its renewal is that of the other. -/
theorem fits_onto (continues : earlier.Continues later) : (earlier.onto later).Fits := by
  intro isDevice capacity limit
  have size : (earlier.onto later).received.size =
      earlier.received.size + later.received.size := Array.size_append
  have limit : earlier.capacity = some capacity := limit
  have enough : earlier.received.size ≤ capacity := continues.fits isDevice capacity limit
  have left : later.received.size ≤ capacity - earlier.received.size := by
    refine continues.laterFits (continues.grown.kind ▸ isDevice) _ ?_
    rw [continues.grown.capacity]
    simp [renewed, limit]
  omega

theorem renewed_onto (continues : earlier.Continues later) :
    (earlier.onto later).renewed = later.renewed := by
  obtain ⟨kind, capacity, short, flushFails, -⟩ := continues.grown
  have size : (earlier.onto later).received.size =
      earlier.received.size + later.received.size := Array.size_append
  have left : (earlier.onto later).capacity.map
      (· - (earlier.onto later).received.size) = later.capacity.map (· - later.received.size) := by
    rw [size, capacity, renewed, Option.map_map]
    refine congrArg (Option.map · earlier.capacity) ?_
    funext room
    exact Nat.sub_add_eq room earlier.received.size later.received.size
  unfold renewed
  rw [left, kind, short, flushFails]
  rfl

end Continues

end Sink

namespace Sinks

open Sink (Continues)

/-- A lone sink beside one that has been used before. -/
def Used (earlier : Sink) (sinks others : Sinks) : Prop :=
  ∃ later, earlier.Continues later ∧ sinks = #[later] ∧ others = #[earlier.onto later]

theorem used_mirrors (earlier : Sink) : Mirrors (Used earlier) where
  respond := by
    rintro _ _ ⟨later, continues, rfl, rfl⟩ number length
    cases number with
    | zero => exact continues.respond length
    | succ number => rfl
  write := by
    rintro _ _ ⟨later, continues, rfl, rfl⟩ number bytes
    cases number with
    | zero =>
        refine ⟨_, continues.write bytes, rfl, ?_⟩
        rw [← continues.record, ← continues.respond]
        rfl
    | succ number => exact ⟨later, continues, rfl, rfl⟩
  flush_fault := by
    rintro _ _ ⟨later, continues, rfl, rfl⟩ number
    cases number with
    | zero =>
        have same : later.flushFails = (earlier.onto later).flushFails := continues.grown.flushFails
        simp [Sinks.flush, same]
    | succ number => rfl
  flush := by
    rintro _ _ ⟨later, continues, rfl, rfl⟩ number
    cases number with
    | zero => exact ⟨_, continues.flush, rfl, rfl⟩
    | succ number => exact ⟨later, continues, rfl, rfl⟩

end Sinks

end StackMachine
