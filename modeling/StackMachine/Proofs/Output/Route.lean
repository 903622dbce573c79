import Mathlib
import StackMachine.Proofs.Output.Delivery

/-!
# Delivery to all sinks of an output

What `Delivery` says of one writer holds of all writers of an output, if their sinks are different:
a write leaves every sink with a beginning of the text that is due, and with all of it but what is
held if nothing is reported; a flush that reports nothing leaves nothing held.
-/

namespace StackMachine

namespace Writer

variable {limit : Nat} {text : Bytes} {number : Nat} {sinks : Sinks} {sink : Sink}
  {writer : Writer}

theorem flush_outcome (leads : writer.sink? = some number) (found : sinks[number]? = some sink)
    (current : writer.Current limit text sink) (small : text.length ≤ limit) :
    Outcome limit text number sinks sink (writer.flush sinks).1 (writer.flush sinks).2.1
        (writer.flush sinks).2.2 ∧
      ((writer.flush sinks).1 = none → (writer.flush sinks).2.1.held = []) := by
  have kept {own : Nat} (same : Writer.sink? (.direct own) = some number)
      (isCurrent : (Writer.direct own).Current limit text sink) :
      Outcome limit text number sinks sink none (.direct own) sinks :=
    ⟨same, fun _ _ => rfl, ⟨sink, found, .refl sink, isCurrent.behind List.prefix_rfl,
      fun _ => isCurrent⟩, fun _ => rfl⟩
  cases writer with
  | discard => cases leads
  | direct own => exact ⟨kept leads current, fun _ => rfl⟩
  | flushing own =>
      cases leads
      have grown := sink.grown_recordFlush
      have now : (Writer.flushing number).Current limit text sink.recordFlush :=
        ⟨current.kind, current.reports.grown grown, rfl, current.complete⟩
      refine ⟨⟨rfl, fun other ne => Sinks.flush_other ne,
        ⟨_, Sinks.flush_self found, grown, now.behind List.prefix_rfl, fun _ => now⟩,
        fun accepts => ?_⟩, fun _ => rfl⟩
      have flushes : sink.flushFails = false := accepts.flushes current.kind
      simp [flush, Sinks.flush, found, flushes]
  | buffered buffer =>
      cases leads
      exact BlockBuffer.flush_outcome found current small

theorem flush_behind (leads : writer.sink? = some number) (found : sinks[number]? = some sink)
    (behind : writer.Behind text sink) :
    (writer.flush sinks).2.1.sink? = some number ∧
      (∀ other, other ≠ number → (writer.flush sinks).2.2[other]? = sinks[other]?) ∧
      ∃ later, (writer.flush sinks).2.2[number]? = some later ∧ sink.Grown later ∧
        (writer.flush sinks).2.1.Behind text later := by
  cases writer with
  | discard => cases leads
  | direct own => exact ⟨leads, fun _ _ => rfl, sink, found, .refl sink, behind⟩
  | flushing own =>
      cases leads
      exact ⟨rfl, fun other ne => Sinks.flush_other ne, _, Sinks.flush_self found,
        sink.grown_recordFlush, ⟨behind.kind, behind.received, behind.next⟩⟩
  | buffered buffer =>
      cases leads
      obtain ⟨same, others, left⟩ := BlockBuffer.flush_behind found behind
      exact ⟨congrArg some same, others, left⟩

/-! ## Several writers -/

/-- The sinks that some writers lead to. -/
def attached (writers : List Writer) : List Nat := writers.filterMap sink?

theorem attached_cons (writer : Writer) (rest : List Writer) :
    attached (writer :: rest) = attached [writer] ++ attached rest := by
  cases leads : writer.sink? <;> simp [attached, leads]

theorem forall_attached_cons {writer : Writer} {rest : List Writer} {Holds : Nat → Prop} :
    (∀ number ∈ attached (writer :: rest), Holds number) ↔
      (∀ number ∈ attached [writer], Holds number) ∧ ∀ number ∈ attached rest, Holds number := by
  rw [attached_cons]
  exact List.forall_mem_append

theorem nodup_attached_of_cons {writer : Writer} {rest : List Writer}
    (distinct : (attached (writer :: rest)).Nodup) : (attached rest).Nodup := by
  rw [attached_cons] at distinct
  exact distinct.of_append_right

theorem mem_attached_singleton {writer : Writer} {number : Nat} :
    number ∈ attached [writer] ↔ writer.sink? = some number := by
  simp [attached]

/-- A property of each writer and its sink. -/
def Each (Holds : Nat → Sink → Writer → Prop) (sinks : Sinks) (writers : List Writer) : Prop :=
  ∀ writer ∈ writers, ∀ number, writer.sink? = some number →
    ∃ sink, sinks[number]? = some sink ∧ Holds number sink writer

namespace Each

variable {Holds Also : Nat → Sink → Writer → Prop} {after : Sinks} {rest : List Writer}

theorem nil (sinks : Sinks) : Each Holds sinks [] := List.forall_mem_nil _

theorem cons_iff :
    Each Holds sinks (writer :: rest) ↔ Each Holds sinks [writer] ∧ Each Holds sinks rest := by
  unfold Each
  rw [List.forall_mem_cons, List.forall_mem_singleton]

theorem congr {writers : List Writer} (each : Each Holds sinks writers)
    (same : ∀ number ∈ attached writers, after[number]? = sinks[number]?) :
    Each Holds after writers := by
  intro writer mem number leads
  rw [same number (List.mem_filterMap.mpr ⟨writer, mem, leads⟩)]
  exact each writer mem number leads

theorem mono {writers : List Writer} (each : Each Holds sinks writers)
    (implies : ∀ number sink writer, Holds number sink writer → Also number sink writer) :
    Each Also sinks writers := by
  intro writer mem number leads
  obtain ⟨sink, found, holds⟩ := each writer mem number leads
  exact ⟨sink, found, implies number sink writer holds⟩

theorem exists_sink {writers : List Writer} (each : Each Holds sinks writers)
    (mem : number ∈ attached writers) : ∃ sink, sinks[number]? = some sink := by
  obtain ⟨writer, isWriter, leads⟩ := List.mem_filterMap.mp mem
  obtain ⟨sink, found, -⟩ := each writer isWriter number leads
  exact ⟨sink, found⟩

theorem singleton_of_none (none : writer.sink? = none) : Each Holds sinks [writer] := by
  intro other mem number leads
  cases List.mem_singleton.mp mem
  rw [none] at leads
  cases leads

theorem singleton_of_some (leads : writer.sink? = some number) (found : sinks[number]? = some sink)
    (holds : Holds number sink writer) : Each Holds sinks [writer] := by
  intro other mem place leadsTo
  cases List.mem_singleton.mp mem
  rw [leads] at leadsTo
  cases leadsTo
  exact ⟨sink, found, holds⟩

end Each

/-- Some writers after an operation: they lead to the same sinks, these have received more, but
still a beginning of the text that is due, and other sinks are as they were. -/
structure Moves (text : Nat → Bytes) (writers : List Writer) (sinks : Sinks)
    (later : List Writer) (after : Sinks) : Prop where
  attached : attached later = attached writers
  others : ∀ number, number ∉ Writer.attached writers → after[number]? = sinks[number]?
  grown : ∀ number ∈ Writer.attached writers, ∀ sink, sinks[number]? = some sink →
    ∃ last, after[number]? = some last ∧ sink.Grown last
  behind : Each (fun number sink writer => writer.Behind (text number) sink) after later

namespace Moves

variable {text due : Nat → Bytes} {between after : Sinks} {next : Writer}
  {writers rest others last : List Writer}

theorem refl (behind : Each (fun number sink writer => writer.Behind (text number) sink) sinks
    writers) : Moves text writers sinks writers sinks where
  attached := rfl
  others _ _ := rfl
  grown _ _ sink found := ⟨sink, found, .refl sink⟩
  behind := behind

theorem trans (first : Moves due writers sinks others between)
    (second : Moves text others between last after) : Moves text writers sinks last after where
  attached := second.attached.trans first.attached
  others number notAttached := by
    rw [second.others number (first.attached ▸ notAttached), first.others number notAttached]
  grown number mem sink found := by
    obtain ⟨later, foundLater, grown⟩ := first.grown number mem sink found
    obtain ⟨final, foundFinal, grownOn⟩ :=
      second.grown number (first.attached ▸ mem) later foundLater
    exact ⟨final, foundFinal, grown.trans grownOn⟩
  behind := second.behind

/-- An operation on one sink. -/
theorem of_sink (leads : writer.sink? = some number) (found : sinks[number]? = some sink)
    (same : next.sink? = some number)
    (others : ∀ other, other ≠ number → after[other]? = sinks[other]?)
    (left : ∃ later, after[number]? = some later ∧ sink.Grown later ∧
      next.Behind (text number) later) :
    Moves text [writer] sinks [next] after := by
  obtain ⟨later, foundLater, grown, behind⟩ := left
  refine ⟨?_, fun place notAttached => ?_, fun place mem before foundBefore => ?_,
    .singleton_of_some same foundLater behind⟩
  · simp [Writer.attached, leads, same]
  · apply others
    rintro rfl
    exact notAttached (mem_attached_singleton.mpr leads)
  · have own := mem_attached_singleton.mp mem
    rw [leads] at own
    cases own
    rw [found] at foundBefore
    cases foundBefore
    exact ⟨later, foundLater, grown⟩

section Cons

variable (distinct : (Writer.attached (writer :: rest)).Nodup)
  (head : Moves text [writer] sinks [next] between)

include distinct head

/-- The first writer has touched no sink of the others. -/
theorem untouched {place : Nat} (mem : place ∈ Writer.attached rest) :
    between[place]? = sinks[place]? := by
  rw [attached_cons] at distinct
  apply head.others
  intro first
  exact List.disjoint_of_nodup_append distinct first mem

/-- The others touch no sink of the first writer. -/
theorem apart (tail : Moves text rest between others after) {place : Nat}
    (mem : place ∈ Writer.attached [next]) : after[place]? = between[place]? := by
  rw [head.attached] at mem
  rw [attached_cons] at distinct
  exact tail.others place fun later => List.disjoint_of_nodup_append distinct mem later

/-- One writer after the other. -/
theorem cons (tail : Moves text rest between others after) :
    Moves text (writer :: rest) sinks (next :: others) after := by
  refine ⟨?_, fun place notAttached => ?_, fun place mem before found => ?_,
    Each.cons_iff.mpr ⟨head.behind.congr fun _ => apart distinct head tail, tail.behind⟩⟩
  · rw [attached_cons, attached_cons writer, head.attached, tail.attached]
  · rw [attached_cons, List.mem_append, not_or] at notAttached
    rw [tail.others place notAttached.2, head.others place notAttached.1]
  · rw [attached_cons, List.mem_append] at mem
    rcases mem with first | later
    · rw [apart distinct head tail (head.attached ▸ first)]
      exact head.grown place first before found
    · rw [← untouched distinct head later] at found
      exact tail.grown place later before found

end Cons

end Moves

/-- What an operation on some writers leaves, where `text` is due afterwards. -/
structure Deliveries (limit : Nat → Nat) (text : Nat → Bytes) (writers : List Writer)
    (sinks : Sinks) (fault : Option WriteFault) (later : List Writer) (after : Sinks) : Prop
    extends Moves text writers sinks later after where
  current : fault = none →
    Each (fun number sink writer => writer.Current (limit number) (text number) sink) after later
  accepted : (∀ number ∈ Writer.attached writers, ∀ sink, sinks[number]? = some sink →
    sink.Accepts (limit number)) → fault = none

namespace Deliveries

variable {limit : Nat → Nat} {text : Nat → Bytes} {between after : Sinks}
  {fault laterFault : Option WriteFault} {next : Writer} {rest others : List Writer}

theorem of_outcome (leads : writer.sink? = some number) (found : sinks[number]? = some sink)
    (outcome : Outcome (limit number) (text number) number sinks sink fault next after) :
    Deliveries limit text [writer] sinks fault [next] after := by
  obtain ⟨later, foundLater, grown, behind, current⟩ := outcome.left
  exact ⟨.of_sink leads found outcome.leads outcome.others ⟨later, foundLater, grown, behind⟩,
    fun noFault => .singleton_of_some outcome.leads foundLater (current noFault),
    fun accepts => outcome.accepted
      (accepts number (mem_attached_singleton.mpr leads) sink found)⟩

/-- A writer that leads nowhere has nothing to deliver. -/
theorem of_none (nowhere : writer.sink? = none) :
    Deliveries limit text [writer] sinks none [writer] sinks :=
  ⟨.refl (.singleton_of_none nowhere), fun _ => .singleton_of_none nowhere, fun _ => rfl⟩

theorem nil : Deliveries limit text [] sinks none [] sinks :=
  ⟨.refl (.nil sinks), fun _ => .nil sinks, fun _ => rfl⟩

section Cons

variable (distinct : (Writer.attached (writer :: rest)).Nodup)
  (head : Deliveries limit text [writer] sinks fault [next] between)

include distinct head

/-- One writer after the other. -/
theorem cons (tail : Deliveries limit text rest between laterFault others after) :
    Deliveries limit text (writer :: rest) sinks (fault.or laterFault) (next :: others) after := by
  refine ⟨head.toMoves.cons distinct tail.toMoves, fun noFault => ?_, fun accepts => ?_⟩
  · rw [Option.or_eq_none_iff] at noFault
    exact Each.cons_iff.mpr
      ⟨(head.current noFault.1).congr fun _ => head.toMoves.apart distinct tail.toMoves,
        tail.current noFault.2⟩
  · obtain ⟨own, others⟩ := forall_attached_cons.mp accepts
    have first : fault = none := head.accepted own
    have second : laterFault = none := tail.accepted fun place mem before found => by
      rw [head.toMoves.untouched distinct mem] at found
      exact others place mem before found
    rw [first, second]
    rfl

/-- The first writer has failed and the others are left as they were. -/
theorem stop {failure : WriteFault} (failed : fault = some failure)
    (behind : Each (fun number sink writer => writer.Behind (text number) sink) sinks rest) :
    Deliveries limit text (writer :: rest) sinks (some failure) (next :: rest) between := by
  refine ⟨head.toMoves.cons distinct (.refl ?_), nofun, fun accepts => ?_⟩
  · exact behind.congr fun _ mem => head.toMoves.untouched distinct mem
  · rw [← failed]
    exact head.accepted (forall_attached_cons.mp accepts).1

end Cons

end Deliveries

section Operations

variable {limit : Nat → Nat} {text : Nat → Bytes}
  (current : Each (fun number sink writer => writer.Current (limit number) (text number) sink)
    sinks [writer])

include current

theorem flush_deliveries
    (small : ∀ number ∈ attached [writer], (text number).length ≤ limit number) :
    Deliveries limit text [writer] sinks (writer.flush sinks).1 [(writer.flush sinks).2.1]
        (writer.flush sinks).2.2 ∧
      ((writer.flush sinks).1 = none → (writer.flush sinks).2.1.held = []) := by
  cases leads : writer.sink? with
  | none =>
      cases writer with
      | discard => exact ⟨.of_none rfl, fun _ => rfl⟩
      | direct | flushing | buffered => cases leads
  | some number =>
      obtain ⟨sink, found, now⟩ := current writer List.mem_cons_self number leads
      have inLimit := small number (mem_attached_singleton.mpr leads)
      obtain ⟨outcome, emptied⟩ := flush_outcome leads found now inLimit
      exact ⟨.of_outcome leads found outcome, emptied⟩

end Operations

theorem flush_moves {text : Nat → Bytes}
    (behind : Each (fun number sink writer => writer.Behind (text number) sink) sinks [writer]) :
    Moves text [writer] sinks [(writer.flush sinks).2.1] (writer.flush sinks).2.2 := by
  cases leads : writer.sink? with
  | none =>
      cases writer with
      | discard => exact .refl behind
      | direct | flushing | buffered => cases leads
  | some number =>
      obtain ⟨sink, found, now⟩ := behind writer List.mem_cons_self number leads
      obtain ⟨same, others, left⟩ := flush_behind leads found now
      exact .of_sink leads found same others left

end Writer

/-! ## Routes -/

namespace Route

open Writer

variable {limit : Nat → Nat} {text : Nat → Bytes} {writers : List Writer} {sinks : Sinks}

theorem flushAll_deliveries (distinct : (attached writers).Nodup)
    (current : Each (fun number sink writer => writer.Current (limit number) (text number) sink)
      sinks writers)
    (small : ∀ number ∈ attached writers, (text number).length ≤ limit number) :
    Deliveries limit text writers sinks (flushAll writers sinks).1 (flushAll writers sinks).2.1
        (flushAll writers sinks).2.2 ∧
      ((flushAll writers sinks).1 = none →
        ∀ writer ∈ (flushAll writers sinks).2.1, writer.held = []) := by
  induction writers generalizing sinks with
  | nil => exact ⟨.nil, fun _ => List.forall_mem_nil _⟩
  | cons writer rest ih =>
      obtain ⟨first, later⟩ := Each.cons_iff.mp current
      obtain ⟨own, others⟩ := forall_attached_cons.mp small
      obtain ⟨head, emptied⟩ := flush_deliveries first own
      have apart := nodup_attached_of_cons distinct
      obtain ⟨tail, emptiedLater⟩ := ih apart
        (later.congr fun _ mem => head.toMoves.untouched distinct mem) others
      refine ⟨head.cons distinct tail, fun noFault => ?_⟩
      obtain ⟨noFirst, noLater⟩ := Option.or_eq_none_iff.mp noFault
      exact List.forall_mem_cons.mpr ⟨emptied noFirst, emptiedLater noLater⟩

theorem flushAll_moves (distinct : (attached writers).Nodup)
    (behind : Each (fun number sink writer => writer.Behind (text number) sink) sinks writers) :
    Moves text writers sinks (flushAll writers sinks).2.1 (flushAll writers sinks).2.2 := by
  induction writers generalizing sinks with
  | nil => exact .refl (.nil sinks)
  | cons writer rest ih =>
      obtain ⟨first, later⟩ := Each.cons_iff.mp behind
      have head := flush_moves first
      have apart := nodup_attached_of_cons distinct
      exact head.cons distinct (ih apart (later.congr fun _ mem => head.untouched distinct mem))

end Route

/-! ## Outputs -/

namespace Output

/-- The sinks that an output leads to. -/
def attached (output : Output) : List Nat := Writer.attached output.route.writers

/-- Every sink has received the text that is due to it, but for what is held. -/
def Current (limit : Nat → Nat) (text : Nat → Bytes) (output : Output) : Prop :=
  Writer.Each (fun number sink writer => writer.Current (limit number) (text number) sink)
    output.sinks output.route.writers

/-- Every sink has received a beginning of the text that is due to it. -/
def Behind (text : Nat → Bytes) (output : Output) : Prop :=
  Writer.Each (fun number sink writer => writer.Behind (text number) sink)
    output.sinks output.route.writers

/-- Nothing is held. -/
def Flushed (output : Output) : Prop := ∀ writer ∈ output.route.writers, writer.held = []

/-- No sink fails up to some number of bytes. -/
def Accepts (limit : Nat → Nat) (output : Output) : Prop :=
  ∀ number ∈ output.attached, ∀ sink, output.sinks[number]? = some sink →
    sink.Accepts (limit number)

/-- An output after an operation, where `text` is due. -/
def Moves (text : Nat → Bytes) (output after : Output) : Prop :=
  Writer.Moves text output.route.writers output.sinks after.route.writers after.sinks

/-- What an operation on an output leaves, where `text` is due afterwards. -/
def Delivers (limit : Nat → Nat) (text : Nat → Bytes) (output : Output)
    (fault : Option WriteFault) (after : Output) : Prop :=
  Writer.Deliveries limit text output.route.writers output.sinks fault after.route.writers
    after.sinks

variable {limit : Nat → Nat} {text : Nat → Bytes} {output : Output}

theorem flush_delivers (distinct : output.attached.Nodup) (current : output.Current limit text)
    (small : ∀ number ∈ output.attached, (text number).length ≤ limit number) :
    output.Delivers limit text output.flush.1 output.flush.2 ∧
      (output.flush.1 = none → output.flush.2.Flushed) := by
  obtain ⟨route, sinks⟩ := output
  cases route with
  | single writer =>
      obtain ⟨delivers, emptied⟩ := Writer.flush_deliveries current small
      exact ⟨delivers, fun noFault => List.forall_mem_singleton.mpr (emptied noFault)⟩
  | tee writers => exact Route.flushAll_deliveries distinct current small

theorem flush_moves (distinct : output.attached.Nodup) (behind : output.Behind text) :
    output.Moves text output.flush.2 := by
  obtain ⟨route, sinks⟩ := output
  cases route with
  | single writer => exact Writer.flush_moves behind
  | tee writers => exact Route.flushAll_moves distinct behind

/-- Sinks that take everything go on taking everything. -/
theorem Delivers.accepts {due : Nat → Bytes} {fault : Option WriteFault} {after : Output}
    (current : output.Current limit due) (delivers : output.Delivers limit text fault after)
    (accepts : output.Accepts limit) : after.Accepts limit := by
  intro number mem sink found
  have isAttached : number ∈ output.attached := by
    rw [attached, ← delivers.attached]
    exact mem
  obtain ⟨earlier, before⟩ := current.exists_sink isAttached
  obtain ⟨later, foundLater, grown⟩ := delivers.grown number isAttached earlier before
  rw [found] at foundLater
  cases foundLater
  exact (accepts number isAttached earlier before).grown grown

end Output

end StackMachine
