import Mathlib
import StackMachine.Proofs.Output.Route

/-!
# Attaching sinks

An output that has been led to some sinks and not been written to holds nothing, and its sinks are
as they were but for the number of their flushes.  From then on all that is printed is due to these
sinks, after what they have received before.
-/

namespace StackMachine

/-! ## Sinks -/

/-- A sink without the count of its flushes. -/
def Sink.content (sink : Sink) : Sink := { sink with flushes := 0 }

/-- A sink that was only flushed has received nothing. -/
theorem Sink.grown_of_content {sink later : Sink} (same : later.content = sink.content) :
    sink.Grown later ∧ later.received = sink.received := by
  simp only [content, mk.injEq] at same
  obtain ⟨kind, capacity, short, flushFails, received, -⟩ := same
  exact ⟨⟨kind, capacity, short, flushFails, received ▸ List.prefix_rfl⟩, received⟩

namespace Sinks

/-- Sinks without the counts of their flushes. -/
def contents (sinks : Sinks) : Array Sink := sinks.map Sink.content

/-- What a sink has received. -/
def received? (sinks : Sinks) (number : Nat) : Option Bytes :=
  (sinks[number]?).map fun sink => sink.received.toList

/-- What the sinks have received, and nothing at other numbers. -/
def received (sinks : Sinks) (number : Nat) : Bytes := (sinks.received? number).getD []

variable {sinks after : Sinks} {number : Nat} {sink : Sink}

theorem received?_of_found (found : sinks[number]? = some sink) :
    sinks.received? number = some sink.received.toList := by
  rw [received?, found, Option.map_some]

theorem received_of_found (found : sinks[number]? = some sink) :
    sinks.received number = sink.received.toList := by
  rw [received, received?_of_found found, Option.getD_some]

theorem exists_of_contents (same : after.contents = sinks.contents)
    (found : sinks[number]? = some sink) :
    ∃ later, after[number]? = some later ∧ later.content = sink.content := by
  have image : after.contents[number]? = some sink.content := by
    rw [same, contents, Array.getElem?_map, found, Option.map_some]
  rw [contents, Array.getElem?_map] at image
  exact Option.map_eq_some_iff.mp image

theorem contents_flush (sinks : Sinks) (number : Nat) :
    (sinks.flush number).2.contents = sinks.contents := by
  apply Array.ext_getElem?
  intro place
  rw [contents, contents, Array.getElem?_map, Array.getElem?_map]
  by_cases same : place = number
  · subst same
    cases found : sinks[place]? with
    | none => simp [flush, Array.getElem?_modify, found]
    | some sink =>
        rw [flush_self found]
        rfl
  · rw [flush_other same]

end Sinks

/-! ## Writers -/

namespace Writer

/-- A writer that holds nothing passes nothing on. -/
theorem flush_contents {writer : Writer} (nothingHeld : writer.held = []) (sinks : Sinks) :
    (writer.flush sinks).2.2.contents = sinks.contents := by
  cases writer with
  | discard | direct => rfl
  | flushing number => exact sinks.contents_flush number
  | buffered buffer =>
      have empty : buffer.pending.isEmpty = true := List.isEmpty_iff.mpr nothingHeld
      simp only [flush, BlockBuffer.flush, empty, if_true]
      split <;> rfl

theorem ofSink_of_kinds {sinks after : Sinks} {number : Nat}
    (same : (after[number]?).map Sink.kind = (sinks[number]?).map Sink.kind) :
    ofSink after number = ofSink sinks number := by
  unfold ofSink
  rw [same]

theorem ofSink_of_contents {sinks after : Sinks} (same : after.contents = sinks.contents)
    (number : Nat) : ofSink after number = ofSink sinks number := by
  apply ofSink_of_kinds
  have image := congrArg (fun contents => (contents[number]?).map Sink.kind) same
  simp only [Sinks.contents, Array.getElem?_map, Option.map_map] at image
  exact image

/-- A writer that has just been made leads to its sink, if that keeps what it receives. -/
theorem ofSink_sink?_iff (sinks : Sinks) (number other : Nat) :
    (ofSink sinks number).sink? = some other ↔
      other = number ∧ ∃ sink, sinks[number]? = some sink ∧ sink.kind ≠ .discard := by
  unfold ofSink
  cases found : sinks[number]? with
  | none => simp [sink?]
  | some sink => cases kind : sink.kind <;> simp [sink?, kind, eq_comm]

theorem ofSink_kind {sinks : Sinks} {number : Nat} {sink : Sink}
    (found : sinks[number]? = some sink) : (ofSink sinks number).kind = sink.kind := by
  unfold ofSink
  rw [found]
  cases kind : sink.kind <;> simp [Writer.kind, kind]

theorem ofSink_fresh (sinks : Sinks) (number : Nat) :
    (ofSink sinks number).held = [] ∧ (ofSink sinks number).fault? = none := by
  unfold ofSink
  split <;> exact ⟨rfl, rfl⟩

end Writer

/-! ## Outputs -/

theorem Route.flushAll_contents {writers : List Writer}
    (each : ∀ writer ∈ writers, ∀ sinks, (writer.flush sinks).2.2.contents = sinks.contents)
    (sinks : Sinks) : (flushAll writers sinks).2.2.contents = sinks.contents := by
  induction writers generalizing sinks with
  | nil => rfl
  | cons writer rest ih =>
      obtain ⟨first, later⟩ := List.forall_mem_cons.mp each
      exact (ih later _).trans (first sinks)

/-- A route with one more writer. -/
theorem Route.writers_combine (route : Route) (writer : Writer) :
    ((combine [some route, some (.single writer)]).getD route).writers =
      route.writers ++ [writer] := by
  have both : [some route, some (.single writer)].flatMap (fun route =>
      (route.map writers).getD []) = route.writers ++ [writer] := by
    simp [writers]
  unfold combine
  rw [both]
  rcases route.writers with _ | ⟨first, _ | ⟨second, rest⟩⟩ <;> rfl

namespace Output

theorem flush_contents_of_writers {output : Output}
    (each : ∀ writer ∈ output.route.writers, ∀ sinks,
      (writer.flush sinks).2.2.contents = sinks.contents) :
    output.flush.2.sinks.contents = output.sinks.contents := by
  obtain ⟨route, sinks⟩ := output
  cases route with
  | single writer => exact each writer (List.mem_singleton_self writer) sinks
  | tee writers => exact Route.flushAll_contents each sinks

theorem flush_contents {output : Output} (nothingHeld : output.Flushed) :
    output.flush.2.sinks.contents = output.sinks.contents :=
  flush_contents_of_writers fun writer isWriter =>
    Writer.flush_contents (nothingHeld writer isWriter)

/-- An output that was led to some sinks and not written to. -/
structure Fresh (sinks : Sinks) (numbers : List Nat) (output : Output) : Prop where
  contents : output.sinks.contents = sinks.contents
  writers : output.route.writers.filter (· ≠ .discard) =
    (numbers.map (Writer.ofSink sinks)).filter (· ≠ .discard)

namespace Fresh

variable {sinks : Sinks} {numbers : List Nat} {output : Output} {limit : Nat → Nat}

theorem discard (sinks : Sinks) : Fresh sinks [] { sinks } := ⟨rfl, rfl⟩

/-- A writer of the output is made for one of the sinks, or drops everything. -/
theorem of_mem (fresh : Fresh sinks numbers output) {writer : Writer}
    (mem : writer ∈ output.route.writers) :
    writer = .discard ∨ ∃ number ∈ numbers, writer = Writer.ofSink sinks number := by
  by_cases drops : writer = .discard
  · exact .inl drops
  · right
    have isMade : writer ∈ (numbers.map (Writer.ofSink sinks)).filter (· ≠ .discard) := by
      rw [← fresh.writers]
      exact List.mem_filter.mpr ⟨mem, decide_eq_true drops⟩
    obtain ⟨number, isNumber, made⟩ := List.mem_map.mp (List.mem_filter.mp isMade).1
    exact ⟨number, isNumber, made.symm⟩

theorem flushed (fresh : Fresh sinks numbers output) : output.Flushed := by
  intro writer mem
  rcases fresh.of_mem mem with rfl | ⟨number, -, rfl⟩
  · rfl
  · exact (Writer.ofSink_fresh sinks number).1

theorem redirect (fresh : Fresh sinks numbers output) (number : Nat) :
    Fresh sinks [number] (output.redirect number) := by
  have same : output.flush.2.sinks.contents = sinks.contents :=
    (flush_contents fresh.flushed).trans fresh.contents
  refine ⟨same, ?_⟩
  rw [Output.redirect, Route.writers, Writer.ofSink_of_contents same]
  rfl

theorem addTee (fresh : Fresh sinks numbers output) (number : Nat) :
    Fresh sinks (numbers ++ [number]) (output.addTee number) := by
  refine ⟨fresh.contents, ?_⟩
  rw [Output.addTee, Route.writers_combine, List.filter_append, fresh.writers,
    Writer.ofSink_of_contents fresh.contents, List.map_append, List.filter_append]
  rfl

theorem attached (fresh : Fresh sinks numbers output) :
    output.attached = numbers.filterMap fun number => (Writer.ofSink sinks number).sink? := by
  have dropped (writers : List Writer) :
      (writers.filter (· ≠ .discard)).filterMap Writer.sink? = writers.filterMap Writer.sink? := by
    rw [List.filterMap_filter]
    congr 1
    funext writer
    cases writer <;> rfl
  rw [Output.attached, Writer.attached, ← dropped, fresh.writers, dropped, List.filterMap_map]
  rfl

theorem mem_attached_iff (fresh : Fresh sinks numbers output) {number : Nat} :
    number ∈ output.attached ↔
      number ∈ numbers ∧ ∃ sink, sinks[number]? = some sink ∧ sink.kind ≠ .discard := by
  rw [fresh.attached, List.mem_filterMap]
  constructor
  · rintro ⟨place, isNumber, leads⟩
    obtain ⟨rfl, keeps⟩ := (Writer.ofSink_sink?_iff sinks place number).mp leads
    exact ⟨isNumber, keeps⟩
  · rintro ⟨isNumber, keeps⟩
    exact ⟨number, isNumber, (Writer.ofSink_sink?_iff sinks number number).mpr ⟨rfl, keeps⟩⟩

theorem distinct (fresh : Fresh sinks numbers output) (distinct : numbers.Nodup) :
    output.attached.Nodup := by
  rw [fresh.attached]
  refine distinct.filterMap fun number other place leads leadsToo => ?_
  obtain ⟨rfl, -⟩ := (Writer.ofSink_sink?_iff sinks number place).mp leads
  exact ((Writer.ofSink_sink?_iff sinks other place).mp leadsToo).1

/-- What the sinks have received before comes before all that is printed. -/
theorem current (fresh : Fresh sinks numbers output)
    (reports : ∀ number ∈ numbers, ∀ sink, sinks[number]? = some sink →
      sink.Reports (limit number)) :
    output.Current limit sinks.received := by
  intro writer mem number leads
  rcases fresh.of_mem mem with rfl | ⟨place, isNumber, rfl⟩
  · cases leads
  · obtain ⟨rfl, sink, found, -⟩ := (Writer.ofSink_sink?_iff sinks place number).mp leads
    obtain ⟨later, foundLater, same⟩ := Sinks.exists_of_contents fresh.contents found
    obtain ⟨grown, received⟩ := Sink.grown_of_content same
    obtain ⟨nothingHeld, sound⟩ := Writer.ofSink_fresh sinks number
    refine ⟨later, foundLater, ?_, (reports number isNumber sink found).grown grown, sound, ?_⟩
    · rw [Writer.ofSink_kind found, grown.kind]
    · rw [nothingHeld, List.append_nil, received, Sinks.received_of_found found]

theorem accepts (fresh : Fresh sinks numbers output)
    (accepts : ∀ number ∈ numbers, ∀ sink, sinks[number]? = some sink →
      sink.Accepts (limit number)) : output.Accepts limit := by
  intro number mem later foundLater
  obtain ⟨isNumber, sink, found, -⟩ := fresh.mem_attached_iff.mp mem
  obtain ⟨_, foundSame, same⟩ := Sinks.exists_of_contents fresh.contents found
  rw [foundLater] at foundSame
  cases foundSame
  exact (accepts number isNumber sink found).grown (Sink.grown_of_content same).1

end Fresh

end Output

end StackMachine
