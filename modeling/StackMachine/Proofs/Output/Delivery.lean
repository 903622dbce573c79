import Mathlib
import StackMachine.Output.Writer
import StackMachine.Proofs.Text.Utf8

/-!
# Delivery

A writer is current if its sink has received the text that is due, but for what the writer holds;
it is behind if its sink has received a beginning of that text.  A write to a current writer leaves
it behind at worst, and current if nothing is reported, provided that its sink reports every write
of which it does not take all.  If the sink takes everything, nothing is reported.  The same holds
for all writers of a route, whose sinks are different.
-/

namespace StackMachine

/-! ## Sinks -/

namespace Sink

/-- Up to a number of bytes in all, a write of which the sink does not take all is reported. -/
def Reports (limit : Nat) (sink : Sink) : Prop :=
  ∀ length, sink.received.size + length ≤ limit →
    (sink.respond length).fault = none → (sink.respond length).taken = length

/-- Up to a number of bytes in all, the sink takes everything and can be flushed. -/
structure Accepts (limit : Nat) (sink : Sink) : Prop where
  takes : ∀ length, sink.received.size + length ≤ limit → sink.respond length = ⟨length, none⟩
  flushes : sink.kind = .flushing → sink.flushFails = false

/-- A sink that has received more. -/
structure Grown (sink later : Sink) : Prop where
  kind : later.kind = sink.kind
  capacity : later.capacity = sink.capacity
  short : later.short = sink.short
  flushFails : later.flushFails = sink.flushFails
  received : sink.received.toList <+: later.received.toList

namespace Grown

variable {sink later last : Sink}

theorem refl (sink : Sink) : sink.Grown sink := ⟨rfl, rfl, rfl, rfl, List.prefix_rfl⟩

theorem trans (first : sink.Grown later) (second : later.Grown last) : sink.Grown last where
  kind := second.kind.trans first.kind
  capacity := second.capacity.trans first.capacity
  short := second.short.trans first.short
  flushFails := second.flushFails.trans first.flushFails
  received := first.received.trans second.received

/-- What a sink has received in between counts as part of the next write. -/
theorem exists_respond (grown : sink.Grown later) :
    ∃ between, later.received.size = sink.received.size + between ∧
      ∀ length, (later.respond length).fault = (sink.respond (between + length)).fault ∧
        ((sink.respond (between + length)).fault = none →
          (sink.respond (between + length)).taken = between + length →
            (later.respond length).taken = length) := by
  obtain ⟨more, isMore⟩ := grown.received
  have size : later.received.size = sink.received.size + more.length := by
    rw [← Array.length_toList, ← isMore, List.length_append, Array.length_toList]
  refine ⟨more.length, size, fun length => ?_⟩
  have sum : later.received.size + length = sink.received.size + (more.length + length) := by
    rw [size, Nat.add_assoc]
  unfold respond
  rw [grown.kind, grown.capacity, grown.short, sum]
  cases sink.kind with
  | memory | discard => exact ⟨rfl, fun _ _ => rfl⟩
  | device | flushing =>
      dsimp only
      split
      · exact ⟨rfl, nofun⟩
      · split
        · refine ⟨rfl, fun _ taken => ?_⟩
          dsimp only at taken ⊢
          omega
        · exact ⟨rfl, fun _ _ => rfl⟩

end Grown

theorem Reports.grown {limit : Nat} {sink later : Sink} (reports : sink.Reports limit)
    (grown : sink.Grown later) : later.Reports limit := by
  obtain ⟨between, size, respond⟩ := grown.exists_respond
  intro length small accepted
  obtain ⟨fault, taken⟩ := respond length
  rw [fault] at accepted
  exact taken accepted (reports _ (by omega) accepted)

theorem Accepts.grown {limit : Nat} {sink later : Sink} (accepts : sink.Accepts limit)
    (grown : sink.Grown later) : later.Accepts limit where
  takes length small := by
    obtain ⟨between, size, respond⟩ := grown.exists_respond
    obtain ⟨fault, taken⟩ := respond length
    rw [accepts.takes _ (by omega)] at fault taken
    have all := taken rfl rfl
    cases response : later.respond length with
    | mk count refused =>
        rw [response] at fault all
        cases fault
        cases all
        rfl
  flushes isFlushing := by
    rw [grown.flushFails]
    exact accepts.flushes (grown.kind ▸ isFlushing)

theorem received_record {sink : Sink} (keeps : sink.kind ≠ .discard) (bytes : Bytes)
    (taken : Nat) :
    (sink.record bytes taken).received.toList = sink.received.toList ++ bytes.take taken := by
  unfold record
  split
  · next drops => exact absurd drops keeps
  · simp

theorem grown_record {sink : Sink} (keeps : sink.kind ≠ .discard) (bytes : Bytes) (taken : Nat) :
    sink.Grown (sink.record bytes taken) := by
  have received : sink.received.toList <+: (sink.record bytes taken).received.toList := by
    rw [received_record keeps]
    exact List.prefix_append _ _
  revert received
  unfold record
  split
  · exact fun received => ⟨rfl, rfl, rfl, rfl, received⟩
  · exact fun received => ⟨rfl, rfl, rfl, rfl, received⟩

theorem grown_recordFlush (sink : Sink) : sink.Grown sink.recordFlush :=
  ⟨rfl, rfl, rfl, rfl, List.prefix_rfl⟩

end Sink

namespace Sinks

variable {sinks : Sinks} {number other : Nat} {sink : Sink}

theorem respond_of_found (found : sinks[number]? = some sink) (length : Nat) :
    sinks.respond number length = sink.respond length := by
  rw [respond, found]

theorem write_self (found : sinks[number]? = some sink) (bytes : Bytes) :
    (sinks.write number bytes)[number]? =
      some (sink.record bytes (sink.respond bytes.length).taken) := by
  rw [write, respond_of_found found, Array.getElem?_modify, if_pos rfl, found]
  rfl

theorem write_other (ne : other ≠ number) (bytes : Bytes) :
    (sinks.write number bytes)[other]? = sinks[other]? := by
  rw [write, Array.getElem?_modify, if_neg ne.symm]

theorem flush_self (found : sinks[number]? = some sink) :
    (sinks.flush number).2[number]? = some sink.recordFlush := by
  rw [flush, Array.getElem?_modify, if_pos rfl, found]
  rfl

theorem flush_other (ne : other ≠ number) :
    (sinks.flush number).2[other]? = sinks[other]? := by
  rw [flush, Array.getElem?_modify, if_neg ne.symm]

end Sinks

/-! ## Writers -/

namespace Writer

/-- The sink that a writer leads to. -/
def sink? : Writer → Option Nat
  | .discard => none
  | .direct sink => some sink
  | .flushing sink => some sink
  | .buffered buffer => some buffer.sink

/-- The kind of sink that a writer is made for. -/
def kind : Writer → SinkKind
  | .discard => .discard
  | .direct _ => .memory
  | .flushing _ => .flushing
  | .buffered _ => .device

/-- What a writer has not passed on yet. -/
def held : Writer → Bytes
  | .buffered buffer => buffer.pending
  | _ => []

/-- The failure after which a writer passes nothing on. -/
def fault? : Writer → Option WriteFault
  | .buffered buffer => buffer.fault
  | _ => none

/-- The sink has received all of a text but what the writer holds. -/
structure Current (limit : Nat) (text : Bytes) (sink : Sink) (writer : Writer) : Prop where
  kind : sink.kind = writer.kind
  reports : sink.Reports limit
  sound : writer.fault? = none
  complete : sink.received.toList ++ writer.held = text

/-- The sink has received a beginning of a text, and the writer can only add to it what comes
next. -/
structure Behind (text : Bytes) (sink : Sink) (writer : Writer) : Prop where
  kind : sink.kind = writer.kind
  received : sink.received.toList <+: text
  next : writer.fault? = none → sink.received.toList ++ writer.held <+: text

theorem Current.behind {limit : Nat} {text longer : Bytes} {sink : Sink} {writer : Writer}
    (current : writer.Current limit text sink) (isPrefix : text <+: longer) :
    writer.Behind longer sink where
  kind := current.kind
  received := (List.prefix_append _ _).trans (current.complete ▸ isPrefix)
  next _ := current.complete ▸ isPrefix

theorem Behind.mono {text longer : Bytes} {sink : Sink} {writer : Writer}
    (behind : writer.Behind text sink) (isPrefix : text <+: longer) :
    writer.Behind longer sink where
  kind := behind.kind
  received := behind.received.trans isPrefix
  next sound := (behind.next sound).trans isPrefix

/-- What an operation on a writer leaves, where `text` is due afterwards. -/
structure Outcome (limit : Nat) (text : Bytes) (number : Nat) (sinks : Sinks) (sink : Sink)
    (fault : Option WriteFault) (writer : Writer) (after : Sinks) : Prop where
  leads : writer.sink? = some number
  others : ∀ other, other ≠ number → after[other]? = sinks[other]?
  left : ∃ later, after[number]? = some later ∧ sink.Grown later ∧ writer.Behind text later ∧
    (fault = none → writer.Current limit text later)
  accepted : sink.Accepts limit → fault = none

/-- An operation goes on after another. -/
theorem Outcome.trans {limit : Nat} {text : Bytes} {number : Nat} {sinks between after : Sinks}
    {sink later : Sink} {fault : Option WriteFault} {writer : Writer} (grown : sink.Grown later)
    (others : ∀ other, other ≠ number → between[other]? = sinks[other]?)
    (second : Outcome limit text number between later fault writer after) :
    Outcome limit text number sinks sink fault writer after where
  leads := second.leads
  others other ne := (second.others other ne).trans (others other ne)
  left := by
    obtain ⟨last, found, grownOn, behind, current⟩ := second.left
    exact ⟨last, found, grown.trans grownOn, behind, current⟩
  accepted accepts := second.accepted (accepts.grown grown)

end Writer

/-! ## Blocks -/

namespace BlockBuffer

variable {buffer : BlockBuffer} {sinks : Sinks} {sink : Sink} {limit : Nat}

/-- Of a block that is passed on the sink receives a beginning. -/
theorem send_behind (found : sinks[buffer.sink]? = some sink) (isDevice : sink.kind = .device)
    {block text : Bytes}
    (isPrefix : sink.received.toList ++ block <+: text) :
    (buffer.send block sinks).1.sink = buffer.sink ∧
      (∀ other, other ≠ buffer.sink → (buffer.send block sinks).2[other]? = sinks[other]?) ∧
      ∃ later, (buffer.send block sinks).2[buffer.sink]? = some later ∧ sink.Grown later ∧
        (Writer.buffered (buffer.send block sinks).1).Behind text later := by
  have keeps : sink.kind ≠ .discard := by
    rw [isDevice]
    decide
  have grown := sink.grown_record keeps block (sink.respond block.length).taken
  have received := Sink.received_record keeps block (sink.respond block.length).taken
  have begins : sink.received.toList ++ block.take (sink.respond block.length).taken <+: text :=
    ((List.prefix_append_right_inj _).mpr (List.take_prefix _ _)).trans isPrefix
  have behind {rest : BlockBuffer}
      (next : rest.fault = none → block.take (sink.respond block.length).taken ++ rest.pending <+:
        block) :
      (Writer.buffered rest).Behind text
        (sink.record block (sink.respond block.length).taken) := by
    refine ⟨grown.kind.trans isDevice, received ▸ begins, fun sound => ?_⟩
    rw [received, List.append_assoc]
    exact ((List.prefix_append_right_inj _).mpr (next sound)).trans isPrefix
  have others (other : Nat) (ne : other ≠ buffer.sink) :
      (sinks.write buffer.sink block)[other]? = sinks[other]? := Sinks.write_other ne block
  have foundLater := Sinks.write_self found block
  unfold send
  rw [Sinks.respond_of_found found]
  dsimp only
  split
  · refine ⟨rfl, others, _, foundLater, grown, behind ?_⟩
    rintro ⟨⟩
  · split
    · refine ⟨rfl, others, _, foundLater, grown, behind ?_⟩
      rintro ⟨⟩
    · refine ⟨rfl, others, _, foundLater, grown, behind fun _ => ?_⟩
      rw [List.append_nil]
      exact List.take_prefix _ _

/-- A block that is passed on without a failure has been received. -/
theorem send_outcome (found : sinks[buffer.sink]? = some sink) (isDevice : sink.kind = .device)
    (reports : sink.Reports limit) (sound : buffer.fault = none) {block text : Bytes}
    (complete : sink.received.toList ++ block = text) (small : text.length ≤ limit) :
    Writer.Outcome limit text buffer.sink sinks sink (buffer.send block sinks).1.fault
        (.buffered (buffer.send block sinks).1) (buffer.send block sinks).2 ∧
      ((buffer.send block sinks).1.fault = none → (buffer.send block sinks).1.pending = []) := by
  have inLimit : sink.received.size + block.length ≤ limit := by
    rw [← complete, List.length_append, Array.length_toList] at small
    exact small
  obtain ⟨same, others, later, foundLater, grown, behind⟩ :=
    send_behind found isDevice ⟨[], (List.append_nil _).trans complete⟩
  have emptied : (buffer.send block sinks).1.fault = none →
      (buffer.send block sinks).1.pending = [] := by
    unfold send
    dsimp only
    split
    · rintro ⟨⟩
    · split
      · rintro ⟨⟩
      · exact fun _ => rfl
  have accepted : sink.Accepts limit → (buffer.send block sinks).1.fault = none := by
    intro accepts
    unfold send
    rw [Sinks.respond_of_found found, accepts.takes _ inLimit]
    dsimp only
    rw [if_neg (Nat.lt_irrefl _)]
    exact sound
  have current : (buffer.send block sinks).1.fault = none →
      (Writer.buffered (buffer.send block sinks).1).Current limit text later := by
    intro noFault
    refine ⟨behind.kind, reports.grown grown, noFault, ?_⟩
    -- Nothing is missing, since the sink would have reported it.
    have taken : (sink.respond block.length).taken = block.length := by
      apply reports _ inLimit
      cases refused : (sink.respond block.length).fault with
      | none => rfl
      | some fault =>
          simp only [send, Sinks.respond_of_found found, refused] at noFault
          cases noFault
    have written : (buffer.send block sinks).2 = sinks.write buffer.sink block := by
      unfold send
      dsimp only
      split
      · rfl
      · split <;> rfl
    have keeps : sink.kind ≠ .discard := by
      rw [isDevice]
      decide
    rw [written, Sinks.write_self found, taken, Option.some.injEq] at foundLater
    rw [← foundLater, Sink.received_record keeps, List.take_length, Writer.held,
      emptied noFault, List.append_nil, complete]
  exact ⟨⟨congrArg some same, others, ⟨later, foundLater, grown, behind, current⟩, accepted⟩,
    emptied⟩

/-- A flush passes on what is pending. -/
theorem flush_outcome {text : Bytes} (found : sinks[buffer.sink]? = some sink)
    (current : (Writer.buffered buffer).Current limit text sink)
    (small : text.length ≤ limit) :
    Writer.Outcome limit text buffer.sink sinks sink (buffer.flush sinks).1
        (.buffered (buffer.flush sinks).2.1) (buffer.flush sinks).2.2 ∧
      ((buffer.flush sinks).1 = none → (buffer.flush sinks).2.1.pending = []) := by
  have sound : buffer.fault = none := current.sound
  unfold flush
  rw [sound]
  dsimp only
  split
  · next empty =>
      exact ⟨⟨rfl, fun _ _ => rfl,
        ⟨sink, found, .refl sink, current.behind List.prefix_rfl, fun _ => current⟩, fun _ => rfl⟩,
        fun _ => by simpa using empty⟩
  · exact send_outcome found current.kind current.reports sound current.complete small

/-- A flush adds only what comes next. -/
theorem flush_behind {text : Bytes} (found : sinks[buffer.sink]? = some sink)
    (behind : (Writer.buffered buffer).Behind text sink) :
    (buffer.flush sinks).2.1.sink = buffer.sink ∧
      (∀ other, other ≠ buffer.sink → (buffer.flush sinks).2.2[other]? = sinks[other]?) ∧
      ∃ later, (buffer.flush sinks).2.2[buffer.sink]? = some later ∧ sink.Grown later ∧
        (Writer.buffered (buffer.flush sinks).2.1).Behind text later := by
  unfold flush
  split
  · exact ⟨rfl, fun _ _ => rfl, sink, found, .refl sink, behind⟩
  · next sound =>
      split
      · exact ⟨rfl, fun _ _ => rfl, sink, found, .refl sink, behind⟩
      · exact send_behind found behind.kind (behind.next sound)

end BlockBuffer

end StackMachine
