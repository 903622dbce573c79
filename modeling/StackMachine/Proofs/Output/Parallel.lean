import Mathlib
import StackMachine.Proofs.Output.Passing

/-!
# Outputs side by side

Two outputs of the same make undergo the same operations.  As long as neither reports a fault, they
stay alike: their writers hold the same bytes, and their sinks receive the same
(`Output.Parallel.operate`).  What the sinks had received before, and how much room they have left,
does not matter.
-/

namespace StackMachine

variable {before otherBefore : Nat → Bytes}

/-! ## Sinks -/

/-- How many bytes a sink takes of a write that it does not refuse depends on its traits only. -/
theorem Sink.respond_of_traits {sink other : Sink} (same : other.traits = sink.traits)
    {length : Nat} (accepted : (sink.respond length).fault = none)
    (acceptedToo : (other.respond length).fault = none) :
    other.respond length = sink.respond length := by
  obtain ⟨kind, short⟩ : other.kind = sink.kind ∧ other.short = sink.short := Prod.mk.inj same
  unfold respond at accepted acceptedToo ⊢
  rw [kind, short] at acceptedToo ⊢
  cases kind : sink.kind with
  | memory | discard => rfl
  | device | flushing =>
      rw [kind] at accepted acceptedToo
      dsimp only at accepted acceptedToo ⊢
      split at accepted
      · cases accepted
      · next fits =>
          split at acceptedToo
          · cases acceptedToo
          · next fitsToo => rw [if_neg fits, if_neg fitsToo]

namespace Sinks

/-- Sinks of the same make that have received the same after what they had. -/
structure Parallel (before otherBefore : Nat → Bytes) (sinks others : Sinks) : Prop where
  traits : others.traits = sinks.traits
  received : ∀ (number : Nat) (sink other : Sink), sinks[number]? = some sink →
    others[number]? = some other → sink.kind ≠ .discard →
      ∃ added, sink.received.toList = before number ++ added ∧
        other.received.toList = otherBefore number ++ added

namespace Parallel

variable {sinks others after otherAfter : Sinks}

theorem refl (same : others.traits = sinks.traits) :
    Parallel sinks.received others.received sinks others where
  traits := same
  received number sink other found foundToo _ := by
    rw [received_of_found found, received_of_found foundToo]
    exact ⟨[], (List.append_nil _).symm, (List.append_nil _).symm⟩

/-- The same bytes are passed on to both. -/
theorem pass (parallel : Parallel before otherBefore sinks others) {number? : Option Nat}
    {bytes : Bytes} (passed : Passed number? bytes sinks after)
    (passedToo : Passed number? bytes others otherAfter) :
    Parallel before otherBefore after otherAfter where
  traits := passedToo.traits.trans (parallel.traits.trans passed.traits.symm)
  received number later otherLater found foundToo keeps := by
    obtain ⟨sink, isSink, kind, -⟩ := exists_of_traits passed.traits found
    obtain ⟨other, isOther, -⟩ := exists_of_traits passedToo.traits foundToo
    obtain ⟨same, isSame, sameKind, -⟩ := exists_of_traits parallel.traits isOther
    rw [isSink] at isSame
    cases isSame
    rw [kind] at keeps
    obtain ⟨added, received, receivedToo⟩ :=
      parallel.received number sink other isSink isOther keeps
    refine ⟨added ++ if number? = some number then bytes else [], ?_, ?_⟩
    · rw [passed.received number sink later isSink found keeps, received, List.append_assoc]
    · rw [passedToo.received number other otherLater isOther foundToo (sameKind ▸ keeps),
        receivedToo, List.append_assoc]

variable {number length : Nat}

theorem respond (parallel : Parallel before otherBefore sinks others)
    (sound : (sinks.respond number length).fault = none)
    (soundToo : (others.respond number length).fault = none) :
    others.respond number length = sinks.respond number length := by
  cases found : others[number]? with
  | none =>
      cases foundToo : sinks[number]? with
      | none => rw [Sinks.respond, found, Sinks.respond, foundToo]
      | some sink =>
          obtain ⟨_, isFound, -⟩ := exists_of_traits parallel.traits.symm foundToo
          rw [found] at isFound
          cases isFound
  | some other =>
      obtain ⟨sink, isSink, kind, short⟩ := exists_of_traits parallel.traits found
      rw [respond_of_found found] at soundToo ⊢
      rw [respond_of_found isSink] at sound ⊢
      exact Sink.respond_of_traits (Prod.ext kind short) sound soundToo

theorem write (parallel : Parallel before otherBefore sinks others) {bytes : Bytes}
    (sound : (sinks.respond number bytes.length).fault = none)
    (soundToo : (others.respond number bytes.length).fault = none) :
    Parallel before otherBefore (sinks.write number bytes) (others.write number bytes) := by
  have passed := others.write_passed number bytes
  rw [parallel.respond sound soundToo] at passed
  exact parallel.pass (sinks.write_passed number bytes) passed

/-- What the sinks have received since is the same text. -/
theorem appended (parallel : Parallel sinks.received others.received after otherAfter)
    (traits : after.traits = sinks.traits) {sink other : Sink}
    (found : sinks[number]? = some sink) (foundToo : others[number]? = some other)
    (keeps : sink.kind ≠ .discard) :
    ∃ added, after.received? number = some (sink.received.toList ++ added) ∧
      otherAfter.received? number = some (other.received.toList ++ added) := by
  obtain ⟨later, foundLater, kind, -⟩ := exists_of_traits traits.symm found
  obtain ⟨otherLater, foundOther, -⟩ := exists_of_traits parallel.traits.symm foundLater
  obtain ⟨added, received, receivedToo⟩ :=
    parallel.received number later otherLater foundLater foundOther (kind ▸ keeps)
  rw [received_of_found found] at received
  rw [received_of_found foundToo] at receivedToo
  rw [received?_of_found foundLater, received?_of_found foundOther, received, receivedToo]
  exact ⟨added, rfl, rfl⟩

end Parallel

/-- Two operations that have the same result but for the sinks, which stay alike. -/
def Agree (before otherBefore : Nat → Bytes) {α β : Type} (first second : α × β × Sinks) : Prop :=
  second.1 = first.1 ∧ second.2.1 = first.2.1 ∧
    Parallel before otherBefore first.2.2 second.2.2

end Sinks

open Sinks (Parallel Agree)

/-! ## Writers -/

namespace BlockBuffer

variable {buffer : BlockBuffer} {sinks others : Sinks} {bytes : Bytes}

theorem send_parallel {block : Bytes} {sent other : BlockBuffer} {after otherAfter : Sinks}
    (parallel : Parallel before otherBefore sinks others)
    (isSent : buffer.send block sinks = (sent, after)) (sound : sent.fault = none)
    (isSentToo : buffer.send block others = (other, otherAfter)) (soundToo : other.fault = none) :
    other = sent ∧ Parallel before otherBefore after otherAfter := by
  have same := @send_of_sound buffer block sinks
  have sameToo := @send_of_sound buffer block others
  obtain ⟨_, passed, whole⟩ := buffer.send_passed block sinks
  obtain ⟨_, passedToo, wholeToo⟩ := buffer.send_passed block others
  rw [isSent] at same passed whole
  rw [isSentToo] at sameToo passedToo wholeToo
  rw [whole sound] at passed
  rw [wholeToo soundToo] at passedToo
  exact ⟨(sameToo soundToo).trans (same sound).symm, parallel.pass passed passedToo⟩

section Sent

variable {count : Nat} {sent : BlockBuffer} {after : Sinks} (wasSound : buffer.fault = none)
  (long : ¬ bytes.length ≤ buffer.room)
  (isSent : buffer.send (buffer.pending ++ bytes.take buffer.room) sinks = (sent, after))

include wasSound long isSent

theorem sound_of_writeText (sound : (buffer.writeText count bytes sinks).1.fault = none) :
    sent.fault = none := by
  rw [writeText, wasSound] at sound
  dsimp only at sound
  rw [if_neg long, isSent] at sound
  dsimp only at sound
  split at sound
  · cases sound
  · next sentSound => exact sentSound

/-- What does not fit fills the block, and the rest follows if that is passed on. -/
theorem writeText_of_sent (sentSound : sent.fault = none) :
    buffer.writeText count bytes sinks =
      writeText (count + (bytes.take buffer.room).length) (bytes.drop buffer.room)
        { sent with pending := [] } after := by
  rw [writeText, wasSound]
  dsimp only
  rw [if_neg long, isSent]
  dsimp only
  split
  · next failed =>
      rw [sentSound] at failed
      cases failed
  · rfl

omit isSent in
theorem accepted_of_writeBytes (direct : buffer.pending.isEmpty = true)
    (sound : (buffer.writeBytes count bytes sinks).1.fault = none) :
    (sinks.respond buffer.sink bytes.length).fault = none := by
  rw [writeBytes, wasSound] at sound
  dsimp only at sound
  rw [dif_neg long, dif_pos direct] at sound
  split at sound
  · cases sound
  · next accepted => exact accepted

omit isSent in
/-- What does not fit is passed on directly if the block is empty. -/
theorem writeBytes_of_direct (direct : buffer.pending.isEmpty = true)
    (accepted : (sinks.respond buffer.sink bytes.length).fault = none) :
    buffer.writeBytes count bytes sinks =
      writeBytes (count + (sinks.respond buffer.sink bytes.length).taken)
        (bytes.drop (sinks.respond buffer.sink bytes.length).taken) buffer
        (sinks.write buffer.sink bytes) := by
  rw [writeBytes, wasSound]
  dsimp only
  rw [dif_neg long, dif_pos direct]
  split
  · next refused =>
      rw [accepted] at refused
      cases refused
  · rfl

section Block

variable (block : ¬ buffer.pending.isEmpty = true)
include block

theorem sound_of_writeBytes (sound : (buffer.writeBytes count bytes sinks).1.fault = none) :
    sent.fault = none := by
  rw [writeBytes, wasSound] at sound
  dsimp only at sound
  rw [dif_neg long, dif_neg block, isSent] at sound
  dsimp only at sound
  split at sound
  · cases sound
  · next sentSound => exact sentSound

theorem writeBytes_of_sent (sentSound : sent.fault = none) :
    buffer.writeBytes count bytes sinks =
      writeBytes (count + (bytes.take buffer.room).length) (bytes.drop buffer.room)
        { sent with pending := [] } after := by
  rw [writeBytes, wasSound]
  dsimp only
  rw [dif_neg long, dif_neg block, isSent]
  dsimp only
  split
  · next failed =>
      rw [sentSound] at failed
      cases failed
  · rfl

end Block

end Sent

theorem writeText_agree {count : Nat} (parallel : Parallel before otherBefore sinks others)
    (sound : (buffer.writeText count bytes sinks).1.fault = none)
    (soundToo : (buffer.writeText count bytes others).1.fault = none) :
    Agree before otherBefore (buffer.writeText count bytes sinks)
      (buffer.writeText count bytes others) := by
  fun_induction writeText count bytes buffer sinks generalizing others with
  | case1 => cases sound
  | case2 count bytes buffer sinks wasSound fits =>
      rw [writeText, wasSound]
      dsimp only
      rw [if_pos fits]
      exact ⟨rfl, rfl, parallel⟩
  | case3 => cases sound
  | case4 count bytes buffer sinks wasSound long filled sent after isSent sentSound =>
      rename_i ih
      rcases isSentToo : buffer.send (buffer.pending ++ filled) others with ⟨other, otherAfter⟩
      have faultToo := sound_of_writeText wasSound long isSentToo soundToo
      rw [writeText_of_sent wasSound long isSentToo faultToo] at soundToo ⊢
      obtain ⟨rfl, stays⟩ := send_parallel parallel isSent sentSound isSentToo faultToo
      exact ih stays sound soundToo

theorem writeBytes_agree {count : Nat} (parallel : Parallel before otherBefore sinks others)
    (sound : (buffer.writeBytes count bytes sinks).1.fault = none)
    (soundToo : (buffer.writeBytes count bytes others).1.fault = none) :
    Agree before otherBefore (buffer.writeBytes count bytes sinks)
      (buffer.writeBytes count bytes others) := by
  fun_induction writeBytes count bytes buffer sinks generalizing others with
  | case1 => cases sound
  | case2 count bytes buffer sinks wasSound fits =>
      rw [writeBytes, wasSound]
      dsimp only
      rw [dif_pos fits]
      exact ⟨rfl, rfl, parallel⟩
  | case3 => cases sound
  | case4 count bytes buffer sinks wasSound long direct =>
      rename_i response written accepted ih
      have acceptedToo := accepted_of_writeBytes wasSound long direct soundToo
      rw [writeBytes_of_direct wasSound long direct acceptedToo,
        parallel.respond accepted acceptedToo] at soundToo ⊢
      exact ih (parallel.write accepted acceptedToo) sound soundToo
  | case5 => cases sound
  | case6 count bytes buffer sinks wasSound long block =>
      rename_i filled sent after isSent sentSound ih
      rcases isSentToo : buffer.send (buffer.pending ++ filled) others with ⟨other, otherAfter⟩
      have faultToo := sound_of_writeBytes wasSound long isSentToo block soundToo
      rw [writeBytes_of_sent wasSound long isSentToo block faultToo] at soundToo ⊢
      obtain ⟨rfl, stays⟩ := send_parallel parallel isSent sentSound isSentToo faultToo
      exact ih stays sound soundToo

end BlockBuffer

namespace Writer

variable {writer : Writer} {sinks others : Sinks} {bytes : Bytes}

theorem writeThrough_agree (parallel : Parallel before otherBefore sinks others) {number : Nat}
    (sound : (sinks.respond number bytes.length).fault = none)
    (soundToo : (others.respond number bytes.length).fault = none) :
    Agree before otherBefore
      ((writeThrough number bytes sinks).1, writer, (writeThrough number bytes sinks).2)
      ((writeThrough number bytes others).1, writer, (writeThrough number bytes others).2) := by
  refine ⟨?_, rfl, parallel.write sound soundToo⟩
  dsimp only [writeThrough]
  rw [parallel.respond sound soundToo]

theorem writeText_agree (parallel : Parallel before otherBefore sinks others)
    (sound : (writer.writeText bytes sinks).1.fault = none)
    (soundToo : (writer.writeText bytes others).1.fault = none) :
    Agree before otherBefore (writer.writeText bytes sinks) (writer.writeText bytes others) := by
  cases writer with
  | discard => exact ⟨rfl, rfl, parallel⟩
  | direct number => exact writeThrough_agree parallel sound soundToo
  | flushing number => exact writeThrough_agree parallel sound soundToo
  | buffered buffer =>
      obtain ⟨written, same, stays⟩ := buffer.writeText_agree parallel sound soundToo
      exact ⟨written, congrArg Writer.buffered same, stays⟩

theorem writeBytes_agree (parallel : Parallel before otherBefore sinks others)
    (sound : (writer.writeBytes bytes sinks).1.fault = none)
    (soundToo : (writer.writeBytes bytes others).1.fault = none) :
    Agree before otherBefore (writer.writeBytes bytes sinks) (writer.writeBytes bytes others) := by
  cases writer with
  | discard => exact ⟨rfl, rfl, parallel⟩
  | direct number => exact writeThrough_agree parallel sound soundToo
  | flushing number => exact writeThrough_agree parallel sound soundToo
  | buffered buffer =>
      obtain ⟨written, same, stays⟩ := buffer.writeBytes_agree parallel sound soundToo
      exact ⟨written, congrArg Writer.buffered same, stays⟩

theorem flush_agree (parallel : Parallel before otherBefore sinks others)
    (sound : (writer.flush sinks).1 = none) (soundToo : (writer.flush others).1 = none) :
    Agree before otherBefore (writer.flush sinks) (writer.flush others) := by
  have same := flush_of_sound sound
  have sameToo := flush_of_sound soundToo
  obtain ⟨passed, isPassed, whole⟩ := writer.flush_passed sinks
  obtain ⟨passedToo, isPassedToo, wholeToo⟩ := writer.flush_passed others
  rw [same, writer.held_emptied, List.append_nil] at whole
  rw [sameToo, writer.held_emptied, List.append_nil] at wholeToo
  rw [whole sound] at isPassed
  rw [wholeToo soundToo] at isPassedToo
  exact ⟨soundToo.trans sound.symm, sameToo.trans same.symm, parallel.pass isPassed isPassedToo⟩

end Writer

namespace Route

variable {writers : List Writer} {sinks others : Sinks} {bytes : Bytes}

theorem writeAll_agree (parallel : Parallel before otherBefore sinks others)
    (sound : (writeAll bytes writers sinks).1.fault = none)
    (soundToo : (writeAll bytes writers others).1.fault = none) :
    Agree before otherBefore (writeAll bytes writers sinks) (writeAll bytes writers others) := by
  induction writers generalizing sinks others with
  | nil => exact ⟨rfl, rfl, parallel⟩
  | cons writer rest ih =>
      obtain ⟨first, -, wrote⟩ := writeAll_cons_of_sound sound
      obtain ⟨firstToo, -, wroteToo⟩ := writeAll_cons_of_sound soundToo
      rw [wrote] at sound ⊢
      rw [wroteToo] at soundToo ⊢
      obtain ⟨-, same, stays⟩ := writer.writeBytes_agree parallel first firstToo
      obtain ⟨written, sames, stay⟩ := ih stays sound soundToo
      refine ⟨written, ?_, stay⟩
      dsimp only
      rw [same, sames]

theorem flushAll_agree (parallel : Parallel before otherBefore sinks others)
    (sound : (flushAll writers sinks).1 = none) (soundToo : (flushAll writers others).1 = none) :
    Agree before otherBefore (flushAll writers sinks) (flushAll writers others) := by
  induction writers generalizing sinks others with
  | nil => exact ⟨rfl, rfl, parallel⟩
  | cons writer rest ih =>
      rw [flushAll_cons] at sound soundToo ⊢
      rw [flushAll_cons]
      obtain ⟨first, others⟩ := Option.or_eq_none_iff.mp sound
      obtain ⟨firstToo, othersToo⟩ := Option.or_eq_none_iff.mp soundToo
      obtain ⟨fault, same, stays⟩ := Writer.flush_agree parallel first firstToo
      obtain ⟨faults, sames, stay⟩ := ih stays others othersToo
      refine ⟨?_, ?_, stay⟩
      · dsimp only
        rw [fault, faults]
      · dsimp only
        rw [same, sames]

end Route

/-! ## Outputs -/

namespace Output

/-- Outputs of the same make whose sinks have received the same after what they had. -/
structure Parallel (before otherBefore : Nat → Bytes) (output other : Output) : Prop where
  route : other.route = output.route
  sinks : Sinks.Parallel before otherBefore output.sinks other.sinks

namespace Parallel

variable {output other last otherLast : Output}

theorem apply (parallel : Parallel before otherBefore output other) {operation : Operation}
    (sound : (output.apply operation).1 = none) (soundToo : (other.apply operation).1 = none) :
    Parallel before otherBefore (output.apply operation).2 (other.apply operation).2 := by
  obtain ⟨route, sinks⟩ := output
  obtain ⟨otherRoute, others⟩ := other
  obtain ⟨same, parallel⟩ := parallel
  cases show otherRoute = route from same
  cases operation with
  | write text =>
      cases route with
      | single writer =>
          obtain ⟨-, same, stays⟩ := writer.writeText_agree parallel sound soundToo
          exact ⟨congrArg Route.single same, stays⟩
      | tee writers =>
          obtain ⟨-, same, stays⟩ := Route.writeAll_agree parallel sound soundToo
          exact ⟨congrArg Route.tee same, stays⟩
  | flush =>
      cases route with
      | single writer =>
          obtain ⟨-, same, stays⟩ := writer.flush_agree parallel sound soundToo
          exact ⟨congrArg Route.single same, stays⟩
      | tee writers =>
          obtain ⟨-, same, stays⟩ := Route.flushAll_agree parallel sound soundToo
          exact ⟨congrArg Route.tee same, stays⟩

/-- Outputs side by side stay alike through the same operations, if no fault is reported. -/
theorem operate (parallel : Parallel before otherBefore output other)
    {operations : List Operation} (sound : output.operate operations = (none, last))
    (soundToo : other.operate operations = (none, otherLast)) :
    Parallel before otherBefore last otherLast := by
  induction operations generalizing output other with
  | nil =>
      cases sound
      cases soundToo
      exact parallel
  | cons operation rest ih =>
      obtain ⟨between, applied, goesOn⟩ := (operate_cons_eq_none_iff ..).mp sound
      obtain ⟨otherBetween, appliedToo, goesOnToo⟩ := (operate_cons_eq_none_iff ..).mp soundToo
      have stays := @apply before otherBefore output other parallel operation
      rw [applied, appliedToo] at stays
      exact ih (stays rfl rfl) goesOn goesOnToo

end Parallel

/-! ## Operations that end with a flush -/

variable {output other last otherLast : Output} {operations : List Operation}

/-- A flush passes nothing on if no writer has anything to pass on. -/
theorem Rests.flush_contents (rests : output.Rests) :
    output.flush.2.sinks.contents = output.sinks.contents := by
  apply flush_contents_of_writers
  intro writer isWriter sinks
  rcases rests writer isWriter with idle | failed
  · apply Writer.flush_contents
    rw [← idle, writer.held_emptied]
  · obtain ⟨fault, isFault⟩ := Option.isSome_iff_exists.mp failed
    rw [Writer.flush_of_failed isFault]

theorem Rests.operate (rests : output.Rests) (complete : Complete operations)
    (sound : output.operate operations = (none, last)) : last.Rests := by
  rcases operations.eq_nil_or_concat with rfl | ⟨front, operation, rfl⟩
  · cases sound
    exact rests
  · rw [List.concat_eq_append] at complete sound
    cases complete operation (by simp)
    obtain ⟨between, -, flushes⟩ := (operate_append_eq_none_iff ..).mp sound
    obtain ⟨final, applied, ends⟩ := (operate_cons_eq_none_iff ..).mp flushes
    cases ends
    have same : between.flush.2 = last := congrArg Prod.snd applied
    rw [← same]
    exact between.flush_rests

theorem Rests.flush_passed (rests : output.Rests) :
    Sinks.Passed none [] output.sinks output.flush.2.sinks where
  traits := output.traits_apply .flush
  received number sink later found foundLater _ := by
    obtain ⟨_, foundSame, same⟩ := Sinks.exists_of_contents rests.flush_contents found
    rw [foundLater] at foundSame
    cases foundSame
    rw [(Sink.grown_of_content same).2]
    simp

/-- Sinks of the same make receive the same through the same operations, whatever the first output
has gone through before, if no fault is reported. -/
theorem Rests.parallel (rests : output.Rests) (complete : Complete operations)
    (route : other.route = output.route.emptied)
    (traits : other.sinks.traits = output.sinks.traits)
    (sound : output.operate operations = (none, last))
    (soundToo : other.operate operations = (none, otherLast)) :
    Sinks.Parallel output.sinks.received other.sinks.received last.sinks otherLast.sinks := by
  rcases operations.eq_nil_or_concat with rfl | ⟨front, operation, rfl⟩
  · cases sound
    cases soundToo
    exact .refl traits
  · -- a writer that had failed before would be reported by the last operation
    have notFailed : ¬ output.HasFailed := by
      intro failed
      rw [List.concat_eq_append] at complete sound
      cases complete operation (by simp)
      exact failed.operate front (congrArg Prod.fst sound)
    have same : output.Parallel output.sinks.received other.sinks.received other :=
      ⟨route.trans (rests.idle notFailed), .refl traits⟩
    exact (same.operate sound soundToo).sinks

end Output

end StackMachine
