import Mathlib
import StackMachine.Proofs.Output.Parallel

/-!
# Sinks that answer alike

A writer learns nothing from its sinks but their answers.  Take any relation between sinks under
which they answer alike, now and after every write and flush (`Sinks.Mirrors`).  Outputs over
related sinks then report the same, faults included, hold the same, and lead to related sinks
(`Output.Mirrored.write`, `Output.Mirrored.flush`).
-/

namespace StackMachine

namespace Sinks

/-- A relation between sinks that answer alike, whatever is done to both. -/
structure Mirrors (Alike : Sinks → Sinks → Prop) : Prop where
  respond : ∀ {sinks others}, Alike sinks others → ∀ number length,
    respond others number length = respond sinks number length
  write : ∀ {sinks others}, Alike sinks others → ∀ number bytes,
    Alike (write sinks number bytes) (write others number bytes)
  flush_fault : ∀ {sinks others}, Alike sinks others → ∀ number,
    (flush others number).1 = (flush sinks number).1
  flush : ∀ {sinks others}, Alike sinks others → ∀ number,
    Alike (flush sinks number).2 (flush others number).2

/-- Two operations with the same result on sinks that stay alike. -/
def Mirrored (Alike : Sinks → Sinks → Prop) {α β : Type} (first second : α × β × Sinks) : Prop :=
  second.1 = first.1 ∧ second.2.1 = first.2.1 ∧ Alike first.2.2 second.2.2

end Sinks

open Sinks (Mirrors Mirrored)

variable {Alike : Sinks → Sinks → Prop} {sinks others : Sinks} {bytes : Bytes}

/-! ## Blocks -/

namespace BlockBuffer

theorem send_mirrored (mirrors : Mirrors Alike) (alike : Alike sinks others)
    {buffer sent : BlockBuffer} {block : Bytes} {after : Sinks}
    (isSent : buffer.send block sinks = (sent, after)) :
    ∃ otherAfter, buffer.send block others = (sent, otherAfter) ∧ Alike after otherAfter := by
  have written := mirrors.write alike buffer.sink block
  unfold send at isSent ⊢
  rw [mirrors.respond alike]
  dsimp only at isSent ⊢
  cases failed : (sinks.respond buffer.sink block.length).fault with
  | some fault =>
      rw [failed] at isSent
      cases isSent
      exact ⟨_, rfl, written⟩
  | none =>
      rw [failed] at isSent
      dsimp only at isSent ⊢
      split at isSent
      · next short =>
          cases isSent
          exact ⟨_, if_pos short, written⟩
      · next whole =>
          cases isSent
          exact ⟨_, if_neg whole, written⟩

theorem flush_mirrored (mirrors : Mirrors Alike) (alike : Alike sinks others)
    (buffer : BlockBuffer) : Mirrored Alike (buffer.flush sinks) (buffer.flush others) := by
  unfold flush
  split
  · exact ⟨rfl, rfl, alike⟩
  · split
    · exact ⟨rfl, rfl, alike⟩
    · rcases isSent : buffer.send buffer.pending sinks with ⟨sent, after⟩
      obtain ⟨otherAfter, isSentToo, stays⟩ := send_mirrored mirrors alike isSent
      rw [isSentToo]
      exact ⟨rfl, rfl, stays⟩

section Refused

variable {buffer : BlockBuffer} {count : Nat} {fault : WriteFault} (sound : buffer.fault = none)
  (long : ¬ bytes.length ≤ buffer.room)

include sound long

/-- What does not fit fills the block, and a block that is not passed on ends the write. -/
theorem writeText_of_unsent {sent : BlockBuffer} {after : Sinks}
    (isSent : buffer.send (buffer.pending ++ bytes.take buffer.room) sinks = (sent, after))
    (failed : sent.fault = some fault) :
    buffer.writeText count bytes sinks =
      (⟨count + (bytes.take buffer.room).length, some fault⟩, sent, after) := by
  rw [writeText, sound]
  dsimp only
  rw [if_neg long, isSent]
  dsimp only
  rw [failed]

theorem writeBytes_of_unsent {sent : BlockBuffer} {after : Sinks}
    (block : ¬ buffer.pending.isEmpty = true)
    (isSent : buffer.send (buffer.pending ++ bytes.take buffer.room) sinks = (sent, after))
    (failed : sent.fault = some fault) :
    buffer.writeBytes count bytes sinks =
      (⟨count + (bytes.take buffer.room).length, some fault⟩, sent, after) := by
  rw [writeBytes, sound]
  dsimp only
  rw [dif_neg long, dif_neg block, isSent]
  dsimp only
  rw [failed]

/-- What is passed on directly and is refused ends the write. -/
theorem writeBytes_of_refused (direct : buffer.pending.isEmpty = true)
    (refused : (sinks.respond buffer.sink bytes.length).fault = some fault) :
    buffer.writeBytes count bytes sinks =
      (⟨count + (sinks.respond buffer.sink bytes.length).taken, some fault⟩,
        { buffer with fault := some fault }, sinks.write buffer.sink bytes) := by
  rw [writeBytes, sound]
  dsimp only
  rw [dif_neg long, dif_pos direct]
  split
  · next other isOther =>
      rw [refused] at isOther
      cases isOther
      rfl
  · next accepted =>
      rw [refused] at accepted
      cases accepted

end Refused

/-- A text is passed on in the same blocks. -/
theorem writeText_mirrored (mirrors : Mirrors Alike) (alike : Alike sinks others) (count : Nat)
    (bytes : Bytes) (buffer : BlockBuffer) :
    Mirrored Alike (buffer.writeText count bytes sinks) (buffer.writeText count bytes others) := by
  fun_induction writeText count bytes buffer sinks generalizing others with
  | case1 count bytes buffer sinks fault failed =>
      rw [writeText, failed]
      exact ⟨rfl, rfl, alike⟩
  | case2 count bytes buffer sinks sound fits =>
      rw [writeText, sound]
      dsimp only
      rw [if_pos fits]
      exact ⟨rfl, rfl, alike⟩
  | case3 count bytes buffer sinks sound long filled sent after isSent fault =>
      rename_i failed
      obtain ⟨otherAfter, isSentToo, stays⟩ := send_mirrored mirrors alike isSent
      rw [writeText_of_unsent sound long isSentToo failed]
      exact ⟨rfl, rfl, stays⟩
  | case4 count bytes buffer sinks sound long filled sent after isSent sentSound =>
      rename_i ih
      obtain ⟨otherAfter, isSentToo, stays⟩ := send_mirrored mirrors alike isSent
      rw [writeText_of_sent sound long isSentToo sentSound]
      exact ih stays

theorem writeBytes_mirrored (mirrors : Mirrors Alike) (alike : Alike sinks others) (count : Nat)
    (bytes : Bytes) (buffer : BlockBuffer) :
    Mirrored Alike (buffer.writeBytes count bytes sinks)
      (buffer.writeBytes count bytes others) := by
  fun_induction writeBytes count bytes buffer sinks generalizing others with
  | case1 count bytes buffer sinks fault failed =>
      rw [writeBytes, failed]
      exact ⟨rfl, rfl, alike⟩
  | case2 count bytes buffer sinks sound fits =>
      rw [writeBytes, sound]
      dsimp only
      rw [dif_pos fits]
      exact ⟨rfl, rfl, alike⟩
  | case3 count bytes buffer sinks sound long direct =>
      rename_i response written fault refused
      have same := mirrors.respond alike buffer.sink bytes.length
      have refusedToo : (others.respond buffer.sink bytes.length).fault = some fault := by
        rw [same]
        exact refused
      rw [writeBytes_of_refused sound long direct refusedToo, same]
      exact ⟨rfl, rfl, mirrors.write alike buffer.sink bytes⟩
  | case4 count bytes buffer sinks sound long direct =>
      rename_i response written accepted ih
      have same := mirrors.respond alike buffer.sink bytes.length
      have acceptedToo : (others.respond buffer.sink bytes.length).fault = none := by
        rw [same]
        exact accepted
      rw [writeBytes_of_direct sound long direct acceptedToo, same]
      exact ih (mirrors.write alike buffer.sink bytes)
  | case5 count bytes buffer sinks sound long block =>
      rename_i filled sent after isSent fault failed
      obtain ⟨otherAfter, isSentToo, stays⟩ := send_mirrored mirrors alike isSent
      rw [writeBytes_of_unsent sound long block isSentToo failed]
      exact ⟨rfl, rfl, stays⟩
  | case6 count bytes buffer sinks sound long block =>
      rename_i filled sent after isSent sentSound ih
      obtain ⟨otherAfter, isSentToo, stays⟩ := send_mirrored mirrors alike isSent
      rw [writeBytes_of_sent sound long isSentToo block sentSound]
      exact ih stays

end BlockBuffer

/-! ## Writers -/

namespace Writer

variable (writer : Writer)

theorem writeText_mirrored (mirrors : Mirrors Alike) (alike : Alike sinks others) (bytes : Bytes) :
    Mirrored Alike (writer.writeText bytes sinks) (writer.writeText bytes others) := by
  cases writer with
  | discard => exact ⟨rfl, rfl, alike⟩
  | direct number | flushing number =>
      refine ⟨?_, rfl, mirrors.write alike number bytes⟩
      simp only [writeText, writeThrough, mirrors.respond alike]
  | buffered buffer =>
      obtain ⟨written, same, stays⟩ := buffer.writeText_mirrored mirrors alike 0 bytes
      exact ⟨written, congrArg Writer.buffered same, stays⟩

theorem writeBytes_mirrored (mirrors : Mirrors Alike) (alike : Alike sinks others)
    (bytes : Bytes) : Mirrored Alike (writer.writeBytes bytes sinks) (writer.writeBytes bytes others) := by
  cases writer with
  | discard => exact writeText_mirrored .discard mirrors alike bytes
  | direct number => exact writeText_mirrored (.direct number) mirrors alike bytes
  | flushing number => exact writeText_mirrored (.flushing number) mirrors alike bytes
  | buffered buffer =>
      obtain ⟨written, same, stays⟩ := buffer.writeBytes_mirrored mirrors alike 0 bytes
      exact ⟨written, congrArg Writer.buffered same, stays⟩

theorem flush_mirrored (mirrors : Mirrors Alike) (alike : Alike sinks others) :
    Mirrored Alike (writer.flush sinks) (writer.flush others) := by
  cases writer with
  | discard => exact ⟨rfl, rfl, alike⟩
  | direct number => exact ⟨rfl, rfl, alike⟩
  | flushing number => exact ⟨mirrors.flush_fault alike number, rfl, mirrors.flush alike number⟩
  | buffered buffer =>
      obtain ⟨fault, same, stays⟩ := buffer.flush_mirrored mirrors alike
      exact ⟨fault, congrArg Writer.buffered same, stays⟩

end Writer

/-! ## Routes -/

namespace Route

theorem writeAll_mirrored (mirrors : Mirrors Alike) (alike : Alike sinks others) (bytes : Bytes)
    (writers : List Writer) :
    Mirrored Alike (writeAll bytes writers sinks) (writeAll bytes writers others) := by
  induction writers generalizing sinks others with
  | nil => exact ⟨rfl, rfl, alike⟩
  | cons writer rest ih =>
      obtain ⟨written, same, stays⟩ := writer.writeBytes_mirrored mirrors alike bytes
      obtain ⟨writtenAll, sameAll, staysAll⟩ := ih stays
      simp only [writeAll]
      rw [written, same]
      split
      · exact ⟨rfl, rfl, stays⟩
      · split
        · exact ⟨writtenAll, congrArg ((writer.writeBytes bytes sinks).2.1 :: ·) sameAll, staysAll⟩
        · exact ⟨rfl, rfl, stays⟩

theorem flushAll_mirrored (mirrors : Mirrors Alike) (alike : Alike sinks others)
    (writers : List Writer) :
    Mirrored Alike (flushAll writers sinks) (flushAll writers others) := by
  induction writers generalizing sinks others with
  | nil => exact ⟨rfl, rfl, alike⟩
  | cons writer rest ih =>
      obtain ⟨fault, same, stays⟩ := writer.flush_mirrored mirrors alike
      obtain ⟨faultAll, sameAll, staysAll⟩ := ih stays
      simp only [flushAll]
      rw [fault, same, faultAll, sameAll]
      exact ⟨rfl, rfl, staysAll⟩

theorem write_mirrored (mirrors : Mirrors Alike) (alike : Alike sinks others) (bytes : Bytes)
    (route : Route) :
    Mirrored Alike (route.write bytes sinks) (route.write bytes others) := by
  cases route with
  | single writer =>
      obtain ⟨written, same, stays⟩ := writer.writeText_mirrored mirrors alike bytes
      exact ⟨written, congrArg Route.single same, stays⟩
  | tee writers =>
      obtain ⟨written, same, stays⟩ := writeAll_mirrored mirrors alike bytes writers
      exact ⟨written, congrArg Route.tee same, stays⟩

theorem flush_mirrored (mirrors : Mirrors Alike) (alike : Alike sinks others) (route : Route) :
    Mirrored Alike (route.flush sinks) (route.flush others) := by
  cases route with
  | single writer =>
      obtain ⟨fault, same, stays⟩ := writer.flush_mirrored mirrors alike
      exact ⟨fault, congrArg Route.single same, stays⟩
  | tee writers =>
      obtain ⟨fault, same, stays⟩ := flushAll_mirrored mirrors alike writers
      exact ⟨fault, congrArg Route.tee same, stays⟩

end Route

/-! ## Outputs -/

namespace Output

/-- Outputs that go the same way to sinks that are alike. -/
structure Mirrored (Alike : Sinks → Sinks → Prop) (output other : Output) : Prop where
  route : other.route = output.route
  sinks : Alike output.sinks other.sinks

variable {output other : Output}

theorem Mirrored.write (mirrors : Mirrors Alike) (mirrored : Mirrored Alike output other)
    (text : String) :
    (other.write text).1 = (output.write text).1 ∧
      Mirrored Alike (output.write text).2 (other.write text).2 := by
  obtain ⟨written, same, stays⟩ :=
    output.route.write_mirrored mirrors mirrored.sinks (Utf8.encode text)
  unfold Output.write
  rw [mirrored.route]
  exact ⟨written, same, stays⟩

theorem Mirrored.flush (mirrors : Mirrors Alike) (mirrored : Mirrored Alike output other) :
    other.flush.1 = output.flush.1 ∧ Mirrored Alike output.flush.2 other.flush.2 := by
  obtain ⟨fault, same, stays⟩ := output.route.flush_mirrored mirrors mirrored.sinks
  unfold Output.flush
  rw [mirrored.route]
  exact ⟨fault, same, stays⟩

end Output

end StackMachine
