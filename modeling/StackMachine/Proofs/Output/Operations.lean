import Mathlib
import StackMachine.Proofs.Output.Delivery

/-!
# Operations on an output

A program does two things to its output: it writes a text, and it flushes.  An operation that
reports nothing leaves the route as it was, but for what the writers of blocks hold, and after a
flush they hold nothing (`Output.operate_route`).  So between two instructions a route is as it
was when the machine was made, unless the output has failed.  The failure of a writer of blocks is
final: every flush after it reports a fault.
-/

namespace StackMachine

/-! ## Routes that hold nothing -/

namespace BlockBuffer

variable {buffer : BlockBuffer}

theorem sink_send (block : Bytes) (sinks : Sinks) :
    (buffer.send block sinks).1.sink = buffer.sink := by
  unfold send
  dsimp only
  split
  · rfl
  · split <;> rfl

/-- A block that is passed on without a failure leaves an empty one. -/
theorem send_of_sound {block : Bytes} {sinks : Sinks}
    (sound : (buffer.send block sinks).1.fault = none) :
    (buffer.send block sinks).1 = { sink := buffer.sink } := by
  unfold send at sound ⊢
  dsimp only at sound ⊢
  split
  · next failed =>
      rw [failed] at sound
      cases sound
  · next accepted =>
      rw [accepted] at sound
      dsimp only at sound
      split
      · next tooFew =>
          rw [if_pos tooFew] at sound
          cases sound
      · next enough =>
          rw [if_neg enough] at sound
          dsimp only at sound
          rw [sound]

theorem sink_writeText (count : Nat) (bytes : Bytes) (sinks : Sinks) :
    (buffer.writeText count bytes sinks).2.1.sink = buffer.sink := by
  fun_induction writeText count bytes buffer sinks with
  | case1 | case2 => rfl
  | case3 count bytes buffer sinks sound long filled sent after isSent =>
      have same := buffer.sink_send (buffer.pending ++ filled) sinks
      rw [isSent] at same
      exact same
  | case4 count bytes buffer sinks sound long filled sent after isSent sentSound =>
      rename_i ih
      have same := buffer.sink_send (buffer.pending ++ filled) sinks
      rw [isSent] at same
      exact ih.trans same

theorem sink_writeBytes (count : Nat) (bytes : Bytes) (sinks : Sinks) :
    (buffer.writeBytes count bytes sinks).2.1.sink = buffer.sink := by
  fun_induction writeBytes count bytes buffer sinks with
  | case1 | case2 | case3 => rfl
  | case4 =>
      rename_i ih
      exact ih
  | case5 count bytes buffer sinks sound long block =>
      rename_i filled sent after isSent fault failed
      have same := buffer.sink_send (buffer.pending ++ filled) sinks
      rw [isSent] at same
      exact same
  | case6 count bytes buffer sinks sound long block =>
      rename_i filled sent after isSent sentSound ih
      have same := buffer.sink_send (buffer.pending ++ filled) sinks
      rw [isSent] at same
      exact ih.trans same

theorem sink_flush (sinks : Sinks) : (buffer.flush sinks).2.1.sink = buffer.sink := by
  unfold flush
  split
  · rfl
  · split
    · rfl
    · exact buffer.sink_send buffer.pending sinks

theorem flush_of_sound {sinks : Sinks} (sound : (buffer.flush sinks).1 = none) :
    (buffer.flush sinks).2.1 = { sink := buffer.sink } := by
  unfold flush at sound ⊢
  split
  · next failed =>
      rw [failed] at sound
      cases sound
  · next wasSound =>
      rw [wasSound] at sound
      dsimp only at sound ⊢
      split
      · next empty =>
          obtain ⟨sink, pending, fault⟩ := buffer
          cases wasSound
          cases List.isEmpty_iff.mp empty
          rfl
      · next filled =>
          rw [if_neg filled] at sound
          exact send_of_sound sound

end BlockBuffer

namespace Writer

/-- A writer to the same sink that holds nothing and has not failed. -/
def emptied : Writer → Writer
  | .buffered buffer => .buffered { sink := buffer.sink }
  | writer => writer

variable (writer : Writer) (bytes : Bytes) (sinks : Sinks)

theorem held_emptied : writer.emptied.held = [] := by
  cases writer <;> rfl

theorem kind_emptied : writer.emptied.kind = writer.kind := by
  cases writer <;> rfl

theorem sink?_emptied : writer.emptied.sink? = writer.sink? := by
  cases writer <;> rfl

@[simp]
theorem emptied_writeText : (writer.writeText bytes sinks).2.1.emptied = writer.emptied := by
  cases writer with
  | discard | direct | flushing => rfl
  | buffered buffer => simp only [writeText, emptied, BlockBuffer.sink_writeText]

@[simp]
theorem emptied_writeBytes : (writer.writeBytes bytes sinks).2.1.emptied = writer.emptied := by
  cases writer with
  | discard | direct | flushing => rfl
  | buffered buffer => simp only [writeBytes, emptied, BlockBuffer.sink_writeBytes]

@[simp]
theorem emptied_flush : (writer.flush sinks).2.1.emptied = writer.emptied := by
  cases writer with
  | discard | direct | flushing => rfl
  | buffered buffer => simp only [flush, emptied, BlockBuffer.sink_flush]

variable {writer sinks}

theorem flush_of_sound (sound : (writer.flush sinks).1 = none) :
    (writer.flush sinks).2.1 = writer.emptied := by
  cases writer with
  | discard | direct | flushing => rfl
  | buffered buffer => exact congrArg buffered (BlockBuffer.flush_of_sound sound)

end Writer

namespace Route

/-- The route with writers that hold nothing and have not failed. -/
def emptied : Route → Route
  | .single writer => .single writer.emptied
  | .tee writers => .tee (writers.map Writer.emptied)

theorem writers_emptied (route : Route) :
    route.emptied.writers = route.writers.map Writer.emptied := by
  cases route <;> rfl

theorem emptied_eq_iff (route : Route) :
    route.emptied = route ↔ ∀ writer ∈ route.writers, writer.emptied = writer := by
  cases route with
  | single writer => simp [emptied, writers]
  | tee writers =>
      have each := @List.map_inj_left _ _ writers Writer.emptied id
      rw [List.map_id] at each
      exact Route.tee.injEq .. ▸ each

theorem map_emptied_writeAll (bytes : Bytes) (writers : List Writer) (sinks : Sinks) :
    (writeAll bytes writers sinks).2.1.map Writer.emptied = writers.map Writer.emptied := by
  induction writers generalizing sinks with
  | nil => rfl
  | cons writer rest ih =>
      have same := writer.emptied_writeBytes bytes sinks
      rw [writeAll]
      rcases wrote : writer.writeBytes bytes sinks with ⟨⟨count, fault⟩, next, between⟩
      rw [wrote] at same
      dsimp only at same ⊢
      cases fault with
      | some fault => rw [List.map_cons, List.map_cons, same]
      | none =>
          dsimp only
          split
          · rw [List.map_cons, List.map_cons, same, ih]
          · rw [List.map_cons, List.map_cons, same]

/-- A write to all writers that reports nothing is a whole write to each of them in turn. -/
theorem writeAll_cons_of_sound {bytes : Bytes} {writer : Writer} {rest : List Writer}
    {sinks : Sinks} (sound : (writeAll bytes (writer :: rest) sinks).1.fault = none) :
    let wrote := writer.writeBytes bytes sinks
    let later := writeAll bytes rest wrote.2.2
    wrote.1.fault = none ∧ wrote.1.count = bytes.length ∧
      writeAll bytes (writer :: rest) sinks = (later.1, wrote.2.1 :: later.2.1, later.2.2) := by
  rw [writeAll] at sound ⊢
  revert sound
  rcases writer.writeBytes bytes sinks with ⟨⟨count, fault⟩, next, after⟩
  dsimp only
  cases fault with
  | some fault => rintro ⟨⟩
  | none =>
      dsimp only
      split
      · next all => exact fun _ => ⟨rfl, all, rfl⟩
      · rintro ⟨⟩

theorem flushAll_cons (writer : Writer) (rest : List Writer) (sinks : Sinks) :
    flushAll (writer :: rest) sinks =
      ((writer.flush sinks).1.or (flushAll rest (writer.flush sinks).2.2).1,
        (writer.flush sinks).2.1 :: (flushAll rest (writer.flush sinks).2.2).2.1,
        (flushAll rest (writer.flush sinks).2.2).2.2) :=
  rfl

theorem map_emptied_flushAll (writers : List Writer) (sinks : Sinks) :
    (flushAll writers sinks).2.1.map Writer.emptied = writers.map Writer.emptied := by
  induction writers generalizing sinks with
  | nil => rfl
  | cons writer rest ih =>
      rw [flushAll_cons, List.map_cons, List.map_cons, ih, writer.emptied_flush]

theorem flushAll_of_sound {writers : List Writer} {sinks : Sinks}
    (sound : (flushAll writers sinks).1 = none) :
    (flushAll writers sinks).2.1 = writers.map Writer.emptied := by
  induction writers generalizing sinks with
  | nil => rfl
  | cons writer rest ih =>
      rw [flushAll_cons, Option.or_eq_none_iff] at sound
      rw [flushAll_cons, List.map_cons, ih sound.2, Writer.flush_of_sound sound.1]

end Route

/-! ## Operations -/

namespace Output

/-- What a program does to its output. -/
inductive Operation where
  | write (text : String)
  | flush
  deriving DecidableEq, Repr

/-- The text that an operation writes. -/
def Operation.text : Operation → String
  | .write text => text
  | .flush => ""

/-- The text that operations write. -/
def printed (operations : List Operation) : String :=
  String.join (operations.map Operation.text)

/-- Nothing has been written since the last flush. -/
def Complete (operations : List Operation) : Prop :=
  ∀ operation ∈ operations.getLast?, operation = .flush

/-- Carries out an operation. -/
def apply (output : Output) : Operation → Option WriteFault × Output
  | .write text => ((output.write text).1.fault, (output.write text).2)
  | .flush => output.flush

/-- Carries out operations one after the other, up to the first that reports a fault. -/
def operate : List Operation → Output → Option WriteFault × Output
  | [], output => (none, output)
  | operation :: rest, output =>
      match output.apply operation with
      | (none, after) => operate rest after
      | (some fault, after) => (some fault, after)

theorem printed_append (front back : List Operation) :
    printed (front ++ back) = printed front ++ printed back := by
  rw [printed, List.map_append, String.join_append]
  rfl

theorem complete_nil : Complete [] := by
  rintro operation ⟨⟩

theorem complete_concat_flush (front : List Operation) : Complete (front ++ [.flush]) := by
  rw [Complete, List.getLast?_concat]
  rintro operation ⟨⟩
  rfl

theorem Complete.append {front back : List Operation} (first : Complete front)
    (second : Complete back) : Complete (front ++ back) := by
  rw [Complete, List.getLast?_append]
  intro operation isLast
  cases last : back.getLast? with
  | some final =>
      rw [last] at isLast
      cases isLast
      exact second _ last
  | none =>
      rw [last] at isLast
      exact first _ isLast

theorem operate_cons_eq_none_iff (operation : Operation) (rest : List Operation)
    (output last : Output) :
    output.operate (operation :: rest) = (none, last) ↔
      ∃ after, output.apply operation = (none, after) ∧ after.operate rest = (none, last) := by
  rw [operate]
  rcases output.apply operation with ⟨_ | fault, after⟩ <;> simp

theorem operate_append_of_none {front : List Operation} {output after : Output}
    (sound : output.operate front = (none, after)) (back : List Operation) :
    output.operate (front ++ back) = after.operate back := by
  induction front generalizing output with
  | nil =>
      cases sound
      rfl
  | cons operation rest ih =>
      obtain ⟨next, applied, goesOn⟩ := (operate_cons_eq_none_iff ..).mp sound
      rw [List.cons_append, operate, applied]
      exact ih goesOn

theorem operate_append_of_some {front : List Operation} {output last : Output} {fault : WriteFault}
    (failed : output.operate front = (some fault, last)) (back : List Operation) :
    output.operate (front ++ back) = (some fault, last) := by
  induction front generalizing output with
  | nil => cases failed
  | cons operation rest ih =>
      rw [operate] at failed
      rw [List.cons_append, operate]
      revert failed
      rcases output.apply operation with ⟨_ | found, next⟩
      · exact ih
      · exact id

theorem operate_append_eq_none_iff (front back : List Operation) (output last : Output) :
    output.operate (front ++ back) = (none, last) ↔
      ∃ after, output.operate front = (none, after) ∧ after.operate back = (none, last) := by
  rcases done : output.operate front with ⟨_ | fault, after⟩
  · rw [operate_append_of_none done]
    simp
  · rw [operate_append_of_some done]
    simp

/-- What each operation keeps is kept by operations one after the other, whatever they report. -/
theorem operate_induction {Holds : Output → Prop}
    (kept : ∀ output operation, Holds output → Holds (output.apply operation).2)
    (operations : List Operation) {output : Output} (first : Holds output) :
    Holds (output.operate operations).2 := by
  induction operations generalizing output with
  | nil => exact first
  | cons operation rest ih =>
      have next := kept output operation first
      rw [operate]
      revert next
      rcases output.apply operation with ⟨_ | fault, after⟩
      · exact ih
      · exact id

variable {output last : Output}

theorem emptied_apply (output : Output) (operation : Operation) :
    (output.apply operation).2.route.emptied = output.route.emptied := by
  obtain ⟨route, sinks⟩ := output
  cases operation with
  | write text =>
      cases route with
      | single writer => exact congrArg Route.single (writer.emptied_writeText _ sinks)
      | tee writers => exact congrArg Route.tee (Route.map_emptied_writeAll _ writers sinks)
  | flush =>
      cases route with
      | single writer => exact congrArg Route.single (writer.emptied_flush sinks)
      | tee writers => exact congrArg Route.tee (Route.map_emptied_flushAll writers sinks)

theorem flush_of_sound (sound : output.flush.1 = none) :
    output.flush.2.route = output.route.emptied := by
  obtain ⟨route, sinks⟩ := output
  cases route with
  | single writer => exact congrArg Route.single (Writer.flush_of_sound sound)
  | tee writers => exact congrArg Route.tee (Route.flushAll_of_sound sound)

end Output

/-! ## Failures that stay -/

namespace Writer

variable {writer : Writer} {fault : WriteFault}

theorem writeText_of_failed (failed : writer.fault? = some fault) (bytes : Bytes) (sinks : Sinks) :
    writer.writeText bytes sinks = (⟨0, some fault⟩, writer, sinks) := by
  cases writer with
  | discard | direct | flushing => cases failed
  | buffered buffer =>
      have isFailed : buffer.fault = some fault := failed
      rw [writeText, BlockBuffer.writeText, isFailed]

theorem writeBytes_of_failed (failed : writer.fault? = some fault) (bytes : Bytes)
    (sinks : Sinks) : writer.writeBytes bytes sinks = (⟨0, some fault⟩, writer, sinks) := by
  cases writer with
  | discard | direct | flushing => cases failed
  | buffered buffer =>
      have isFailed : buffer.fault = some fault := failed
      rw [writeBytes, BlockBuffer.writeBytes, isFailed]

theorem flush_of_failed (failed : writer.fault? = some fault) (sinks : Sinks) :
    writer.flush sinks = (some fault, writer, sinks) := by
  cases writer with
  | discard | direct | flushing => cases failed
  | buffered buffer =>
      have isFailed : buffer.fault = some fault := failed
      rw [flush, BlockBuffer.flush, isFailed]

/-- A writer that has nothing to pass on: it is as it was made, or it has failed for good. -/
def Rests (writer : Writer) : Prop := writer.emptied = writer ∨ writer.fault?.isSome = true

theorem flush_rests (writer : Writer) (sinks : Sinks) : (writer.flush sinks).2.1.Rests := by
  cases writer with
  | discard | direct | flushing => exact .inl rfl
  | buffered buffer =>
      cases reported : (buffer.flush sinks).1 with
      | none =>
          left
          have sound : (Writer.flush (.buffered buffer) sinks).1 = none := reported
          rw [flush_of_sound sound]
          rfl
      | some fault =>
          right
          change (buffer.flush sinks).2.1.fault.isSome = true
          unfold BlockBuffer.flush at reported ⊢
          split
          · next failed => rw [failed]; rfl
          · next wasSound =>
              rw [wasSound] at reported
              dsimp only at reported ⊢
              split
              · next empty =>
                  rw [if_pos empty] at reported
                  cases reported
              · next filled =>
                  rw [if_neg filled] at reported
                  exact Option.isSome_of_eq_some reported

end Writer

namespace Route

/-- Some writer has failed for good. -/
def HasFailed (writers : List Writer) : Prop := ∃ writer ∈ writers, writer.fault?.isSome = true

theorem hasFailed_cons_iff (writer : Writer) (rest : List Writer) :
    HasFailed (writer :: rest) ↔ writer.fault?.isSome = true ∨ HasFailed rest := by
  simp [HasFailed]

theorem hasFailed_writeAll {writers : List Writer} (failed : HasFailed writers) (bytes : Bytes)
    (sinks : Sinks) : HasFailed (writeAll bytes writers sinks).2.1 := by
  induction writers generalizing sinks with
  | nil => exact failed
  | cons writer rest ih =>
      rw [hasFailed_cons_iff] at failed
      rw [writeAll]
      rcases failed with own | later
      · obtain ⟨fault, isFault⟩ := Option.isSome_iff_exists.mp own
        rw [Writer.writeBytes_of_failed isFault]
        exact (hasFailed_cons_iff writer rest).mpr (.inl own)
      · rcases writer.writeBytes bytes sinks with ⟨⟨count, _ | fault⟩, next, between⟩
        · dsimp only
          split
          · exact (hasFailed_cons_iff next _).mpr (.inr (ih later between))
          · exact (hasFailed_cons_iff next rest).mpr (.inr later)
        · exact (hasFailed_cons_iff next rest).mpr (.inr later)

theorem hasFailed_flushAll {writers : List Writer} (failed : HasFailed writers) (sinks : Sinks) :
    HasFailed (flushAll writers sinks).2.1 ∧ (flushAll writers sinks).1 ≠ none := by
  induction writers generalizing sinks with
  | nil =>
      obtain ⟨writer, isWriter, -⟩ := failed
      cases isWriter
  | cons writer rest ih =>
      rw [hasFailed_cons_iff] at failed
      rw [flushAll_cons, hasFailed_cons_iff, Ne, Option.or_eq_none_iff]
      rcases failed with own | later
      · obtain ⟨fault, isFault⟩ := Option.isSome_iff_exists.mp own
        rw [Writer.flush_of_failed isFault]
        refine ⟨.inl own, ?_⟩
        rintro ⟨⟨⟩, -⟩
      · obtain ⟨stays, reported⟩ := ih later (writer.flush sinks).2.2
        exact ⟨.inr stays, fun nothing => reported nothing.2⟩

theorem flushAll_rests (writers : List Writer) (sinks : Sinks) :
    ∀ writer ∈ (flushAll writers sinks).2.1, writer.Rests := by
  induction writers generalizing sinks with
  | nil => exact List.forall_mem_nil _
  | cons writer rest ih =>
      rw [flushAll_cons]
      exact List.forall_mem_cons.mpr ⟨writer.flush_rests sinks, ih (writer.flush sinks).2.2⟩

end Route

namespace Output

variable {output : Output}

/-- Some writer of the output has failed for good. -/
def HasFailed (output : Output) : Prop := Route.HasFailed output.route.writers

theorem HasFailed.apply (failed : output.HasFailed) (operation : Operation) :
    (output.apply operation).2.HasFailed := by
  obtain ⟨route, sinks⟩ := output
  cases route with
  | single writer =>
      obtain ⟨own, isWriter, isFailed⟩ := failed
      cases List.mem_singleton.mp isWriter
      obtain ⟨fault, isFault⟩ := Option.isSome_iff_exists.mp isFailed
      have stays : HasFailed ⟨.single writer, sinks⟩ := ⟨writer, isWriter, isFailed⟩
      cases operation with
      | write text =>
          simp only [Output.apply, write, Route.write, Writer.writeText_of_failed isFault]
          exact stays
      | flush =>
          simp only [Output.apply, flush, Route.flush, Writer.flush_of_failed isFault]
          exact stays
  | tee writers =>
      cases operation with
      | write text => exact Route.hasFailed_writeAll failed (Utf8.encode text) sinks
      | flush => exact (Route.hasFailed_flushAll failed sinks).1

theorem HasFailed.flush (failed : output.HasFailed) : output.flush.1 ≠ none := by
  obtain ⟨route, sinks⟩ := output
  cases route with
  | single writer =>
      obtain ⟨own, isWriter, isFailed⟩ := failed
      cases List.mem_singleton.mp isWriter
      obtain ⟨fault, isFault⟩ := Option.isSome_iff_exists.mp isFailed
      simp only [Output.flush, Route.flush, Writer.flush_of_failed isFault]
      rintro ⟨⟩
  | tee writers => exact (Route.hasFailed_flushAll failed sinks).2

/-- A flush after some operations reports that a writer has failed before them. -/
theorem HasFailed.operate (failed : output.HasFailed) (operations : List Operation) :
    (output.operate (operations ++ [.flush])).1 ≠ none := by
  intro sound
  obtain ⟨between, earlier, flushes⟩ :=
    (operate_append_eq_none_iff operations [.flush] output _).mp (Prod.ext sound rfl)
  obtain ⟨final, applied, -⟩ := (operate_cons_eq_none_iff ..).mp flushes
  have stays := operate_induction (fun _ operation failed => failed.apply operation)
    operations failed
  rw [earlier] at stays
  exact stays.flush (congrArg Prod.fst applied)

/-- No writer of the output has anything to pass on. -/
def Rests (output : Output) : Prop := ∀ writer ∈ output.route.writers, writer.Rests

/-- After a flush no writer has anything to pass on. -/
theorem flush_rests (output : Output) : output.flush.2.Rests := by
  obtain ⟨route, sinks⟩ := output
  cases route with
  | single writer => exact List.forall_mem_singleton.mpr (writer.flush_rests sinks)
  | tee writers => exact Route.flushAll_rests writers sinks

/-- If no writer has failed, they are as they were made. -/
theorem Rests.idle (rests : output.Rests) (sound : ¬ output.HasFailed) :
    output.route.emptied = output.route := by
  apply (Route.emptied_eq_iff _).mpr
  intro writer isWriter
  exact (rests writer isWriter).resolve_right fun failed => sound ⟨writer, isWriter, failed⟩

end Output

end StackMachine
