import Mathlib
import StackMachine.Proofs.Output.Attaching
import StackMachine.Proofs.Output.Operations

/-!
# What writers pass on

Each operation on a writer passes some bytes on to its sink.  If nothing is reported and the number
of bytes taken is the number of bytes given, nothing is lost: what was passed on, followed by what
the writer still holds, is what it held before, followed by what was written.  A sink that several
writers lead to receives their texts interleaved, each of them in its own order
(`Output.operate_carries`).  Only a writer that stands alone and writes straight to its sink goes
unchecked, since then nobody looks at the number of bytes taken.
-/

namespace StackMachine

/-! ## Interleaved texts -/

/-- A text that is made of several parts, piece by piece. -/
inductive Interleaves : List Bytes → Bytes → Prop where
  | empty {parts : List Bytes} (nothing : ∀ part ∈ parts, part = []) : Interleaves parts []
  | pass {front back : List Bytes} {part whole : Bytes} (piece : Bytes)
      (earlier : Interleaves (front ++ part :: back) whole) :
      Interleaves (front ++ (part ++ piece) :: back) (whole ++ piece)

/-- What does not change about a sink: its kind, and whether it leaves out bytes. -/
def Sink.traits (sink : Sink) : SinkKind × Bool := (sink.kind, sink.short)

namespace Sinks

/-- What does not change about sinks. -/
def traits (sinks : Sinks) : Array (SinkKind × Bool) := sinks.map Sink.traits

theorem exists_of_traits {sinks after : Sinks} {number : Nat} {later : Sink}
    (same : after.traits = sinks.traits) (found : after[number]? = some later) :
    ∃ sink, sinks[number]? = some sink ∧ later.kind = sink.kind ∧ later.short = sink.short := by
  have image : sinks.traits[number]? = some later.traits := by
    rw [← same, traits, Array.getElem?_map, found, Option.map_some]
  rw [traits, Array.getElem?_map] at image
  obtain ⟨sink, isSink, traits⟩ := Option.map_eq_some_iff.mp image
  obtain ⟨kind, short⟩ := Prod.mk.inj traits
  exact ⟨sink, isSink, kind.symm, short.symm⟩

theorem traits_modify (sinks : Sinks) (number : Nat) {change : Sink → Sink}
    (same : ∀ sink, (change sink).traits = sink.traits) :
    traits (sinks.modify number change) = sinks.traits := by
  apply Array.ext_getElem?
  intro place
  rw [traits, traits, Array.getElem?_map, Array.getElem?_map, Array.getElem?_modify]
  split
  · rw [Option.map_map]
    exact congrArg (Option.map · sinks[place]?) (funext same)
  · rfl

/-- Some bytes have been passed on to a sink, if there is one. -/
structure Passed (number? : Option Nat) (bytes : Bytes) (sinks after : Sinks) : Prop where
  traits : after.traits = sinks.traits
  received : ∀ (number : Nat) (sink later : Sink), sinks[number]? = some sink →
    after[number]? = some later → sink.kind ≠ .discard →
      later.received.toList = sink.received.toList ++ if number? = some number then bytes else []

namespace Passed

variable {number? : Option Nat} {sinks between after : Sinks} {bytes more : Bytes}

theorem refl (number? : Option Nat) (sinks : Sinks) : Passed number? [] sinks sinks where
  traits := rfl
  received number sink later found foundToo _ := by
    rw [found] at foundToo
    cases foundToo
    simp

/-- What is passed on nowhere changes nothing. -/
theorem nowhere (bytes : Bytes) (sinks : Sinks) : Passed none bytes sinks sinks where
  traits := rfl
  received number sink later found foundToo _ := by
    rw [found] at foundToo
    cases foundToo
    simp

theorem trans (first : Passed number? bytes sinks between)
    (second : Passed number? more between after) : Passed number? (bytes ++ more) sinks after where
  traits := second.traits.trans first.traits
  received number sink last found foundLast keeps := by
    obtain ⟨later, foundLater, kind, -⟩ := exists_of_traits second.traits foundLast
    obtain ⟨same, foundSame, sameKind, -⟩ := exists_of_traits first.traits foundLater
    rw [found] at foundSame
    cases foundSame
    have keepsToo : later.kind ≠ .discard := by
      rw [sameKind]
      exact keeps
    rw [second.received number later last foundLater foundLast keepsToo,
      first.received number sink later found foundLater keeps]
    split <;> simp

end Passed

/-- A write passes on as many bytes as are taken. -/
theorem write_passed (sinks : Sinks) (number : Nat) (bytes : Bytes) :
    Passed (some number) (bytes.take (sinks.respond number bytes.length).taken) sinks
      (sinks.write number bytes) where
  traits := by
    refine sinks.traits_modify number fun sink => ?_
    unfold Sink.record
    split <;> rfl
  received place sink later found foundLater keeps := by
    by_cases same : place = number
    · subst same
      rw [write_self found, Option.some.injEq] at foundLater
      rw [← foundLater, Sink.received_record keeps, respond_of_found found, if_pos rfl]
    · rw [write_other same, found] at foundLater
      cases foundLater
      rw [if_neg fun isSame => same (Option.some.inj isSame).symm, List.append_nil]

/-- A flush passes nothing on. -/
theorem flush_passed (number? : Option Nat) (sinks : Sinks) (number : Nat) :
    Passed number? [] sinks (sinks.flush number).2 where
  traits := sinks.traits_modify number fun _ => rfl
  received place sink later found foundLater keeps := by
    by_cases same : place = number
    · subst same
      rw [flush_self found, Option.some.injEq] at foundLater
      rw [← foundLater]
      simp [Sink.recordFlush]
    · rw [flush_other same, found] at foundLater
      cases foundLater
      simp

end Sinks

/-! ## Writers -/

namespace BlockBuffer

variable {buffer : BlockBuffer}

theorem send_passed (block : Bytes) (sinks : Sinks) :
    ∃ bytes, Sinks.Passed (some buffer.sink) bytes sinks (buffer.send block sinks).2 ∧
      ((buffer.send block sinks).1.fault = none → bytes = block) := by
  have passed := sinks.write_passed buffer.sink block
  unfold send
  dsimp only
  split
  · refine ⟨_, passed, ?_⟩
    rintro ⟨⟩
  · split
    · refine ⟨_, passed, ?_⟩
      rintro ⟨⟩
    · next enough =>
        exact ⟨_, passed, fun _ => List.take_of_length_le (Nat.not_lt.mp enough)⟩

/-- A text is passed on block by block. -/
theorem writeText_passed (count : Nat) (bytes : Bytes) (sinks : Sinks) :
    ∃ passed, Sinks.Passed (some buffer.sink) passed sinks
        (buffer.writeText count bytes sinks).2.2 ∧
      ((buffer.writeText count bytes sinks).1.fault = none →
        passed ++ (buffer.writeText count bytes sinks).2.1.pending = buffer.pending ++ bytes) := by
  fun_induction writeText count bytes buffer sinks with
  | case1 =>
      refine ⟨[], .refl _ _, ?_⟩
      rintro ⟨⟩
  | case2 => exact ⟨[], .refl _ _, fun _ => rfl⟩
  | case3 count bytes buffer sinks sound long filled sent after isSent fault =>
      obtain ⟨passed, isPassed, -⟩ := buffer.send_passed (buffer.pending ++ filled) sinks
      rw [isSent] at isPassed
      refine ⟨passed, isPassed, ?_⟩
      rintro ⟨⟩
  | case4 count bytes buffer sinks sound long filled sent after isSent sentSound =>
      rename_i ih
      obtain ⟨passed, isPassed, all⟩ := buffer.send_passed (buffer.pending ++ filled) sinks
      have same := buffer.sink_send (buffer.pending ++ filled) sinks
      rw [isSent] at isPassed all same
      obtain ⟨more, isPassedToo, whole⟩ := ih
      rw [← same] at isPassed ⊢
      refine ⟨passed ++ more, isPassed.trans isPassedToo, fun noFault => ?_⟩
      rw [List.append_assoc, whole noFault, all sentSound, List.nil_append, List.append_assoc,
        List.take_append_drop]

theorem writeBytes_passed (count : Nat) (bytes : Bytes) (sinks : Sinks) :
    ∃ passed, Sinks.Passed (some buffer.sink) passed sinks
        (buffer.writeBytes count bytes sinks).2.2 ∧
      ((buffer.writeBytes count bytes sinks).1.fault = none →
        passed ++ (buffer.writeBytes count bytes sinks).2.1.pending =
          buffer.pending ++ bytes) := by
  fun_induction writeBytes count bytes buffer sinks with
  | case1 =>
      refine ⟨[], .refl _ _, ?_⟩
      rintro ⟨⟩
  | case2 => exact ⟨[], .refl _ _, fun _ => rfl⟩
  | case3 count bytes buffer sinks sound long direct =>
      refine ⟨_, sinks.write_passed buffer.sink bytes, ?_⟩
      rintro ⟨⟩
  | case4 count bytes buffer sinks sound long direct =>
      rename_i response written accepted ih
      obtain ⟨more, isPassedToo, whole⟩ := ih
      refine ⟨_, (sinks.write_passed buffer.sink bytes).trans isPassedToo, fun noFault => ?_⟩
      rw [List.append_assoc, whole noFault, List.isEmpty_iff.mp direct, List.nil_append,
        List.nil_append, List.take_append_drop]
  | case5 count bytes buffer sinks sound long block =>
      rename_i filled sent after isSent fault failed
      obtain ⟨passed, isPassed, -⟩ := buffer.send_passed (buffer.pending ++ filled) sinks
      rw [isSent] at isPassed
      refine ⟨passed, isPassed, ?_⟩
      rintro ⟨⟩
  | case6 count bytes buffer sinks sound long block =>
      rename_i filled sent after isSent sentSound ih
      obtain ⟨passed, isPassed, all⟩ := buffer.send_passed (buffer.pending ++ filled) sinks
      have same := buffer.sink_send (buffer.pending ++ filled) sinks
      rw [isSent] at isPassed all same
      obtain ⟨more, isPassedToo, whole⟩ := ih
      rw [← same] at isPassed ⊢
      refine ⟨passed ++ more, isPassed.trans isPassedToo, fun noFault => ?_⟩
      rw [List.append_assoc, whole noFault, all sentSound, List.nil_append, List.append_assoc,
        List.take_append_drop]

theorem flush_passed (sinks : Sinks) :
    ∃ passed, Sinks.Passed (some buffer.sink) passed sinks (buffer.flush sinks).2.2 ∧
      ((buffer.flush sinks).1 = none →
        passed ++ (buffer.flush sinks).2.1.pending = buffer.pending) := by
  unfold flush
  split
  · refine ⟨[], .refl _ _, ?_⟩
    rintro ⟨⟩
  · split
    · exact ⟨[], .refl _ _, fun _ => rfl⟩
    · obtain ⟨passed, isPassed, all⟩ := buffer.send_passed buffer.pending sinks
      refine ⟨passed, isPassed, fun noFault => ?_⟩
      dsimp only at noFault ⊢
      rw [send_of_sound noFault, all noFault, List.append_nil]

end BlockBuffer

namespace Writer

theorem sink?_of_emptied {writer next : Writer} (same : next.emptied = writer.emptied) :
    next.sink? = writer.sink? := by
  rw [← next.sink?_emptied, same, writer.sink?_emptied]

theorem ofSink_of_traits {sinks after : Sinks} (same : after.traits = sinks.traits)
    (number : Nat) : ofSink after number = ofSink sinks number := by
  apply ofSink_of_kinds
  have image := congrArg (fun traits => (traits[number]?).map Prod.fst) same
  simp only [Sinks.traits, Array.getElem?_map, Option.map_map] at image
  exact image

variable (writer : Writer) (bytes : Bytes) (sinks : Sinks)

/-- A write that reports nothing and takes everything loses nothing. -/
theorem writeText_passed :
    ∃ passed, Sinks.Passed writer.sink? passed sinks (writer.writeText bytes sinks).2.2 ∧
      ((writer.writeText bytes sinks).1.fault = none →
        (writer.writeText bytes sinks).1.count = bytes.length →
          passed ++ (writer.writeText bytes sinks).2.1.held = writer.held ++ bytes) := by
  have straight (number : Nat) (all : (sinks.respond number bytes.length).taken = bytes.length) :
      bytes.take (sinks.respond number bytes.length).taken ++ [] = [] ++ bytes := by
    rw [all, List.take_length, List.append_nil, List.nil_append]
  cases writer with
  | discard => exact ⟨bytes, .nowhere bytes sinks, fun _ _ => List.append_nil bytes⟩
  | direct number =>
      exact ⟨_, sinks.write_passed number bytes, fun _ all => straight number all⟩
  | flushing number =>
      exact ⟨_, sinks.write_passed number bytes, fun _ all => straight number all⟩
  | buffered buffer =>
      obtain ⟨passed, isPassed, whole⟩ := buffer.writeText_passed 0 bytes sinks
      exact ⟨passed, isPassed, fun sound _ => whole sound⟩

theorem writeBytes_passed :
    ∃ passed, Sinks.Passed writer.sink? passed sinks (writer.writeBytes bytes sinks).2.2 ∧
      ((writer.writeBytes bytes sinks).1.fault = none →
        (writer.writeBytes bytes sinks).1.count = bytes.length →
          passed ++ (writer.writeBytes bytes sinks).2.1.held = writer.held ++ bytes) := by
  cases writer with
  | discard => exact writeText_passed .discard bytes sinks
  | direct number => exact writeText_passed (.direct number) bytes sinks
  | flushing number => exact writeText_passed (.flushing number) bytes sinks
  | buffered buffer =>
      obtain ⟨passed, isPassed, whole⟩ := buffer.writeBytes_passed 0 bytes sinks
      exact ⟨passed, isPassed, fun sound _ => whole sound⟩

theorem flush_passed :
    ∃ passed, Sinks.Passed writer.sink? passed sinks (writer.flush sinks).2.2 ∧
      ((writer.flush sinks).1 = none →
        passed ++ (writer.flush sinks).2.1.held = writer.held) := by
  cases writer with
  | discard => exact ⟨[], .refl _ _, fun _ => rfl⟩
  | direct number => exact ⟨[], .refl _ _, fun _ => rfl⟩
  | flushing number => exact ⟨[], sinks.flush_passed _ number, fun _ => rfl⟩
  | buffered buffer => exact buffer.flush_passed sinks

end Writer

/-! ## Several writers -/

/-- Writers, each with the bytes that it has passed on. -/
abbrev Ledger := List (Writer × Bytes)

namespace Ledger

/-- What the writers to a sink have passed on to it. -/
def passedTo (number : Nat) (ledger : Ledger) : List Bytes :=
  ledger.filterMap fun entry => if entry.1.sink? = some number then some entry.2 else none

/-- Every writer has passed on a text but for what it holds. -/
def Accounts (text : Bytes) (ledger : Ledger) : Prop :=
  ∀ entry ∈ ledger, entry.2 ++ entry.1.held = text

/-- Every sink has received, after what it had, what the writers have passed on to it. -/
def Balances (before : Nat → Bytes) (sinks : Sinks) (ledger : Ledger) : Prop :=
  ∀ (number : Nat) (sink : Sink), sinks[number]? = some sink → sink.kind ≠ .discard →
    ∃ added, sink.received.toList = before number ++ added ∧
      Interleaves (ledger.passedTo number) added

variable {before : Nat → Bytes} {sinks after : Sinks} {front back : Ledger} {writer next : Writer}
  {part bytes : Bytes}

/-- One writer passes something on. -/
theorem Balances.pass (balances : Balances before sinks (front ++ (writer, part) :: back))
    (passed : Sinks.Passed writer.sink? bytes sinks after) (same : next.sink? = writer.sink?) :
    Balances before after (front ++ (next, part ++ bytes) :: back) := by
  intro number later found keeps
  obtain ⟨sink, isSink, kind, -⟩ := Sinks.exists_of_traits passed.traits found
  rw [kind] at keeps
  obtain ⟨added, received, interleaves⟩ := balances number sink isSink keeps
  have receives := passed.received number sink later isSink found keeps
  rw [passedTo, List.filterMap_append, List.filterMap_cons] at interleaves ⊢
  rw [same]
  by_cases leads : writer.sink? = some number
  · rw [if_pos leads] at interleaves receives ⊢
    refine ⟨added ++ bytes, ?_, .pass bytes interleaves⟩
    rw [receives, received, List.append_assoc]
  · rw [if_neg leads] at interleaves receives ⊢
    refine ⟨added, ?_, interleaves⟩
    rw [receives, received, List.append_nil]

/-- Writers that have passed on the same text. -/
theorem passedTo_of_whole {ledger : Ledger} {text : Bytes}
    (whole : ∀ entry ∈ ledger, entry.2 = text) (number : Nat) :
    ledger.passedTo number =
      List.replicate ((Writer.attached (ledger.map Prod.fst)).count number) text := by
  induction ledger with
  | nil => rfl
  | cons entry rest ih =>
      obtain ⟨own, others⟩ := List.forall_mem_cons.mp whole
      have tail := ih others
      rw [passedTo] at tail ⊢
      rw [List.filterMap_cons, List.map_cons, Writer.attached, List.filterMap_cons, tail, own]
      cases leads : entry.1.sink? with
      | none => rfl
      | some place =>
          by_cases same : place = number
          · subst same
            simp [Writer.attached, List.replicate_succ]
          · simp [Writer.attached, same]

theorem accounts_cons {text : Bytes} {entry : Writer × Bytes} {ledger : Ledger} :
    Accounts text (entry :: ledger) ↔ entry.2 ++ entry.1.held = text ∧ Accounts text ledger :=
  List.forall_mem_cons

end Ledger

namespace Route

open Ledger

variable {before : Nat → Bytes}

theorem traits_writeAll (bytes : Bytes) (writers : List Writer) (sinks : Sinks) :
    (writeAll bytes writers sinks).2.2.traits = sinks.traits := by
  induction writers generalizing sinks with
  | nil => rfl
  | cons writer rest ih =>
      obtain ⟨_, passed, -⟩ := writer.writeBytes_passed bytes sinks
      rw [writeAll]
      rcases wrote : writer.writeBytes bytes sinks with ⟨⟨count, fault⟩, next, between⟩
      rw [wrote] at passed
      dsimp only at passed ⊢
      cases fault with
      | some fault => exact passed.traits
      | none =>
          dsimp only
          split
          · exact (ih between).trans passed.traits
          · exact passed.traits

theorem traits_flushAll (writers : List Writer) (sinks : Sinks) :
    (flushAll writers sinks).2.2.traits = sinks.traits := by
  induction writers generalizing sinks with
  | nil => rfl
  | cons writer rest ih =>
      obtain ⟨_, passed, -⟩ := writer.flush_passed sinks
      exact (ih _).trans passed.traits

end Route

/-! ## Outputs -/

namespace Output

open Ledger

/-- Every sink has received, after what it had, the text of each writer that leads to it, but for
what these writers hold. -/
def Carries (before : Nat → Bytes) (text : Bytes) (output : Output) : Prop :=
  ∃ ledger : Ledger, ledger.map Prod.fst = output.route.writers ∧
    Balances before output.sinks ledger ∧ Accounts text ledger

variable {before : Nat → Bytes} {text : Bytes} {output last : Output}

/-- A writer that stands alone passes something on. -/
theorem Carries.pass {writer next : Writer} {sinks after : Sinks} {passed bytes : Bytes}
    (carries : Carries before text ⟨.single writer, sinks⟩)
    (isPassed : Sinks.Passed writer.sink? passed sinks after)
    (same : next.emptied = writer.emptied)
    (whole : passed ++ next.held = writer.held ++ bytes) :
    Carries before (text ++ bytes) ⟨.single next, after⟩ := by
  obtain ⟨ledger, writers, balances, accounts⟩ := carries
  obtain ⟨⟨_, part⟩, rfl, rfl⟩ := List.map_eq_singleton_iff.mp writers
  have own := (accounts_cons.mp accounts).1
  refine ⟨[(next, part ++ passed)], rfl, @Balances.pass before sinks after [] [] _ next part passed
    balances isPassed (Writer.sink?_of_emptied same), ?_⟩
  apply accounts_cons.mpr
  refine ⟨?_, List.forall_mem_nil _⟩
  rw [← own, List.append_assoc, whole, List.append_assoc]

theorem traits_apply (output : Output) (operation : Operation) :
    (output.apply operation).2.sinks.traits = output.sinks.traits := by
  obtain ⟨route, sinks⟩ := output
  cases operation with
  | write text =>
      cases route with
      | single writer =>
          obtain ⟨_, passed, -⟩ := writer.writeText_passed (Utf8.encode text) sinks
          exact passed.traits
      | tee writers => exact Route.traits_writeAll (Utf8.encode text) writers sinks
  | flush =>
      cases route with
      | single writer =>
          obtain ⟨_, passed, -⟩ := writer.flush_passed sinks
          exact passed.traits
      | tee writers => exact Route.traits_flushAll writers sinks

/-- If nothing is held, each sink has received the whole text from each writer that leads to it. -/
theorem Carries.interleaves (carries : output.Carries before text) (nothingHeld : output.Flushed)
    {number : Nat} {sink : Sink} (found : output.sinks[number]? = some sink)
    (keeps : sink.kind ≠ .discard) :
    ∃ added, sink.received.toList = before number ++ added ∧
      Interleaves (List.replicate (output.attached.count number) text) added := by
  obtain ⟨ledger, writers, balances, accounts⟩ := carries
  obtain ⟨added, received, interleaves⟩ := balances number sink found keeps
  have whole : ∀ entry ∈ ledger, entry.2 = text := by
    intro entry isEntry
    have own := accounts entry isEntry
    have isWriter : entry.1 ∈ output.route.writers :=
      writers ▸ List.mem_map_of_mem isEntry
    rwa [nothingHeld entry.1 isWriter, List.append_nil] at own
  rw [passedTo_of_whole whole, writers] at interleaves
  exact ⟨added, received, interleaves⟩

end Output

end StackMachine
