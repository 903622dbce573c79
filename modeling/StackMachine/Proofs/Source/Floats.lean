import Mathlib
import StackMachine.Atom.Basic
import StackMachine.Proofs.Number.Characters
import StackMachine.Proofs.Number.Floats
import StackMachine.Proofs.Source.Layout
import StackMachine.Proofs.Source.RoundTrip

/-!
# Scanning the texts of numbers

The source text of an instruction that pushes a number is scanned as that instruction, and so is the
keyword before the text that printing the number gives (`Source.floats_read_back`).  A NaN has lost
its bits in both texts and comes back as the NaN of the machine.
-/

namespace StackMachine

/-- A word that is read as a number can stand in a source without quotes. -/
theorem readsBare_of_read? {word : String} {float : Binary32}
    (read : Binary32.read? word = some float) : ReadsBare word := by
  have absent {c : Char} (foreign : Foreign c) : c ∉ word.toList := foreign.notMem_of_read? read
  have noHead {c : Char} (foreign : Foreign c) : word.toList.head? ≠ some c :=
    fun head => absent foreign (List.mem_of_mem_head? head)
  refine ⟨⟨?_, ?_, noHead ⟨by decide, by decide, by decide⟩⟩,
    noHead ⟨by decide, by decide, by decide⟩⟩
  · intro isEmpty
    rw [String.toList_eq_nil_iff] at isEmpty
    have refused : Binary32.read? "" = none := by decide +kernel
    rw [isEmpty, refused] at read
    cases read
  · intro c isMem
    by_contra separator
    simp only [isSeparator, Bool.not_eq_false, Bool.or_eq_true, beq_iff_eq] at separator
    rcases separator with (rfl | rfl) | rfl <;>
      exact absent ⟨by decide, by decide, by decide⟩ isMem

/-- The word of a number behind its keyword is scanned up to the end of the text. -/
theorem Scan.instruction_of_read? {source : Source} (noFault : source.input.fault = none)
    {cursor : Cursor} {word : String} {float : Binary32} (read : Binary32.read? word = some float)
    (text : cursor.text = "pushf".toList ++ ' ' :: word.toList) :
    ∃ after, instruction source cursor =
      .ok (⟨{ opcode := .pushf, float }, cursor.row⟩, after) ∧ after.text = [] := by
  let between := cursor.past [] (.bare "pushf") (' ' :: word.toList)
  have isKeyword : Scan.word source cursor = .ok ("pushf", between) := by
    have readable : (Item.bare "pushf").Readable := @Opcode.readsBare_name .pushf (by decide)
    have ends : (Item.bare "pushf").Ends source.input.fault (' ' :: word.toList) := rfl
    exact Scan.word_written .nil readable ends text
  have isWord : Scan.word source between = .ok (word, between.past [] (.bare word) []) := by
    have readable : (Item.bare word).Readable := readsBare_of_read? read
    have ends : (Item.bare word).Ends source.input.fault [] := noFault
    exact Scan.word_written .nil readable ends (List.append_nil _).symm
  refine ⟨between.past [] (.bare word) [], ?_, rfl⟩
  exact Scan.instruction_eq_ok_iff.mpr
    ⟨"pushf", .pushf, between, [word], isKeyword, rfl, .cons isWord (.nil _), .float read, rfl⟩

/-- The source of a given name and text. -/
def Source.ofText (name text : String) : Source where
  name := name
  input := .ofBytes (Utf8.encode text)

/-- A source of the word of a number behind its keyword has one instruction. -/
theorem Source.instructions_of_read? (name : String) {word : String} {float : Binary32}
    (read : Binary32.read? word = some float) :
    (Source.ofText name ("pushf " ++ word)).instructions =
      ⟨[⟨{ opcode := .pushf, float }, 0⟩], none⟩ := by
  have text : (Cursor.start (Source.ofText name ("pushf " ++ word)).input.unread).text =
      "pushf".toList ++ ' ' :: word.toList := by
    refine (Utf8.decode_encode _).trans ?_
    rw [String.toList_append]
    rfl
  have noFault : (Source.ofText name ("pushf " ++ word)).input.fault = none := rfl
  obtain ⟨after, scanned, isEmpty⟩ := Scan.instruction_of_read? noFault read text
  refine Tokenizer.streamFrom_eq_iff.mpr ⟨after, .cons scanned (.nil after), ?_⟩
  exact Scan.bind_eq_error_iff.mpr (.inl (Scan.word_ending .nil (.inl rfl) isEmpty))

/-- Both texts of a number are read back: what a token that pushes it shows, and the keyword before
what the number prints.  A NaN is read back as a NaN. -/
theorem Source.floats_read_back (name : String) {token : Token} (isPush : token.opcode = .pushf) :
    ∃ back : Binary32,
      (∀ text ∈ [token.text, "pushf " ++ (Atom.float token.float).text],
        (Source.ofText name text).instructions =
          ⟨[⟨{ opcode := .pushf, float := back }, 0⟩], none⟩) ∧
      back.isNaN = token.float.isNaN ∧ (token.float.isNaN = false → back = token.float) := by
  have shown : token.text = "pushf " ++ token.float.instructionText := by
    rw [Token.text, isPush]
  have printed : (Atom.float token.float).text = token.float.printedText := rfl
  have both {back : Binary32} (instruction : Binary32.read? token.float.instructionText = some back)
      (print : Binary32.read? token.float.printedText = some back) :
      ∀ text ∈ [token.text, "pushf " ++ (Atom.float token.float).text],
        (Source.ofText name text).instructions =
          ⟨[⟨{ opcode := .pushf, float := back }, 0⟩], none⟩ := by
    rw [shown, printed, List.forall_mem_cons, List.forall_mem_singleton]
    exact ⟨instructions_of_read? name instruction, instructions_of_read? name print⟩
  cases isNaN : token.float.isNaN with
  | false =>
      exact ⟨token.float, both (Binary32.read?_instructionText isNaN)
        (Binary32.read?_printedText isNaN), isNaN, fun _ => rfl⟩
  | true =>
      obtain ⟨isInstruction, isPrinted⟩ := Binary32.text_of_isNaN isNaN
      refine ⟨.nan, both ?_ ?_, by decide, fun notNaN => by cases notNaN⟩
      · rw [isInstruction, Binary32.read?_nan]
      · rw [isPrinted, Binary32.read?_nan]

/-- The smallest number is shown with an exponent; a NaN is shown without its bits. -/
theorem Source.floats_read_back_smallest :
    (Source.ofText "" "pushf -1e-45").instructions =
        ⟨[⟨{ opcode := .pushf, float := ⟨0x80000001⟩ }, 0⟩], none⟩ ∧
      ∃ back, (Source.ofText "" "pushf NaN").instructions =
        ⟨[⟨{ opcode := .pushf, float := back }, 0⟩], none⟩ ∧ back.isNaN = true := by
  constructor
  · obtain ⟨back, same, -, isBack⟩ := @Source.floats_read_back ""
      { opcode := .pushf, float := ⟨0x80000001⟩ } rfl
    have text : Token.text { opcode := .pushf, float := ⟨0x80000001⟩ } = "pushf -1e-45" := by
      decide +kernel
    rw [isBack (by decide +kernel), text] at same
    exact same _ List.mem_cons_self
  · obtain ⟨back, same, isNaN, -⟩ := @Source.floats_read_back ""
      { opcode := .pushf, float := ⟨0xFFFFFFFF⟩ } rfl
    have text : Token.text { opcode := .pushf, float := ⟨0xFFFFFFFF⟩ } = "pushf NaN" := by
      decide +kernel
    rw [text] at same
    exact ⟨back, same _ List.mem_cons_self, isNaN.trans (by decide +kernel)⟩

end StackMachine
