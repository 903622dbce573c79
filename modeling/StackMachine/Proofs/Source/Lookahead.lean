import Mathlib
import StackMachine.Proofs.Program.Loading

/-!
# Looking ahead

A tokenizer answers calls: a peek shows the next instruction, a call of `next` takes it.  To the
caller it is nothing but a stream, a list of instructions and the reason why it ends: a peek leaves
that stream as it is, and `next` takes its first instruction off (`Tokenizer.stream_call`).  So
each answer is found in the stream by the number of instructions taken before, whatever the calls
were (`Tokenizer.answers_eq`).  For a source this is `Source.answers_of_calls`.
-/

namespace StackMachine

/-- What a caller asks of a tokenizer. -/
inductive Tokenizer.Call where
  | peek
  | next
  deriving DecidableEq, Repr

/-- An instruction, or why there is none. -/
abbrev Tokenizer.Answer := Except (Option ScanError) Instruction

namespace TokenStream

/-- What stands at an index of a stream: behind its instructions always the reason of its end. -/
def answer (stream : TokenStream) (index : Nat) : Tokenizer.Answer :=
  match stream.instructions[index]? with
  | some found => .ok found
  | none => .error stream.failure

/-- A stream without its first instructions. -/
def drop (stream : TokenStream) (count : Nat) : TokenStream :=
  { stream with instructions := stream.instructions.drop count }

variable (stream : TokenStream)

theorem answer_drop (count index : Nat) :
    (stream.drop count).answer index = stream.answer (count + index) := by
  rw [answer, drop, List.getElem?_drop]
  rfl

/-- The answers that are errors stand behind all instructions. -/
theorem answer_eq_error_iff {index : Nat} {stop : Option ScanError} :
    stream.answer index = .error stop ↔
      stream.instructions.length ≤ index ∧ stop = stream.failure := by
  unfold answer
  cases found : stream.instructions[index]? with
  | none =>
      rw [List.getElem?_eq_none_iff] at found
      simp [found, eq_comm]
  | some instruction =>
      obtain ⟨inRange, -⟩ := List.getElem?_eq_some_iff.mp found
      simp [Nat.not_le.mpr inRange]

end TokenStream

namespace Tokenizer

/-- Answers a call. -/
def call (t : Tokenizer) : Call → Answer × Tokenizer
  | .peek => (t.peek, t)
  | .next => t.next

/-- The answers to calls that are made one after the other. -/
def answers (t : Tokenizer) : List Call → List Answer
  | [] => []
  | request :: calls => (t.call request).1 :: (t.call request).2.answers calls

/-- A call of `next` that was answered with an instruction has taken it. -/
def takes (request : Call) (answer : Answer) : Bool := request == .next && answer.isOk

/-- The number of instructions that some calls have taken. -/
def taken (calls : List Call) (answers : List Answer) : Nat :=
  (calls.zipWith takes answers).count true

/-! ## One call -/

/-- A tokenizer that has just scanned at a cursor hands out what stands from there on. -/
theorem stream_scanAt (source : Source) (cursor : Cursor) :
    (scanAt source cursor).stream = streamFrom source cursor := by
  unfold scanAt
  cases scanned : Scan.instruction source cursor with
  | ok pair =>
      obtain ⟨found, after⟩ := pair
      exact (streamFrom_of_ok scanned).symm
  | error stop => exact (streamFrom_of_error scanned).symm

theorem stream_ofSource (source : Source) : (ofSource source).stream = source.instructions :=
  stream_scanAt source _

/-- Every call is answered with the start of the stream. -/
theorem call_answer (t : Tokenizer) (request : Call) :
    (t.call request).1 = t.stream.answer 0 := by
  unfold stream TokenStream.answer
  cases request with
  | peek =>
      rw [call, peek]
      cases t.ahead <;> rfl
  | next =>
      rw [call, next]
      cases t.ahead <;> rfl

/-- A call of `next` takes the instruction it is answered with off the stream; no other call
changes it. -/
theorem stream_call (t : Tokenizer) (request : Call) :
    (t.call request).2.stream = t.stream.drop (takes request (t.call request).1).toNat := by
  cases request with
  | peek => rfl
  | next =>
      have isNext : t.call .next = t.next := rfl
      rw [isNext, next]
      cases ahead : t.ahead with
      | ok found =>
          dsimp only
          rw [stream_scanAt, stream, ahead]
          rfl
      | error stop => rfl

/-! ## Many calls -/

theorem length_answers (t : Tokenizer) (calls : List Call) :
    (t.answers calls).length = calls.length := by
  induction calls generalizing t with
  | nil => rfl
  | cons request calls ih => rw [answers, List.length_cons, List.length_cons, ih]

theorem taken_cons (request : Call) (calls : List Call) (answer : Answer) (answers : List Answer) :
    taken (request :: calls) (answer :: answers) =
      (takes request answer).toNat + taken calls answers := by
  rw [taken, List.zipWith_cons_cons, List.count_cons, Nat.add_comm]
  cases takes request answer <;> rfl

/-- Each answer stands in the stream at the number of instructions taken before it. -/
theorem answers_eq (t : Tokenizer) (calls : List Call) {index : Nat} (made : index < calls.length) :
    (t.answers calls)[index]? =
      some (t.stream.answer (taken (calls.take index) ((t.answers calls).take index))) := by
  induction calls generalizing t index with
  | nil => cases made
  | cons request calls ih =>
      rw [answers]
      cases index with
      | zero => rw [List.getElem?_cons_zero, call_answer]; rfl
      | succ index =>
          rw [List.getElem?_cons_succ, ih _ (Nat.lt_of_succ_lt_succ made), stream_call,
            TokenStream.answer_drop, List.take_succ_cons, List.take_succ_cons, taken_cons]

/-- What was taken by the earlier calls was taken by the later ones as well. -/
theorem taken_take_mono (calls : List Call) (answers : List Answer) {first second : Nat}
    (ordered : first ≤ second) :
    taken (calls.take first) (answers.take first) ≤
      taken (calls.take second) (answers.take second) := by
  rw [taken, taken, ← List.take_zipWith, ← List.take_zipWith]
  exact (List.take_sublist_take_left ordered).count_le true

/-- Once an answer is an error, all later ones are that error. -/
theorem answers_of_error {t : Tokenizer} {calls : List Call} {first second : Nat}
    {stop : Option ScanError} (failed : (t.answers calls)[first]? = some (.error stop))
    (ordered : first ≤ second) (made : second < calls.length) :
    (t.answers calls)[second]? = some (.error stop) ∧ stop = t.stream.failure := by
  rw [t.answers_eq calls (ordered.trans_lt made), Option.some_inj,
    TokenStream.answer_eq_error_iff] at failed
  obtain ⟨behind, isStop⟩ := failed
  rw [t.answers_eq calls made, Option.some_inj, TokenStream.answer_eq_error_iff]
  exact ⟨⟨behind.trans (taken_take_mono calls _ ordered), isStop⟩, isStop⟩

/-- A peek can be left out: all other calls are answered as before. -/
theorem answers_eraseIdx_peek (t : Tokenizer) (before after : List Call) :
    (t.answers (before ++ .peek :: after)).eraseIdx before.length = t.answers (before ++ after) := by
  induction before generalizing t with
  | nil => rfl
  | cons request before ih =>
      rw [List.cons_append, List.cons_append, answers, answers, List.length_cons,
        List.eraseIdx_cons_succ, ih]

/-- Every instruction takes at least one character. -/
theorem length_streamFrom_le (source : Source) (cursor : Cursor) :
    (streamFrom source cursor).instructions.length ≤ cursor.text.length := by
  fun_induction streamFrom source cursor with
  | case1 cursor found after scanned rest ih =>
      exact ih.trans_lt (Scan.length_instruction_lt scanned)
  | case2 cursor stop scanned => exact Nat.zero_le _

end Tokenizer

/-! ## The calls to the tokenizer of a source -/

/-- The instructions of a source, no more than it has characters, and the one reason why they end
answer every sequence of calls.  The answer to each call stands at the number of calls of `next`
before it that were answered with an instruction; behind the last instruction stands the reason of
the end.  A peek takes nothing, so that it can be left out, and the first error is the answer to all
later calls. -/
theorem Source.answers_of_calls (source : Source) (allocatable : ¬ source.Overreaches) :
    source.instructions.instructions.length ≤ source.input.unread.length ∧
    source.instructions.failure ≠ some .oversized ∧
    (∀ calls : List Tokenizer.Call,
      let answers := (Tokenizer.ofSource source).answers calls
      answers.length = calls.length ∧
      (∀ index < calls.length, answers[index]? =
        some (source.instructions.answer
          (Tokenizer.taken (calls.take index) (answers.take index)))) ∧
      ∀ first second stop, answers[first]? = some (.error stop) → first ≤ second →
        second < calls.length →
          answers[second]? = some (.error stop) ∧ stop = source.instructions.failure) ∧
    ∀ before after : List Tokenizer.Call,
      ((Tokenizer.ofSource source).answers (before ++ .peek :: after)).eraseIdx before.length =
        (Tokenizer.ofSource source).answers (before ++ after) := by
  refine ⟨Tokenizer.length_streamFrom_le source _, ?_, fun calls => ⟨?_, ?_, ?_⟩, ?_⟩
  · rwa [ne_eq, failure_eq_oversized_iff]
  · exact Tokenizer.length_answers _ calls
  · intro index made
    rw [← Tokenizer.stream_ofSource]
    exact Tokenizer.answers_eq _ calls made
  · intro first second stop failed ordered made
    rw [← Tokenizer.stream_ofSource]
    exact Tokenizer.answers_of_error failed ordered made
  · exact Tokenizer.answers_eraseIdx_peek _

/-- A source whose device fails inside the second operand of an instruction, behind an instruction
that is whole. -/
def severedSource : Source where
  name := "severed"
  input := ⟨"pop stores 0 1".toList, some ⟨"gone"⟩⟩

/-- The half of an instruction is never handed out, and its failure is final. -/
theorem Source.answers_of_calls_severed :
    let answers := (Tokenizer.ofSource severedSource).answers [.next, .peek, .next, .peek]
    ¬ severedSource.Overreaches ∧ answers[0]? = some (.ok ⟨{ opcode := .pop }, 0⟩) ∧
      answers[1]? = some (.error (some (.unreadable ⟨"gone"⟩))) ∧
      answers[3]? = some (.error (some (.unreadable ⟨"gone"⟩))) := by
  intro answers
  have isStream : severedSource.instructions =
      ⟨[⟨{ opcode := .pop }, 0⟩], some (.unreadable ⟨"gone"⟩)⟩ := by
    cbv
  have allocatable : ¬ severedSource.Overreaches := by
    rw [← failure_eq_oversized_iff, isStream]
    decide
  obtain ⟨-, -, answered, -⟩ := answers_of_calls severedSource allocatable
  obtain ⟨-, each, final⟩ := answered [.next, .peek, .next, .peek]
  have first : answers[0]? = some (.ok ⟨{ opcode := .pop }, 0⟩) := by
    rw [each 0 (by decide), isStream]
    rfl
  have failed : answers[1]? = some (.error (some (.unreadable ⟨"gone"⟩))) := by
    cbv
  exact ⟨allocatable, first, failed, (final 1 3 _ failed (by decide) (by decide)).1⟩

end StackMachine
