import Mathlib
import StackMachine.Proofs.Text.Buffering

/-!
# Texts that are cut off

A reader that fails after some bytes delivers the characters of a text up to the cut, and one
replacement character for each byte of a character that the cut falls into
(`Utf8.cutOff_decode_take`).  A word is known to be complete only by the character behind it, which is
no replacement character.  So the words that are read before the failure are words of the whole
text (`Input.readWord_cutOff`).
-/

namespace StackMachine

/-- A text that ends early: with some characters of the whole text, and behind them nothing but
replacement characters. -/
def CutOff (cut whole : List Char) : Prop :=
  ∃ front tail count, whole = front ++ tail ∧
    cut = front ++ List.replicate count Utf8.replacement

/-- Up to a character that is no replacement character, a text that ends early is the whole text. -/
theorem CutOff.exists_behind {cut whole before behind : List Char} {c : Char}
    (cutOff : CutOff cut whole) (isCut : cut = before ++ c :: behind) (known : c ≠ Utf8.replacement) :
    ∃ rest, whole = before ++ c :: rest ∧ CutOff behind rest := by
  obtain ⟨front, tail, count, rfl, rfl⟩ := cutOff
  rcases List.append_eq_append_iff.mp isCut with ⟨more, -, marks⟩ | ⟨more, rfl, split⟩
  · -- the character is one of the marks
    have mem : c ∈ List.replicate count Utf8.replacement := marks ▸ by simp
    exact absurd (List.eq_of_mem_replicate mem) known
  · cases more with
    | nil =>
        have mem : c ∈ List.replicate count Utf8.replacement := by
          rw [List.nil_append] at split
          exact split ▸ List.mem_cons_self
        exact absurd (List.eq_of_mem_replicate mem) known
    | cons d more =>
        cases split
        exact ⟨more ++ tail, by simp, more, tail, count, rfl, rfl⟩

namespace Utf8

theorem head?_of_continuation {byte : UInt8} (low : 0x80 ≤ byte) (high : byte ≤ 0xBF)
    (rest : Bytes) : head? byte rest = none := by
  rw [UInt8.le_iff_toNat_le] at low high
  have low : 0x80 ≤ byte.toNat := low
  have high : byte.toNat ≤ 0xBF := high
  unfold head?
  simp only [UInt8.lt_iff_toNat_lt, UInt8.le_iff_toNat_le]
  rw [if_neg, if_neg, if_neg, if_neg]
  all_goals
    simp
    omega

/-- Bytes that only continue a character read as one replacement character each. -/
theorem decode_of_continuations {bytes : Bytes}
    (continues : ∀ byte ∈ bytes, 0x80 ≤ byte ∧ byte ≤ 0xBF) :
    decode bytes = List.replicate bytes.length replacement := by
  induction bytes with
  | nil => rw [decode]; rfl
  | cons byte bytes ih =>
      obtain ⟨⟨low, high⟩, continues⟩ := List.forall_mem_cons.mp continues
      have unread : next byte bytes = (replacement, bytes) := by
        rw [next, head?_of_continuation low high]
      rw [decode, unread, ih continues]
      rfl

theorem Allows.continues {first second : UInt8} {length : Nat}
    (allows : Allows first length second) : 0x80 ≤ second ∧ second ≤ 0xBF := by
  obtain ⟨-, low, high⟩ := allows
  obtain ⟨-, least, greatest⟩ := sequenceShape_bounds first
  exact ⟨UInt8.le_trans least low, UInt8.le_trans high greatest⟩

/-- The characters of the first bytes of a text are those of the text, up to a character that the
cut falls into. -/
theorem cutOff_decode_append (bytes more : Bytes) :
    CutOff (decode bytes) (decode (bytes ++ more)) := by
  fun_induction decode bytes with
  | case1 => exact ⟨[], decode more, 0, rfl, rfl⟩
  | case2 first rest ih =>
      rw [List.cons_append, decode]
      have sameFirst {char : Char} {left : Bytes} (here : next first rest = (char, left))
          (there : next first (rest ++ more) = (char, left ++ more)) :
          CutOff ((next first rest).1 :: decode (next first rest).2)
            ((next first (rest ++ more)).1 :: decode (next first (rest ++ more)).2) := by
        rw [here] at ih
        obtain ⟨front, tail, count, whole, cut⟩ := ih
        rw [here, there]
        dsimp only at whole cut ⊢
        rw [whole, cut]
        exact ⟨char :: front, tail, count, rfl, rfl⟩
      cases read : head? first rest with
      | some found =>
          obtain ⟨tail, others, rfl, width, -, -, -, goesOn⟩ := exists_tail_of_head? read
          refine @sameFirst found.1 others ?_ ?_
          · rw [next, goesOn]
            dsimp only
            rw [← width, List.drop_left]
          · rw [List.append_assoc, next, goesOn]
            dsimp only
            rw [← width, List.drop_left]
      | none =>
          have here : next first rest = (replacement, rest) := by rw [next, read]
          cases readMore : head? first (rest ++ more) with
          | none =>
              refine sameFirst here ?_
              rw [next, readMore]
          | some found =>
              rcases head?_eq_or_short readMore with readAlone | ⟨short, shape, allows, continues⟩
              · rw [read] at readAlone
                cases readAlone
              · -- the cut falls into a character
                have all : ∀ byte ∈ rest, 0x80 ≤ byte ∧ byte ≤ 0xBF := by
                  intro byte mem
                  obtain ⟨index, isByte⟩ := List.mem_iff_getElem?.mp mem
                  have inside := (List.getElem?_eq_some_iff.mp isByte).1
                  have few := (sequenceShape_bounds first).1
                  obtain rfl | rfl : index = 0 ∨ index = 1 := by omega
                  · exact (allows byte isByte).continues
                  · exact continues byte isByte
                rw [here, decode_of_continuations all]
                exact ⟨[], _, rest.length + 1, rfl, rfl⟩

/-- A reader that fails after some bytes delivers a text that ends early. -/
theorem cutOff_decode_take (count : Nat) (bytes : Bytes) :
    CutOff (decode (bytes.take count)) (decode bytes) := by
  have cutOff := cutOff_decode_append (bytes.take count) (bytes.drop count)
  rwa [List.take_append_drop] at cutOff

end Utf8

namespace Input

/-- An input that fails where another goes on. -/
def FailsIn (fault : ReadFault) (cut whole : Input) : Prop :=
  cut.fault = some fault ∧ CutOff cut.unread whole.unread

theorem failsIn_failingAfter (count : Nat) (fault : ReadFault) (bytes : Bytes) :
    FailsIn fault (.failingAfter count fault bytes) (.ofBytes bytes) :=
  ⟨rfl, Utf8.cutOff_decode_take count bytes⟩

/-- A word with white space behind it is read whether the input fails later or not. -/
theorem readWord_of_unread {input : Input} {blanks word after : List Char} {c : Char}
    (areBlank : ∀ d ∈ blanks, isBlank d = true) (noBlank : ∀ d ∈ word, isBlank d = false)
    (nonempty : word ≠ []) (ends : isBlank c = true)
    (isUnread : input.unread = blanks ++ (word ++ c :: after)) :
    input.readWord = (.word (String.ofList word), ⟨after, input.fault⟩) := by
  have begins : input.unread.dropWhile isBlank = word ++ c :: after := by
    rw [isUnread, List.dropWhile_append_of_pos areBlank]
    cases word with
    | nil => exact absurd rfl nonempty
    | cons first rest => rw [List.cons_append, List.dropWhile_cons_of_neg (by simp [noBlank])]
  have goesOn : ∀ d ∈ word, (!isBlank d) = true := fun d mem => by rw [noBlank d mem]; rfl
  have stops : (word ++ c :: after).dropWhile (fun d => !isBlank d) = c :: after := by
    rw [List.dropWhile_append_of_pos goesOn, List.dropWhile_cons_of_neg (by simp [ends])]
  have takes : (word ++ c :: after).takeWhile (fun d => !isBlank d) = word := by
    rw [List.takeWhile_append_of_pos goesOn, List.takeWhile_cons_of_neg (by simp [ends]),
      List.append_nil]
  unfold readWord
  simp only [begins, stops, takes]
  rfl

/-- A read from an input that fails gives a word with white space behind it, or the failure. -/
theorem readWord_of_fault {input : Input} {fault : ReadFault} (failing : input.fault = some fault) :
    input.readWord.1 = .failed fault ∨
      ∃ blanks word after c, (∀ d ∈ blanks, isBlank d = true) ∧ (∀ d ∈ word, isBlank d = false) ∧
        word ≠ [] ∧ isBlank c = true ∧ input.unread = blanks ++ (word ++ c :: after) := by
  have split : input.unread = input.unread.takeWhile isBlank ++
      ((input.unread.dropWhile isBlank).takeWhile (fun d => !isBlank d) ++
        (input.unread.dropWhile isBlank).dropWhile fun d => !isBlank d) := by
    rw [List.takeWhile_append_dropWhile, List.takeWhile_append_dropWhile]
  cases behind : (input.unread.dropWhile isBlank).dropWhile fun d => !isBlank d with
  | nil =>
      left
      unfold readWord
      simp only [behind, failing]
  | cons c after =>
      right
      rw [behind] at split
      have ends : isBlank c = true := by
        have stops := List.head?_dropWhile_not (fun d => !isBlank d)
          (input.unread.dropWhile isBlank)
        rw [behind] at stops
        simpa using stops
      refine ⟨_, _, after, c, ?_, ?_, ?_, ends, split⟩
      · exact fun d mem => List.mem_takeWhile_imp mem
      · intro d mem
        simpa using List.mem_takeWhile_imp mem
      · intro empty
        have begins := List.head?_dropWhile_not isBlank input.unread
        have isFirst := @List.takeWhile_append_dropWhile _ (fun d => !isBlank d)
          (input.unread.dropWhile isBlank)
        rw [empty, behind, List.nil_append] at isFirst
        rw [← isFirst] at begins
        exact absurd ends (by simpa using begins)

theorem isBlank_replacement : isBlank Utf8.replacement = false := by decide

/-- A read from an input that fails gives the failure, or the word that a read from the whole input
gives. -/
theorem FailsIn.readWord {fault : ReadFault} {cut whole : Input} (failsIn : cut.FailsIn fault whole) :
    cut.readWord.1 = .failed fault ∨
      ∃ text, cut.readWord.1 = .word text ∧ whole.readWord.1 = .word text ∧
        cut.readWord.2.FailsIn fault whole.readWord.2 := by
  obtain ⟨failing, cutOff⟩ := failsIn
  rcases readWord_of_fault failing with
    failed | ⟨blanks, word, after, c, areBlank, noBlank, nonempty, ends, isUnread⟩
  · exact .inl failed
  · right
    have known : c ≠ Utf8.replacement := by
      rintro rfl
      rw [isBlank_replacement] at ends
      cases ends
    rw [← List.append_assoc] at isUnread
    obtain ⟨rest, isWhole, behind⟩ := cutOff.exists_behind isUnread known
    rw [List.append_assoc] at isUnread isWhole
    rw [readWord_of_unread areBlank noBlank nonempty ends isUnread,
      readWord_of_unread areBlank noBlank nonempty ends isWhole]
    exact ⟨String.ofList word, rfl, rfl, failing, behind⟩

theorem readWords_of_failed {input : Input} {fault : ReadFault}
    (failed : input.readWord.1 = .failed fault) (count : Nat) :
    input.readWords (count + 1) = [.failed fault] := by
  rcases read : input.readWord with ⟨result, rest⟩
  rw [read] at failed
  cases failed
  rw [readWords, read]

theorem readWords_of_word {input : Input} {text : String}
    (isWord : input.readWord.1 = .word text) (count : Nat) :
    input.readWords (count + 1) = .word text :: input.readWord.2.readWords count := by
  rcases read : input.readWord with ⟨result, rest⟩
  rw [read] at isWord
  cases isWord
  rw [readWords, read]

/-- Read after read, an input that fails gives the words of the whole input, up to the failure. -/
theorem FailsIn.readWords {fault : ReadFault} {cut whole : Input} (failsIn : cut.FailsIn fault whole)
    (count : Nat) :
    ∃ words : List String, words.map .word <+: whole.readWords count ∧
      (cut.readWords count = words.map .word ∨
        cut.readWords count = words.map .word ++ [.failed fault]) := by
  induction count generalizing cut whole with
  | zero => exact ⟨[], List.nil_prefix, .inl rfl⟩
  | succ count ih =>
      rcases failsIn.readWord with failed | ⟨text, isWord, isWordToo, behind⟩
      · exact ⟨[], List.nil_prefix, .inr (readWords_of_failed failed count)⟩
      · obtain ⟨words, isPrefix, results⟩ := ih behind
        rw [readWords_of_word isWord, readWords_of_word isWordToo]
        refine ⟨text :: words, List.cons_prefix_cons.mpr ⟨rfl, isPrefix⟩, ?_⟩
        rcases results with all | failed
        · exact .inl (congrArg _ all)
        · exact .inr (congrArg _ failed)

end Input

end StackMachine
