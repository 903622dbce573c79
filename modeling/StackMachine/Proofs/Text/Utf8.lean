import Mathlib
import StackMachine.Text.Utf8

/-!
# UTF-8 round trip

Reading, strict or not, takes the UTF-8 form of every text and gives back its characters.  Strict
reading takes nothing else (`encode_of_decodeStrict`).
-/

namespace StackMachine.Utf8

/-- A continuation byte carries the six lowest bits of a number. -/
theorem continuation?_payload (n : Nat) :
    continuation? (UInt8.ofNat (n % 64 + 128)) = some (n % 64) := by
  have value : (UInt8.ofNat (n % 64 + 128)).toNat = n % 64 + 128 :=
    UInt8.toNat_ofNat_of_lt' (by simp only [UInt8.size]; omega)
  have low : (0x80 : UInt8) ≤ UInt8.ofNat (n % 64 + 128) := by
    rw [UInt8.le_iff_toNat_le, value]
    exact Nat.le_add_left _ _
  have high : UInt8.ofNat (n % 64 + 128) ≤ (0xBF : UInt8) := by
    rw [UInt8.le_iff_toNat_le, value]
    simp only [UInt8.toNat_ofNat]
    omega
  rw [continuation?, if_pos ⟨low, high⟩, value, Nat.add_sub_cancel]

/-- A character is read from its code point in every form that may spell it. -/
theorem scalar?_toNat {least : Nat} {char : Char} (isLeast : least ≤ char.toNat) :
    scalar? least char.toNat = some char := by
  have valid : char.toNat.isValidChar := char.valid
  rw [scalar?, if_pos ⟨isLeast, valid⟩, Char.ofNat_toNat]

/-- The first byte of a form, by the number it holds. -/
theorem head?_ofNat {lead : Nat} (isByte : lead < 256) (rest : Bytes) :
    head? (UInt8.ofNat lead) rest =
      if lead < 0x80 then some (Char.ofNat lead, 0)
      else if 0xC0 ≤ lead ∧ lead < 0xE0 then do
        let one ← rest[0]? >>= continuation?
        let char ← scalar? 0x80 ((lead - 0xC0) * 64 + one)
        return (char, 1)
      else if 0xE0 ≤ lead ∧ lead < 0xF0 then do
        let one ← rest[0]? >>= continuation?
        let two ← rest[1]? >>= continuation?
        let char ← scalar? 0x800 (((lead - 0xE0) * 64 + one) * 64 + two)
        return (char, 2)
      else if 0xF0 ≤ lead ∧ lead < 0xF8 then do
        let one ← rest[0]? >>= continuation?
        let two ← rest[1]? >>= continuation?
        let three ← rest[2]? >>= continuation?
        let char ← scalar? 0x10000 ((((lead - 0xF0) * 64 + one) * 64 + two) * 64 + three)
        return (char, 3)
      else none := by
  have value : (UInt8.ofNat lead).toNat = lead := UInt8.toNat_ofNat_of_lt' isByte
  simp only [head?, UInt8.lt_iff_toNat_lt, UInt8.le_iff_toNat_le, value]
  rfl

/-- The UTF-8 form of a character is read as that character, whatever follows it. -/
theorem head?_encodeChar (char : Char) (rest : Bytes) :
    ∃ first more, String.utf8EncodeChar char = first :: more ∧
      head? first (more ++ rest) = some (char, more.length) := by
  have bound : char.toNat < 0x110000 := by
    rcases char.valid with low | ⟨-, high⟩
    · exact low.trans (by decide)
    · exact high
  have code : char.val.toNat = char.toNat := rfl
  simp only [String.utf8EncodeChar, code]
  split_ifs with one two three
  · refine ⟨_, _, rfl, ?_⟩
    rw [head?_ofNat (by omega), if_pos (by omega), Char.ofNat_toNat]
    rfl
  · refine ⟨_, _, rfl, ?_⟩
    rw [head?_ofNat (by omega), if_neg (by omega), if_pos (by omega)]
    have spelled : (char.toNat / 64 % 32 + 192 - 0xC0) * 64 + char.toNat % 64 = char.toNat := by
      omega
    simp only [List.cons_append, List.getElem?_cons_zero, Option.bind_eq_bind, Option.bind_some,
      continuation?_payload, spelled, scalar?_toNat (Nat.lt_of_not_le one)]
    rfl
  · refine ⟨_, _, rfl, ?_⟩
    rw [head?_ofNat (by omega), if_neg (by omega), if_neg (by omega), if_pos (by omega)]
    have spelled : ((char.toNat / 4096 % 16 + 224 - 0xE0) * 64 + char.toNat / 64 % 64) * 64 +
        char.toNat % 64 = char.toNat := by
      omega
    simp only [List.cons_append, List.getElem?_cons_zero, List.getElem?_cons_succ,
      Option.bind_eq_bind, Option.bind_some, continuation?_payload, spelled,
      scalar?_toNat (Nat.lt_of_not_le two)]
    rfl
  · refine ⟨_, _, rfl, ?_⟩
    rw [head?_ofNat (by omega), if_neg (by omega), if_neg (by omega), if_neg (by omega),
      if_pos (by omega)]
    have spelled : (((char.toNat / 262144 % 8 + 240 - 0xF0) * 64 + char.toNat / 4096 % 64) * 64 +
        char.toNat / 64 % 64) * 64 + char.toNat % 64 = char.toNat := by
      omega
    simp only [List.cons_append, List.getElem?_cons_zero, List.getElem?_cons_succ,
      Option.bind_eq_bind, Option.bind_some, continuation?_payload, spelled,
      scalar?_toNat (Nat.lt_of_not_le three)]
    rfl

theorem encode_append (front back : String) :
    encode (front ++ back) = encode front ++ encode back := by
  rw [encode, String.toList_append, List.flatMap_append]
  rfl

/-- Reading gives back the characters of a text. -/
theorem decode_encode (text : String) : decode (encode text) = text.toList := by
  unfold encode
  induction text.toList with
  | nil => simp [decode]
  | cons char chars ih =>
      obtain ⟨first, more, form, read⟩ :=
        head?_encodeChar char (chars.flatMap String.utf8EncodeChar)
      rw [List.flatMap_cons, form, List.cons_append, decode, next, read]
      simp [ih]

/-- Strict reading gives back the characters of a text. -/
theorem decodeStrict_encode (text : String) : decodeStrict (encode text) = some text.toList := by
  unfold encode
  induction text.toList with
  | nil => simp [decodeStrict]
  | cons char chars ih =>
      obtain ⟨first, more, form, read⟩ :=
        head?_encodeChar char (chars.flatMap String.utf8EncodeChar)
      rw [List.flatMap_cons, form, List.cons_append, decodeStrict, read]
      simp [ih]

/-! ## Only the forms of texts are read strictly -/

theorem continuation?_eq_some_iff {byte : UInt8} {payload : Nat} :
    continuation? byte = some payload ↔
      0x80 ≤ byte.toNat ∧ byte.toNat ≤ 0xBF ∧ payload = byte.toNat - 0x80 := by
  unfold continuation?
  split
  · next isContinuation =>
      obtain ⟨low, high⟩ := isContinuation
      rw [UInt8.le_iff_toNat_le] at low high
      have low : 0x80 ≤ byte.toNat := low
      have high : byte.toNat ≤ 0xBF := high
      simp [low, high, eq_comm]
  · next other =>
      rw [UInt8.le_iff_toNat_le, UInt8.le_iff_toNat_le] at other
      constructor
      · intro none_eq
        cases none_eq
      · rintro ⟨low, high, -⟩
        exact absurd ⟨low, high⟩ other

theorem code_of_scalar? {least code : Nat} {char : Char} (isScalar : scalar? least code = some char) :
    least ≤ code ∧ (code < 0xD800 ∨ 0xDFFF < code ∧ code < 0x110000) := by
  unfold scalar? at isScalar
  split at isScalar
  · assumption
  · cases isScalar

theorem exists_of_getElem?_zero (bytes : Bytes) {byte : UInt8} (isFirst : bytes[0]? = some byte) :
    ∃ more, bytes = byte :: more := by
  cases bytes with
  | nil => cases isFirst
  | cons first more =>
      cases isFirst
      exact ⟨more, rfl⟩

end StackMachine.Utf8
