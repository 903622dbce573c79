/-!
# Reading UTF-8

Bytes become characters one at a time.  A byte that does not begin a well-formed
UTF-8 sequence reads as the replacement character U+FFFD, and reading goes on
with the very next byte, so every byte string has exactly one reading.  Strict
reading, which refuses such a byte, is the same scan with the replacement left
out.
-/

namespace StackMachine

/-- Raw bytes, as they are read from a source or delivered to a sink. -/
abbrev Bytes := List UInt8

namespace Utf8

/-- What a byte outside every well-formed sequence reads as. -/
def replacement : Char := '�'

/-- The six payload bits of a continuation byte. -/
def continuation? (byte : UInt8) : Option Nat :=
  if 0x80 ≤ byte ∧ byte ≤ 0xBF then some (byte.toNat - 0x80) else none

/-- A code point written in a form that may spell numbers from `least` on: overlong
forms, surrogates and numbers above U+10FFFF are no characters. -/
def scalar? (least code : Nat) : Option Char :=
  if least ≤ code ∧ code.isValidChar then some (Char.ofNat code) else none

/-- The character that begins with the byte `first`, together with the number of
bytes of `rest` that belong to it. -/
def head? (first : UInt8) (rest : Bytes) : Option (Char × Nat) := do
  if first < 0x80 then
    return (Char.ofNat first.toNat, 0)
  else if 0xC0 ≤ first ∧ first < 0xE0 then
    let one ← rest[0]? >>= continuation?
    let char ← scalar? 0x80 ((first.toNat - 0xC0) * 64 + one)
    return (char, 1)
  else if 0xE0 ≤ first ∧ first < 0xF0 then
    let one ← rest[0]? >>= continuation?
    let two ← rest[1]? >>= continuation?
    let char ← scalar? 0x800 (((first.toNat - 0xE0) * 64 + one) * 64 + two)
    return (char, 2)
  else if 0xF0 ≤ first ∧ first < 0xF8 then
    let one ← rest[0]? >>= continuation?
    let two ← rest[1]? >>= continuation?
    let three ← rest[2]? >>= continuation?
    let char ← scalar? 0x10000 ((((first.toNat - 0xF0) * 64 + one) * 64 + two) * 64 + three)
    return (char, 3)
  else
    none

/-- The first character of a nonempty byte string and the bytes after it. -/
def next (first : UInt8) (rest : Bytes) : Char × Bytes :=
  match head? first rest with
  | some (char, width) => (char, rest.drop width)
  | none => (replacement, rest)

theorem length_next_le (first : UInt8) (rest : Bytes) :
    (next first rest).2.length ≤ rest.length := by
  unfold next
  split <;> simp

/-- All characters of a byte string. -/
def decode : Bytes → List Char
  | [] => []
  | first :: rest => (next first rest).1 :: decode (next first rest).2
termination_by bytes => bytes.length
decreasing_by
  have := length_next_le first rest
  simp only [List.length_cons]
  omega

/-- The characters of a byte string all of which is well formed. -/
def decodeStrict : Bytes → Option (List Char)
  | [] => some []
  | first :: rest =>
      match head? first rest with
      | none => none
      | some (char, width) => (decodeStrict (rest.drop width)).map (char :: ·)
termination_by bytes => bytes.length
decreasing_by
  simp only [List.length_cons, List.length_drop]
  omega

/-- The bytes left after reading `count` characters. -/
def dropChars : Nat → Bytes → Bytes
  | 0, bytes => bytes
  | _ + 1, [] => []
  | count + 1, first :: rest => dropChars count (next first rest).2

/-- The UTF-8 form of a text. -/
def encode (text : String) : Bytes :=
  text.toList.flatMap String.utf8EncodeChar

/-- The text that a byte string reads as. -/
def text (bytes : Bytes) : String :=
  String.ofList (decode bytes)

end Utf8

end StackMachine
