import StackMachine.Text.Utf8

/-!
# White space and the words of an input

The words that a running program reads are the maximal runs of characters that
are not Unicode white space.
-/

namespace StackMachine

/-- The characters with the Unicode property White_Space. -/
def isBlank (c : Char) : Bool :=
  (0x09 ≤ c.toNat && c.toNat ≤ 0x0D) || c.toNat == 0x20 || c.toNat == 0x85
    || c.toNat == 0xA0 || c.toNat == 0x1680 || (0x2000 ≤ c.toNat && c.toNat ≤ 0x200A)
    || c.toNat == 0x2028 || c.toNat == 0x2029 || c.toNat == 0x202F || c.toNat == 0x205F
    || c.toNat == 0x3000

/-- The failure of the device behind a source of text, in the device's own words. -/
structure ReadFault where
  message : String
  deriving DecidableEq, Repr

/-- Text that is still to be read: the characters that will be delivered, and the
failure that comes after them, or `none` where the text simply ends. -/
structure Input where
  unread : List Char
  fault : Option ReadFault := none
  deriving DecidableEq, Repr

namespace Input

/-- An input without any text. -/
def empty : Input := ⟨[], none⟩

/-- The input that delivers the characters of a byte string. -/
def ofBytes (bytes : Bytes) : Input := ⟨Utf8.decode bytes, none⟩

/-- The input that delivers the first `count` bytes and then fails.  A character
cut by the failure reads as one replacement character for each of its bytes. -/
def failingAfter (count : Nat) (fault : ReadFault) (bytes : Bytes) : Input :=
  ⟨Utf8.decode (bytes.take count), some fault⟩

/-- What reading a word gives. -/
inductive WordResult where
  /-- A word; the white space character after it has been taken too. -/
  | word (text : String)
  /-- The text ended before a word began. -/
  | ended
  /-- The device failed before the end of a word was seen. -/
  | failed (fault : ReadFault)
  deriving DecidableEq, Repr

/-- Reads one word: leading white space, the word, and one white space character
after it if there is one.  A word is cut short by a failure but not by the end of the text. -/
def readWord (input : Input) : WordResult × Input :=
  let text := input.unread.dropWhile isBlank
  let word := text.takeWhile (fun c => !isBlank c)
  let input' := { input with unread := (text.dropWhile (fun c => !isBlank c)).drop 1 }
  match text.dropWhile (fun c => !isBlank c), input.fault with
  | [], some fault => (.failed fault, input')
  | [], none => (if word.isEmpty then .ended else .word (String.ofList word), input')
  | _ :: _, _ => (.word (String.ofList word), input')

/-- The results of up to `count` reads, stopping after the first that is no word. -/
def readWords : Nat → Input → List WordResult
  | 0, _ => []
  | count + 1, input =>
      match readWord input with
      | (.word text, rest) => .word text :: readWords count rest
      | (stop, _) => [stop]

end Input

end StackMachine
