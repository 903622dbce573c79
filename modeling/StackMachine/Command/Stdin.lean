import StackMachine.Text.Blank

/-!
# Standard input

Each command reads on where the last one stopped.  An input that cannot be read by
the character is read through a buffer, which each command makes anew: what the
buffer of one command holds at its end is lost to the next.
-/

namespace StackMachine

namespace Utf8

/-- The length of a sequence with this first byte, and the range of its second byte.  A byte that
begins no sequence stands alone. -/
def sequenceShape (first : UInt8) : Nat × UInt8 × UInt8 :=
  if first < 0xC2 then (1, 0x80, 0xBF)
  else if first < 0xE0 then (2, 0x80, 0xBF)
  else if first == 0xE0 then (3, 0xA0, 0xBF)
  else if first == 0xED then (3, 0x80, 0x9F)
  else if first < 0xF0 then (3, 0x80, 0xBF)
  else if first == 0xF0 then (4, 0x90, 0xBF)
  else if first < 0xF4 then (4, 0x80, 0xBF)
  else if first == 0xF4 then (4, 0x80, 0x8F)
  else (1, 0x80, 0xBF)

/-- More bytes could not change the first character. -/
def isDecided : Bytes → Bool
  | [] => false
  | first :: rest =>
      let (width, low, high) := sequenceShape first
      width ≤ (first :: rest).length
        || rest[0]?.any (fun byte => byte < low || high < byte)
        || rest[1]?.any (fun byte => byte < 0x80 || 0xBF < byte)

end Utf8

/-- The input of a command line that has not been read yet. -/
structure Stdin where
  unread : Bytes := []
  /-- It can only be read through a buffer. -/
  buffered : Bool := false
  deriving DecidableEq, Repr

namespace Stdin

/-- The size of a buffer. -/
def bufferSize : Nat := 4096

/-- The text that a command can read. -/
def input (stdin : Stdin) : Input := .ofBytes stdin.unread

/-- What is left behind a buffer from which a number of characters have been taken.  The buffer
takes as much as it has room for when its first character is not decided. -/
def behindBuffer : (count : Nat) → (buffer source : Bytes) → Bytes
  | 0, _, source => source
  | count + 1, buffer, source =>
      if Utf8.isDecided buffer then behindBuffer count (Utf8.dropChars 1 buffer) source
      else
        let room := bufferSize - buffer.length
        behindBuffer count (Utf8.dropChars 1 (buffer ++ source.take room)) (source.drop room)

/-- The input after a command has taken a number of characters. -/
def advance (count : Nat) (stdin : Stdin) : Stdin :=
  { stdin with
    unread :=
      if stdin.buffered then behindBuffer count [] stdin.unread
      else Utf8.dropChars count stdin.unread }

/-- The input after a command that has left some of the text unread. -/
def after (stdin : Stdin) (input : Input) : Stdin :=
  stdin.advance (stdin.input.unread.length - input.unread.length)

end Stdin

end StackMachine
