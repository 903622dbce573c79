import StackMachine.Number.Rounding
import StackMachine.Text.Utf8

/-!
# CBOR data items

The binary data format of images.  An item begins with a head: three bits of major
type and a number, in up to eight more bytes.  Reading accepts every spelling of an
item: heads that are longer than needed, and strings, arrays and maps whose length
is not given but ended by a break.  Writing chooses the shortest spelling.

A map is held as the flat list of its keys and values in turn, and a text as the list
of the chunks it was written in.
-/

namespace StackMachine.Cbor

/-- The width of a floating-point item. -/
inductive FloatWidth where
  | half
  | single
  | double
  deriving DecidableEq, Repr

/-- The number format of a width. -/
def FloatWidth.format : FloatWidth → BinaryFormat
  | .half => .half
  | .single => .single
  | .double => .double

/-- A data item. -/
inductive Item where
  | unsigned (n : Nat)
  /-- The number `-1 - n`. -/
  | negative (n : Nat)
  | bytes (content : Bytes)
  | text (chunks : List Bytes)
  | array (items : List Item)
  /-- Keys and values in turn. -/
  | map (entries : List Item)
  /-- A number without further meaning, or one of false, true, null and undefined. -/
  | simple (n : Nat)
  | float (width : FloatWidth) (bits : Nat)
  deriving Repr

namespace Item

/-- The item for an absent value. -/
def null : Item := .simple 22

/-- Null and undefined both stand for an absent value. -/
def isNull : Item → Bool
  | .simple n => n == 22 || n == 23
  | _ => false

end Item

/-! ## Writing -/

/-- A number in big-endian bytes. -/
def bigEndian : (width : Nat) → (n : Nat) → Bytes
  | 0, _ => []
  | width + 1, n => UInt8.ofNat (n / Nat.pow 256 width) :: bigEndian width (n % Nat.pow 256 width)

/-- The shortest head of a major type and a number.  Eight bytes are the longest number there is:
anything above gets one of the heads that have no meaning, which no reader takes. -/
def head (major n : Nat) : Bytes :=
  if n < 24 then [UInt8.ofNat (major * 32 + n)]
  else if n < 0x100 then UInt8.ofNat (major * 32 + 24) :: bigEndian 1 n
  else if n < 0x10000 then UInt8.ofNat (major * 32 + 25) :: bigEndian 2 n
  else if n < 0x100000000 then UInt8.ofNat (major * 32 + 26) :: bigEndian 4 n
  else if n < 0x10000000000000000 then UInt8.ofNat (major * 32 + 27) :: bigEndian 8 n
  else [UInt8.ofNat (major * 32 + 28)]

/-- A floating-point item of a width. -/
def floatBytes : FloatWidth → Nat → Bytes
  | .half, bits => 0xF9 :: bigEndian 2 bits
  | .single, bits => 0xFA :: bigEndian 4 bits
  | .double, bits => 0xFB :: bigEndian 8 bits

namespace Item

mutual

/-- The shortest spelling of an item. -/
def encode : Item → Bytes
  | .unsigned n => head 0 n
  | .negative n => head 1 n
  | .bytes content => head 2 content.length ++ content
  | .text chunks => head 3 chunks.flatten.length ++ chunks.flatten
  | .array items => head 4 items.length ++ encodeAll items
  | .map entries => head 5 (entries.length / 2) ++ encodeAll entries
  | .simple n => head 7 n
  | .float width bits => floatBytes width bits

/-- Items one after the other. -/
def encodeAll : List Item → Bytes
  | [] => []
  | item :: rest => encode item ++ encodeAll rest

end

end Item

/-! ## Reading -/

/-- The number in some big-endian bytes. -/
def ofBigEndian (bytes : Bytes) : Nat :=
  bytes.foldl (fun n byte => n * 256 + byte.toNat) 0

/-- A head as it was read. -/
structure Head where
  major : Nat
  /-- The low five bits of the first byte. -/
  info : Nat
  /-- The number. -/
  argument : Nat
  deriving DecidableEq, Repr

/-- A number of bytes from the front. -/
def takeBytes (count : Nat) (bytes : Bytes) : Option (Bytes × Bytes) :=
  if count ≤ bytes.length then some (bytes.take count, bytes.drop count) else none

/-- Reads a head.  Three values of the low bits have no meaning. -/
def readHead : Bytes → Option (Head × Bytes)
  | [] => none
  | first :: rest =>
      let major := first.toNat / 32
      let info := first.toNat % 32
      let extended (width : Nat) : Option (Head × Bytes) := do
        let (argument, rest) ← takeBytes width rest
        return (⟨major, info, ofBigEndian argument⟩, rest)
      if info < 24 ∨ info = 31 then some (⟨major, info, info⟩, rest)
      else if info = 24 then extended 1
      else if info = 25 then extended 2
      else if info = 26 then extended 4
      else if info = 27 then extended 8
      else none

/-- A list or a map longer than this is refused. -/
def maxElements : Nat := 131072

/-- The deepest nesting of arrays and maps. -/
def maxLevels : Nat := 32

/-- Reads a given number of items. -/
def readMany {α : Type} (read : Bytes → Option (α × Bytes)) :
    Nat → Bytes → Option (List α × Bytes)
  | 0, bytes => some ([], bytes)
  | count + 1, bytes => do
      let (item, bytes) ← read bytes
      let (items, bytes) ← readMany read count bytes
      return (item :: items, bytes)

/-- Reads items up to a break, at most `fuel` of them. -/
def readToBreak {α : Type} (read : Bytes → Option (α × Bytes)) :
    (fuel : Nat) → Bytes → Option (List α × Bytes)
  | 0, _ => none
  | _ + 1, [] => none
  | fuel + 1, first :: rest =>
      if first = 0xFF then some ([], rest)
      else do
        let (item, bytes) ← read (first :: rest)
        let (items, bytes) ← readToBreak read fuel bytes
        return (item :: items, bytes)

/-- Reads one chunk of a string of a major type; its length must be given. -/
def readChunk (major : Nat) (bytes : Bytes) : Option (Bytes × Bytes) := do
  let (head, bytes) ← readHead bytes
  guard (head.major = major ∧ head.info ≠ 31)
  takeBytes head.argument bytes

/-- Reads the chunks of a string whose head has been read. -/
def readChunks (head : Head) (bytes : Bytes) : Option (List Bytes × Bytes) :=
  if head.info = 31 then readToBreak (readChunk head.major) (bytes.length + 1) bytes
  else do
    let (content, bytes) ← takeBytes head.argument bytes
    return ([content], bytes)

/-- Reads the members of an array (`each = 1`) or map (`each = 2`) whose head has been read. -/
def readMembers {α : Type} (read : Bytes → Option (α × Bytes)) (each : Nat) (head : Head)
    (bytes : Bytes) : Option (List α × Bytes) :=
  if head.info = 31 then do
    let (items, bytes) ← readToBreak read (bytes.length + 1) bytes
    guard (items.length % each = 0 ∧ items.length / each ≤ maxElements)
    return (items, bytes)
  else if head.argument ≤ maxElements then readMany read (each * head.argument) bytes
  else none

/-- The item of a head of major type 7. -/
def ofSimpleHead (head : Head) : Option Item :=
  if head.info < 24 then some (.simple head.argument)
  else if head.info = 24 then
    if 32 ≤ head.argument then some (.simple head.argument) else none
  else if head.info = 25 then some (.float .half head.argument)
  else if head.info = 26 then some (.float .single head.argument)
  else if head.info = 27 then some (.float .double head.argument)
  else none

/-- Reads an item that is no array or map and whose head has been read.  Tags are not part of
images. -/
def readLeaf (head : Head) (bytes : Bytes) : Option (Item × Bytes) :=
  match head.major with
  | 0 => if head.info = 31 then none else some (.unsigned head.argument, bytes)
  | 1 => if head.info = 31 then none else some (.negative head.argument, bytes)
  | 2 => do
      let (chunks, bytes) ← readChunks head bytes
      return (.bytes chunks.flatten, bytes)
  | 3 => do
      let (chunks, bytes) ← readChunks head bytes
      return (.text chunks, bytes)
  | 7 => (ofSimpleHead head).map fun item => (item, bytes)
  | _ => none

/-- Reads an item that may nest arrays and maps `levels` deep. -/
def readItem : (levels : Nat) → Bytes → Option (Item × Bytes)
  | 0, bytes => do
      let (head, bytes) ← readHead bytes
      readLeaf head bytes
  | levels + 1, bytes => do
      let (head, bytes) ← readHead bytes
      if head.major = 4 then
        let (items, bytes) ← readMembers (readItem levels) 1 head bytes
        return (.array items, bytes)
      else if head.major = 5 then
        let (entries, bytes) ← readMembers (readItem levels) 2 head bytes
        return (.map entries, bytes)
      else readLeaf head bytes

/-- The item that a byte string spells, with nothing after it. -/
def decode (bytes : Bytes) : Option Item :=
  match readItem maxLevels bytes with
  | some (item, []) => some item
  | _ => none

end StackMachine.Cbor
