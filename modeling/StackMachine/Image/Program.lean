import StackMachine.Image.Cbor
import StackMachine.Program.Basic

/-!
# Programs as data items

How a program is laid out in an image.  A record is a map with small integers for
field names, in increasing order; fields of a token that hold nothing are left out.
Reading a record takes the first entry for each field, whether its name is an integer
or a text that spells it, and passes over fields it does not know.
-/

namespace StackMachine

open Cbor (Item)

namespace Image

/-! ## Writing -/

/-- The item of an integer. -/
def ofInt (n : Int) : Item :=
  if n < 0 then .negative (-1 - n).toNat else .unsigned n.toNat

/-- The item of a text. -/
def ofText (text : String) : Item := .text [Utf8.encode text]

/-- The item of a list that may be missing. -/
def ofList {α : Type} (toItem : α → Item) (items : Option (List α)) : Item :=
  match items with
  | none => .null
  | some items => .array (items.map toItem)

/-- A record from its fields; fields without a value are left out. -/
def ofFields (fields : List (Nat × Option Item)) : Item :=
  .map (fields.flatMap fun (name, value) =>
    match value with
    | some item => [.unsigned name, item]
    | none => [])

/-- The shortest item that holds a number exactly; all NaNs are one. -/
def ofFloat (x : Binary32) : Item :=
  if x.isNaN then .float .half 0x7E00
  else
    let sign := if x.isNegative then BinaryFormat.half.signBit else 0
    if x.isInfinite then .float .half (sign + BinaryFormat.half.infinity)
    else
      let den := Nat.pow 2 (BinaryFormat.single.unitExponent - BinaryFormat.half.unitExponent)
      let nearest := BinaryFormat.half.nearest x.units den
      if nearest < BinaryFormat.half.infinity
          ∧ BinaryFormat.half.magnitude nearest * den = x.units then
        .float .half (sign + nearest)
      else .float .single x.bits.toNat

/-- The record of a declared type. -/
def ofType (type : DeclaredType) : Item :=
  ofFields
    [(1, some (.unsigned type.kind.toByte.toNat)),
      (2, if type.className.isEmpty then none else some (ofText type.className))]

/-- The record of a token. -/
def ofToken (token : Token) : Item :=
  ofFields
    [(1, some (.unsigned token.opcode.toByte.toNat)),
      (2, if token.int = 0 then none else some (ofInt token.int.toInt)),
      (3, if token.float.isZero then none else some (ofFloat token.float)),
      (4, if token.index = 0 then none else some (ofInt token.index.toInt)),
      (5, if token.size = 0 then none else some (ofInt token.size.toInt)),
      (6, if token.name.isEmpty then none else some (ofText token.name)),
      (7, if token.params.isEmpty then none else some (.array (token.params.map ofType))),
      (8, some (ofType token.result))]

/-- The order of map keys: shorter spellings first, then by their bytes. -/
def keyOrder (a b : Bytes) : Bool :=
  if a.length = b.length then a ≤ b else a.length < b.length

/-- The map of some labels, in the order of their keys' spellings. -/
def ofListing (labels : List (Int64 × CodeIndex)) : Item :=
  let entries := labels.map fun (id, position) => (ofInt id.toInt, ofInt position.toInt)
  let sorted := entries.mergeSort fun a b => keyOrder a.1.encode b.1.encode
  .map (sorted.flatMap fun (key, value) => [key, value])

/-- The map of a label table, which may be missing. -/
def ofLabels (labels : Option LabelTable) : Item :=
  match labels with
  | none => .null
  | some table => ofListing table.toList

/-- The record of a function body. -/
def ofBody (body : Body) : Item :=
  ofFields
    [(1, some (ofList ofToken (body.code?.map Array.toList))), (2, some (ofLabels body.labels?))]

/-- The record of a function. -/
def ofFunction (function : Function) : Item :=
  ofFields
    [(1, some (ofText function.name)), (2, some (ofList ofType function.params?)),
      (3, some (ofType function.result)), (4, some (ofBody function.body))]

/-- The record of a program. -/
def ofProgram (program : Program) : Item :=
  ofFields [(1, some (ofList ofFunction program.functions?))]

/-! ## Reading -/

/-- A 64-bit word from any integer, modulo `2 ^ 64`. -/
def wrapped (n : Int) : Int := n.bmod 0x10000000000000000

/-- The text of an item all of whose chunks are well formed. -/
def text? (chunks : List Bytes) : Option String := do
  let parts ← chunks.mapM Utf8.decodeStrict
  return String.ofList parts.flatten

/-- The field that a key names: `some none` for a key that names no known field, `none` for a
key that cannot be a name. -/
def fieldName? : Item → Option (Option Nat)
  | .unsigned n => some (some (wrapped n).toNat)
  | .negative n => some (some (wrapped (-1 - n)).toNat)
  | .text chunks => (text? chunks).map fun text =>
      (List.range 9).find? fun n => toString n == text
  | _ => none

/-- The named entries of a record. -/
def named : List Item → Option (List (Nat × Item))
  | key :: value :: rest => do
      let name ← fieldName? key
      let entries ← named rest
      return match name with
        | some name => (name, value) :: entries
        | none => entries
  | _ => some []

/-- The fields of a record; an absent record has none. -/
def fields? : Item → Option (List (Nat × Item))
  | .map entries => named entries
  | item => if item.isNull then some [] else none

/-- A field of a record, or a default if it is absent. -/
def field {α : Type} (fields : List (Nat × Item)) (name : Nat) (default : α)
    (read : Item → Option α) : Option α :=
  match fields.lookup name with
  | some item => read item
  | none => some default

/-- An integer in an inclusive range.  An absent number is zero. -/
def int? (low high : Int) (item : Item) : Option Int :=
  let checked (n : Int) : Option Int := if low ≤ n ∧ n ≤ high then some n else none
  match item with
  | .unsigned n => checked n
  | .negative n => checked (-1 - n)
  | .simple n =>
      if n = 22 ∨ n = 23 then some 0
      else if n = 20 ∨ n = 21 then none
      else checked n
  | _ => none

/-- A byte. -/
def byte? (item : Item) : Option UInt8 := (int? 0 255 item).map fun n => UInt8.ofNat n.toNat

/-- A 32-bit integer. -/
def int32? (item : Item) : Option Int32 :=
  (int? (-0x80000000) 0x7FFFFFFF item).map Int32.ofInt

/-- A 64-bit integer. -/
def int64? (item : Item) : Option Int64 :=
  (int? (-0x8000000000000000) 0x7FFFFFFFFFFFFFFF item).map Int64.ofInt

/-- An integer as a single-precision number, by way of double precision. -/
def floatOfInt (n : Int) : Binary32 :=
  let double :=
    BinaryFormat.double.nearest (n.natAbs * Nat.pow 2 BinaryFormat.double.unitExponent) 1
  .nearest (n < 0) (BinaryFormat.double.magnitude double)
    (Nat.pow 2 (BinaryFormat.double.unitExponent - BinaryFormat.single.unitExponent))

/-- The number of a floating-point item.  A finite number above the largest single-precision one
is refused, any other is rounded. -/
def floatOfBits (width : Cbor.FloatWidth) (bits : Nat) : Option Binary32 :=
  let format := width.format
  let negative := decide (format.signBit ≤ bits)
  let pattern := bits % format.signBit
  if format.infinity < pattern then some .nan
  else if pattern = format.infinity then some (.infinity negative)
  else
    let num := format.magnitude pattern * Nat.pow 2 BinaryFormat.single.unitExponent
    let den := Nat.pow 2 format.unitExponent
    if BinaryFormat.single.magnitude (BinaryFormat.single.infinity - 1) * den < num then none
    else some (.nearest negative num den)

/-- A number.  An absent number is zero. -/
def float? : Item → Option Binary32
  | .float width bits => floatOfBits width bits
  | item =>
      if item.isNull then some .zero
      else (int? (-0x8000000000000000) 0xFFFFFFFFFFFFFFFF item).map floatOfInt

/-- A text.  An absent text is empty. -/
def string? : Item → Option String
  | .text chunks => text? chunks
  | item => if item.isNull then some "" else none

/-- A list that may be absent. -/
def list? {α : Type} (read : Item → Option α) : Item → Option (Option (List α))
  | .array items => (items.mapM read).map some
  | item => if item.isNull then some none else none

/-- Reads the record of a declared type. -/
def type? (item : Item) : Option DeclaredType := do
  let fields ← fields? item
  let kind ← field fields 1 0 byte?
  let className ← field fields 2 "" string?
  return ⟨.ofByte kind, className⟩

/-- Reads the record of a token. -/
def token? (item : Item) : Option Token := do
  let fields ← fields? item
  let opcode ← field fields 1 0 byte?
  let int ← field fields 2 0 int32?
  let float ← field fields 3 .zero float?
  let index ← field fields 4 0 int64?
  let size ← field fields 5 0 int64?
  let name ← field fields 6 "" string?
  let params ← field fields 7 none (list? type?)
  let result ← field fields 8 {} type?
  return { opcode := .ofByte opcode, int, float, index, size, name, result,
           params := params.getD [] }

/-- Reads the entries of a label map.  An absent key or value repeats the one before it; of
several entries for one id the last counts. -/
def labelEntries (table : LabelTable) (id position : Int64) : List Item → Option LabelTable
  | key :: value :: rest => do
      let id ← if key.isNull then some id else int64? key
      let position ← if value.isNull then some position else int64? value
      labelEntries (table.insert id position) id position rest
  | _ => some table

/-- Reads a label map, which may be absent. -/
def labels? : Item → Option (Option LabelTable)
  | .map entries => (labelEntries ∅ 0 0 entries).map some
  | item => if item.isNull then some none else none

/-- Reads the record of a function body. -/
def body? (item : Item) : Option Body := do
  let fields ← fields? item
  let code ← field fields 1 none (list? token?)
  let labels ← field fields 2 none labels?
  return ⟨code.map List.toArray, labels⟩

/-- Reads the record of a function. -/
def function? (item : Item) : Option Function := do
  let fields ← fields? item
  let name ← field fields 1 "" string?
  let params ← field fields 2 none (list? type?)
  let result ← field fields 3 {} type?
  let body ← field fields 4 {} body?
  return ⟨name, params, result, body⟩

/-- Reads the record of a program. -/
def program? (item : Item) : Option Program := do
  let fields ← fields? item
  let functions ← field fields 1 none (list? function?)
  return ⟨functions⟩

end Image

end StackMachine
