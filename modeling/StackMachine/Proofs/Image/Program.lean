import Mathlib
import StackMachine.Image.Program
import StackMachine.Proofs.Image.Cbor
import StackMachine.Proofs.Number.Nearest
import StackMachine.Proofs.Program.Assembled
import StackMachine.Proofs.Text.Utf8

/-!
# Reading the item of a program

Each record of a program is read back from the item that was made of it.  Two things are not kept:
the sign of a zero, since a zero is left out, and the bits of a NaN, since all NaNs are written
alike.  `canonical` is what remains of a number, and of a token, a function and a program with it.

Reading fails only on labels that lead beyond the 64-bit numbers, which no code has room for.
-/

namespace StackMachine

/-! ## What an image keeps -/

/-- The number that stands in an image for a number. -/
def Binary32.canonical (x : Binary32) : Binary32 :=
  if x.isNaN then .nan else if x.isZero then .zero else x

theorem Binary32.canonical_of_isZero {x : Binary32} (zero : x.isZero = true) :
    x.canonical = .zero := by
  have pattern : x.pattern = 0 := by simpa [Binary32.isZero] using zero
  have number : x.isNaN = false := by simp [Binary32.isNaN, pattern]
  simp [Binary32.canonical, number, zero]

/-- A token as an image keeps it. -/
def Token.canonical (token : Token) : Token := { token with float := token.float.canonical }

namespace Image

open Cbor (Item)

/-! ## Numbers -/

/-- An integer is read back if it is in range. -/
theorem int?_ofInt (low high n : Int) :
    int? low high (ofInt n) = if low ≤ n ∧ n ≤ high then some n else none := by
  unfold ofInt
  split
  · next negative =>
      have number : -1 - ((-1 - n).toNat : Int) = n := by omega
      simp only [int?, number]
  · next nonneg =>
      have number : (n.toNat : Int) = n := by omega
      simp only [int?, number]

theorem int32?_ofInt (n : Int32) : int32? (ofInt n.toInt) = some n := by
  have low := n.le_toInt
  have high := n.toInt_lt
  rw [int32?, int?_ofInt, if_pos (by omega), Option.map_some, Int32.ofInt_toInt]

theorem int64?_ofInt (n : Int64) : int64? (ofInt n.toInt) = some n := by
  have low := n.le_toInt
  have high := n.toInt_lt
  rw [int64?, int?_ofInt, if_pos (by omega), Option.map_some, Int64.ofInt_toInt]

theorem byte?_unsigned (byte : UInt8) : byte? (.unsigned byte.toNat) = some byte := by
  have high := byte.toNat_lt
  have inRange : (0 : Int) ≤ byte.toNat ∧ (byte.toNat : Int) ≤ 255 := by omega
  simp only [byte?, int?]
  rw [if_pos inRange, Option.map_some, Int.toNat_natCast, UInt8.ofNat_toNat]

/-- A floating-point item that spells a finite number is read as that number. -/
theorem floatOfBits_of_finite {width : Cbor.FloatWidth} {pattern : Nat} {x : Binary32}
    (finite : x.pattern < BinaryFormat.single.infinity)
    (isFinite : pattern < width.format.infinity)
    (spells : width.format.magnitude pattern * Nat.pow 2 BinaryFormat.single.unitExponent =
      x.units * Nat.pow 2 width.format.unitExponent) :
    floatOfBits width ((if x.isNegative then width.format.signBit else 0) + pattern) = some x := by
  have below := isFinite.trans width.format.infinity_lt_signBit
  have remainder : ((if x.isNegative then width.format.signBit else 0) + pattern) %
      width.format.signBit = pattern := by
    split
    · rw [Nat.add_mod_left, Nat.mod_eq_of_lt below]
    · rw [Nat.zero_add, Nat.mod_eq_of_lt below]
  have sign : decide (width.format.signBit ≤
      (if x.isNegative then width.format.signBit else 0) + pattern) = x.isNegative := by
    cases x.isNegative with
    | false => simpa using below
    | true => simp
  have largest : x.units ≤ BinaryFormat.single.magnitude (BinaryFormat.single.infinity - 1) :=
    BinaryFormat.single.magnitude_strictMono.monotone (Nat.le_sub_one_of_lt finite)
  simp only [floatOfBits, remainder, sign, spells]
  rw [if_neg isFinite.le.not_gt, if_neg isFinite.ne,
    if_neg (Nat.not_lt.mpr (Nat.mul_le_mul_right _ largest))]
  exact congrArg some (Binary32.nearest_units finite (Nat.two_pow_pos _))

/-- The bits of a number are its sign and its pattern. -/
theorem toNat_bits (x : Binary32) :
    x.bits.toNat = (if x.isNegative then BinaryFormat.single.signBit else 0) + x.pattern := by
  conv_lhs => rw [← x.ofPattern_pattern, Binary32.bits_ofPattern x.pattern_lt]
  split <;> simp

theorem float?_ofFloat_of_infinite {x : Binary32} (number : ¬ x.isNaN = true)
    (infinite : x.isInfinite = true) : float? (ofFloat x) = some x := by
  have pattern : x.pattern = BinaryFormat.single.infinity := by
    simpa [Binary32.isInfinite] using infinite
  have whole : Binary32.infinity x.isNegative = x := by
    rw [Binary32.infinity, ← pattern, x.ofPattern_pattern]
  rw [ofFloat, if_neg number]
  dsimp only
  rw [if_pos infinite, ← whole]
  generalize x.isNegative = negative
  cases negative <;> decide

/-- A finite number is read back, whether 16 bits hold it or not. -/
theorem float?_ofFloat_of_finite {x : Binary32} (number : ¬ x.isNaN = true)
    (bounded : ¬ x.isInfinite = true) : float? (ofFloat x) = some x := by
  have finite : x.pattern < BinaryFormat.single.infinity := by
    simp only [Binary32.isNaN, Binary32.isInfinite, decide_eq_true_eq, beq_iff_eq]
      at number bounded
    omega
  rw [ofFloat, if_neg number]
  dsimp only
  rw [if_neg bounded]
  split
  · next short =>
      obtain ⟨isFinite, units⟩ := short
      have scale : Nat.pow 2 BinaryFormat.single.unitExponent =
          Nat.pow 2 (BinaryFormat.single.unitExponent - BinaryFormat.half.unitExponent) *
            Nat.pow 2 BinaryFormat.half.unitExponent := by
        decide
      have read := @floatOfBits_of_finite .half _ x finite isFinite
      rw [Cbor.FloatWidth.format, scale, ← Nat.mul_assoc, units] at read
      rw [float?]
      exact read rfl
  · rw [toNat_bits, float?]
    have read := @floatOfBits_of_finite .single _ x finite finite
    exact read rfl

/-- A number is read back from its item, up to the bits of a NaN. -/
theorem float?_ofFloat (x : Binary32) :
    float? (ofFloat x) = some (if x.isNaN then .nan else x) := by
  by_cases nan : x.isNaN = true
  · rw [ofFloat, if_pos nan, if_pos nan]
    decide
  · rw [if_neg nan]
    by_cases infinite : x.isInfinite = true
    · exact float?_ofFloat_of_infinite nan infinite
    · exact float?_ofFloat_of_finite nan infinite

/-! ## Opcodes and kinds -/

@[simp]
theorem ofByte_toByte_kind (kind : TypeKind) : TypeKind.ofByte kind.toByte = kind := by
  cases kind with
  | reserved offset =>
      have value : (UInt8.ofNat (offset.val + 5)).toNat = offset.val + 5 :=
        UInt8.toNat_ofNat_of_lt' (by simp only [UInt8.size]; omega)
      have unknown : TypeKind.known[offset.val + 5]? = none :=
        List.getElem?_eq_none (Nat.le_add_left _ _)
      have inRange : offset.val % 251 = offset.val := Nat.mod_eq_of_lt offset.isLt
      simp only [TypeKind.ofByte, TypeKind.toByte, value, unknown, Nat.add_sub_cancel, inRange]
  | void | int | float | string | object => rfl

@[simp]
theorem ofByte_toByte_opcode (opcode : Opcode) : Opcode.ofByte opcode.toByte = opcode := by
  cases opcode with
  | reserved offset =>
      have value : (UInt8.ofNat (offset.val + 28)).toNat = offset.val + 28 :=
        UInt8.toNat_ofNat_of_lt' (by simp only [UInt8.size]; omega)
      have unknown : Opcode.named[offset.val + 28]? = none :=
        List.getElem?_eq_none (Nat.le_add_left _ _)
      have inRange : offset.val % 228 = offset.val := Nat.mod_eq_of_lt offset.isLt
      simp only [Opcode.ofByte, Opcode.toByte, value, unknown, Nat.add_sub_cancel, inRange]
  | binary operator => cases operator <;> rfl
  | invalid | rawMark | classMark | functionMark | defun | endef | pushi | pushf | pop | dup
  | load | store | stores | call | label | goto | branch => rfl

/-! ## Texts and lists -/

theorem string?_ofText (text : String) : string? (ofText text) = some text := by
  simp [string?, ofText, text?, Utf8.decodeStrict_encode]

/-- What is read through a conversion, given when and as what it is read without. -/
theorem map_eq_some_iff_of_reads {α β : Type} {read : Option α} {readable : Prop} {value : α}
    (reads : ∀ found, read = some found ↔ readable ∧ found = value) (convert : α → β)
    (result : β) : read.map convert = some result ↔ readable ∧ result = convert value := by
  rw [Option.map_eq_some_iff]
  constructor
  · rintro ⟨found, isFound, rfl⟩
    obtain ⟨holds, rfl⟩ := (reads found).mp isFound
    exact ⟨holds, rfl⟩
  · rintro ⟨holds, rfl⟩
    exact ⟨value, (reads value).mpr ⟨holds, rfl⟩, rfl⟩

section lists

variable {α β : Type} {toItem : α → Item} {read : Item → Option β} {convert : α → β}

/-- A list is read back if its members are. -/
theorem mapM_map_eq_some_iff {Readable : α → Prop}
    (reads : ∀ item b, read (toItem item) = some b ↔ Readable item ∧ b = convert item)
    (items : List α) (result : List β) :
    (items.map toItem).mapM read = some result ↔
      (∀ item ∈ items, Readable item) ∧ result = items.map convert := by
  induction items generalizing result with
  | nil => simp [eq_comm]
  | cons item items ih =>
      rw [List.map_cons, List.mapM_cons, Option.bind_eq_bind, Option.bind_eq_some_iff,
        List.forall_mem_cons]
      constructor
      · rintro ⟨first, readFirst, read⟩
        obtain ⟨others, readOthers, same⟩ := Option.bind_eq_some_iff.mp read
        cases same
        obtain ⟨readable, rfl⟩ := (reads item first).mp readFirst
        obtain ⟨allReadable, rfl⟩ := (ih others).mp readOthers
        exact ⟨⟨readable, allReadable⟩, rfl⟩
      · rintro ⟨⟨readable, allReadable⟩, rfl⟩
        refine ⟨_, (reads item _).mpr ⟨readable, rfl⟩, ?_⟩
        rw [(ih _).mpr ⟨allReadable, rfl⟩]
        rfl

theorem list?_ofList_eq_some_iff {Readable : α → Prop}
    (reads : ∀ item b, read (toItem item) = some b ↔ Readable item ∧ b = convert item)
    (items : Option (List α)) (result : Option (List β)) :
    list? read (ofList toItem items) = some result ↔
      (∀ item ∈ items.getD [], Readable item) ∧ result = items.map (List.map convert) := by
  cases items with
  | none => simp [list?, ofList, Item.null, Item.isNull, eq_comm]
  | some items => exact map_eq_some_iff_of_reads (mapM_map_eq_some_iff reads items) some result

/-- A list of members each of which is read is read. -/
theorem list?_ofList (reads : ∀ item, read (toItem item) = some (convert item))
    (items : Option (List α)) :
    list? read (ofList toItem items) = some (items.map (List.map convert)) := by
  have always : ∀ item b, read (toItem item) = some b ↔ True ∧ b = convert item := by
    intro item b
    rw [reads item, Option.some_inj, true_and, eq_comm]
  exact (list?_ofList_eq_some_iff always items _).mpr ⟨fun _ _ => trivial, rfl⟩

end lists

/-! ## Records -/

/-- The field names that writing uses. -/
def Named (fields : List (Nat × Option Item)) : Prop :=
  (fields.map Prod.fst).Nodup ∧ ∀ name ∈ fields.map Prod.fst, name < 9

theorem fieldName?_unsigned {name : Nat} (small : name < 9) :
    fieldName? (.unsigned name) = some (some name) := by
  have same : wrapped name = name := Int.bmod_eq_of_le (by omega) (by omega)
  rw [fieldName?, same, Int.toNat_natCast]

/-- A record is read as entries in which each field is found, unless it was left out. -/
theorem exists_fields? {fields : List (Nat × Option Item)} (isNamed : Named fields) :
    ∃ entries, fields? (ofFields fields) = some entries ∧
      ∀ name, entries.lookup name = (fields.lookup name).join := by
  obtain ⟨distinct, small⟩ := isNamed
  simp only [fields?, ofFields]
  induction fields with
  | nil => exact ⟨[], rfl, fun name => rfl⟩
  | cons field fields ih =>
      obtain ⟨fresh, distinct⟩ := List.nodup_cons.mp distinct
      obtain ⟨smallFirst, small⟩ := List.forall_mem_cons.mp small
      obtain ⟨entries, read, found⟩ := ih distinct small
      obtain ⟨name, _ | item⟩ := field
      · refine ⟨entries, by simpa using read, fun other => ?_⟩
        rw [found, List.lookup_cons]
        cases same : other == name with
        | false => rfl
        | true =>
            have absent : fields.lookup name = none := by
              rw [List.lookup_eq_none_iff]
              rintro later mem
              have isName : later.1 ∈ fields.map Prod.fst := List.mem_map_of_mem mem
              have ne : name ≠ later.1 := by
                rintro rfl
                exact fresh isName
              simpa using ne
            rw [eq_of_beq same, absent]
            rfl
      · refine ⟨(name, item) :: entries, ?_, fun other => ?_⟩
        · rw [List.flatMap_cons]
          simp only [List.cons_append, List.nil_append, named, fieldName?_unsigned smallFirst, read]
          rfl
        · rw [List.lookup_cons, List.lookup_cons, found]
          cases other == name <;> rfl

/-- A record is read by reading its fields. -/
theorem read_ofFields {α : Type} {fields : List (Nat × Option Item)}
    {next : List (Nat × Item) → Option α} {result : Option α} (isNamed : Named fields)
    (reads : ∀ entries : List (Nat × Item),
      (∀ name, entries.lookup name = (fields.lookup name).join) → next entries = result) :
    (fields? (ofFields fields)).bind next = result := by
  obtain ⟨entries, read, found⟩ := exists_fields? isNamed
  rw [read, Option.bind_some]
  exact reads entries found

section fields

variable {α : Type} {entries : List (Nat × Item)} {name : Nat} {default value : α}
  {read : Item → Option α} {item : Item}

theorem field_of_lookup (found : entries.lookup name = some item) :
    field entries name default read = read item := by
  rw [field, found]

/-- A field that is left out where it has its default. -/
theorem field_of_omitted {absent : Prop} [Decidable absent]
    (found : entries.lookup name = if absent then none else some item)
    (isDefault : absent → value = default) (reads : ¬ absent → read item = some value) :
    field entries name default read = some value := by
  by_cases absence : absent
  · rw [if_pos absence] at found
    rw [field, found, isDefault absence]
  · rw [if_neg absence] at found
    rw [field, found]
    exact reads absence

end fields

theorem type?_ofType (type : DeclaredType) : type? (ofType type) = some type := by
  refine read_ofFields ?_ fun entries found => ?_
  · simp [Named]
  have kind : field entries 1 0 byte? = some type.kind.toByte := by
    rw [field_of_lookup (found 1), byte?_unsigned]
  have className : field entries 2 "" string? = some type.className := by
    refine field_of_omitted (found 2) ?_ fun _ => string?_ofText _
    simp
  simp [kind, className]

theorem token?_ofToken (token : Token) : token? (ofToken token) = some token.canonical := by
  refine read_ofFields ?_ fun entries found => ?_
  · simp [Named]
  have opcode : field entries 1 0 byte? = some token.opcode.toByte := by
    rw [field_of_lookup (found 1), byte?_unsigned]
  have int : field entries 2 0 int32? = some token.int :=
    field_of_omitted (found 2) id fun _ => int32?_ofInt _
  have float : field entries 3 .zero float? = some token.float.canonical := by
    refine field_of_omitted (found 3) ?_ ?_
    · exact Binary32.canonical_of_isZero
    · intro notZero
      rw [float?_ofFloat, Binary32.canonical, if_neg notZero]
  have index : field entries 4 0 int64? = some token.index :=
    field_of_omitted (found 4) id fun _ => int64?_ofInt _
  have size : field entries 5 0 int64? = some token.size :=
    field_of_omitted (found 5) id fun _ => int64?_ofInt _
  have name : field entries 6 "" string? = some token.name := by
    refine field_of_omitted (found 6) ?_ fun _ => string?_ofText _
    simp
  have params : field entries 7 none (list? type?) = some (collected token.params) := by
    refine field_of_omitted (found 7) ?_ ?_
    · intro empty
      rw [collected, if_pos empty]
    · intro given
      rw [collected, if_neg given]
      have read := list?_ofList type?_ofType (some token.params)
      simpa [ofList] using read
  have result : field entries 8 {} type? = some token.result := by
    rw [field_of_lookup (found 8), type?_ofType]
  simp [opcode, int, float, index, size, name, params, result, Token.canonical]

/-! ## Labels -/

/-- A label that leads to a 64-bit number. -/
def InRange (position : CodeIndex) : Prop :=
  -0x8000000000000000 ≤ position.toInt ∧ position.toInt ≤ 0x7FFFFFFFFFFFFFFF

theorem exists_word {position : CodeIndex} (inRange : InRange position) :
    ∃ word : Int64, (word : CodeIndex) = position := by
  obtain ⟨low, high⟩ := inRange
  refine ⟨Int64.ofInt position.toInt, ?_⟩
  rw [Int64.toInt_ofInt_of_le low (by omega)]

theorem int64?_position (position : CodeIndex) (word : Int64) :
    int64? (ofInt position.toInt) = some word ↔
      InRange position ∧ (word : CodeIndex) = position := by
  constructor
  · intro read
    have inRange : InRange position := by
      by_contra outside
      rw [InRange] at outside
      rw [int64?, int?_ofInt, if_neg outside] at read
      cases read
    obtain ⟨same, rfl⟩ := exists_word inRange
    rw [int64?_ofInt] at read
    cases read
    exact ⟨inRange, rfl⟩
  · rintro ⟨-, rfl⟩
    exact int64?_ofInt word

theorem isNull_ofInt (n : Int) : (ofInt n).isNull = false := by
  unfold ofInt
  split <;> rfl

/-- The entries of a label map are read into a table if they are all in range. -/
theorem labelEntries_eq_some_iff (pairs : List (Int64 × CodeIndex)) (table result : LabelTable)
    (id position : Int64) :
    labelEntries table id position
        (pairs.flatMap fun pair => [ofInt pair.1.toInt, ofInt pair.2.toInt]) = some result ↔
      (∀ pair ∈ pairs, InRange pair.2) ∧ result = table.insertMany pairs := by
  induction pairs generalizing table id position with
  | nil => simp [labelEntries, eq_comm]
  | cons pair pairs ih =>
      obtain ⟨key, value⟩ := pair
      rw [List.flatMap_cons, List.cons_append, List.cons_append, List.nil_append, labelEntries,
        List.forall_mem_cons, Std.ExtTreeMap.insertMany_cons]
      simp only [isNull_ofInt, Bool.false_eq_true, if_false, int64?_ofInt, Option.bind_eq_bind,
        Option.bind_some, Option.bind_eq_some_iff, int64?_position, ih]
      constructor
      · rintro ⟨word, ⟨inRange, rfl⟩, others, rfl⟩
        exact ⟨⟨inRange, others⟩, rfl⟩
      · rintro ⟨⟨inRange, others⟩, rfl⟩
        obtain ⟨word, rfl⟩ := exists_word inRange
        exact ⟨word, ⟨inRange, rfl⟩, others, rfl⟩

/-- A table is what its entries make, in whatever order. -/
theorem insertMany_of_perm {table : LabelTable} {pairs : List (Int64 × CodeIndex)}
    (same : pairs.Perm table.toList) : (∅ : LabelTable).insertMany pairs = table := by
  have distinct : pairs.Pairwise fun a b => ¬ compare a.1 b.1 = .eq :=
    same.symm.pairwise Std.ExtTreeMap.distinct_keys_toList fun ne eq =>
      ne (Std.OrientedCmp.eq_symm eq)
  apply Std.ExtTreeMap.ext_getElem?
  intro id
  cases found : table[id]? with
  | some position =>
      have mem : (id, position) ∈ pairs :=
        same.mem_iff.mpr (Std.ExtTreeMap.mem_toList_iff_getElem?_eq_some.mpr found)
      exact Std.ExtTreeMap.getElem?_insertMany_list_of_mem Std.ReflCmp.compare_self distinct mem
  | none =>
      have absent : (pairs.map Prod.fst).contains id = false := by
        rw [Bool.eq_false_iff, ne_eq, List.contains_iff_mem, List.mem_map]
        rintro ⟨⟨key, position⟩, mem, rfl⟩
        have given := Std.ExtTreeMap.mem_toList_iff_getElem?_eq_some.mp (same.mem_iff.mp mem)
        rw [given] at found
        cases found
      rw [Std.ExtTreeMap.getElem?_insertMany_list_of_contains_eq_false absent]
      simp

/-- Labels in the order in which they are written. -/
def inKeyOrder (labels : List (Int64 × CodeIndex)) : List (Int64 × CodeIndex) :=
  labels.mergeSort fun a b => keyOrder (ofInt a.1.toInt).encode (ofInt b.1.toInt).encode

theorem ofListing_eq (labels : List (Int64 × CodeIndex)) :
    ofListing labels =
      .map ((inKeyOrder labels).flatMap fun pair => [ofInt pair.1.toInt, ofInt pair.2.toInt]) := by
  let toItems (pair : Int64 × CodeIndex) : Item × Item :=
    (ofInt pair.1.toInt, ofInt pair.2.toInt)
  have sorted : (inKeyOrder labels).map toItems =
      (labels.map toItems).mergeSort fun a b => keyOrder a.1.encode b.1.encode :=
    List.map_mergeSort fun a _ b _ => rfl
  change Item.map (((labels.map toItems).mergeSort _).flatMap _) = _
  rw [← sorted, List.flatMap_map]

/-- The entries of a label map, in the order in which it is written. -/
def sortedLabels (table : LabelTable) : List (Int64 × CodeIndex) := inKeyOrder table.toList

theorem ofLabels_some (table : LabelTable) :
    ofLabels (some table) =
      .map ((sortedLabels table).flatMap fun pair =>
        [ofInt pair.1.toInt, ofInt pair.2.toInt]) :=
  ofListing_eq table.toList

/-- A label map is read back if its labels are in range. -/
theorem labels?_ofLabels_eq_some_iff (labels result : Option LabelTable) :
    labels? (ofLabels labels) = some result ↔
      (∀ (id : Int64) position, (labels.getD ∅)[id]? = some position → InRange position) ∧
        result = labels := by
  cases labels with
  | none => simp [ofLabels, labels?, Item.null, Item.isNull, eq_comm]
  | some table =>
      have perm : (sortedLabels table).Perm table.toList := List.mergeSort_perm _ _
      have entries : (∀ pair ∈ sortedLabels table, InRange pair.2) ↔
          ∀ (id : Int64) position, table[id]? = some position → InRange position := by
        constructor
        · intro inRange id position found
          exact inRange (id, position)
            (perm.mem_iff.mpr (Std.ExtTreeMap.mem_toList_iff_getElem?_eq_some.mpr found))
        · rintro inRange ⟨id, position⟩ mem
          exact inRange id position
            (Std.ExtTreeMap.mem_toList_iff_getElem?_eq_some.mp (perm.mem_iff.mp mem))
      rw [ofLabels_some, labels?, Option.getD_some, ← entries]
      apply map_eq_some_iff_of_reads
      intro found
      rw [labelEntries_eq_some_iff, insertMany_of_perm perm]

/-! ## Functions and programs -/

/-- A body whose labels lead to 64-bit numbers. -/
def LabelsInRange (body : Body) : Prop :=
  ∀ id position, body.target? id = some position → InRange position

theorem body?_ofBody_eq_some_iff (body result : Body) :
    body? (ofBody body) = some result ↔
      LabelsInRange body ∧ result = body.mapTokens Token.canonical := by
  have read : body? (ofBody body) = (labels? (ofLabels body.labels?)).map fun labels =>
      ⟨body.code?.map (Array.map Token.canonical), labels⟩ := by
    unfold body? ofBody
    refine read_ofFields ?_ fun entries found => ?_
    · simp [Named]
    have code : field entries 1 none (list? token?) =
        some ((body.code?.map Array.toList).map (List.map Token.canonical)) := by
      rw [field_of_lookup (found 1), list?_ofList token?_ofToken]
    have labels : field entries 2 none labels? = labels? (ofLabels body.labels?) :=
      field_of_lookup (found 2)
    have array : ((body.code?.map Array.toList).map (List.map Token.canonical)).map List.toArray =
        body.code?.map (Array.map Token.canonical) := by
      cases body.code? <;> simp [← Array.toList_map]
    simp only [code, labels, array, Option.bind_eq_bind, Option.bind_some]
    exact Option.map_eq_bind.symm
  rw [read]
  exact map_eq_some_iff_of_reads (labels?_ofLabels_eq_some_iff body.labels?) _ result

theorem function?_ofFunction_eq_some_iff (function result : Function) :
    function? (ofFunction function) = some result ↔
      LabelsInRange function.body ∧ result = function.mapTokens Token.canonical := by
  have read : function? (ofFunction function) = (body? (ofBody function.body)).map fun body =>
      { function with body } := by
    unfold function? ofFunction
    refine read_ofFields ?_ fun entries found => ?_
    · simp [Named]
    have name : field entries 1 "" string? = some function.name := by
      rw [field_of_lookup (found 1), string?_ofText]
    have params : field entries 2 none (list? type?) = some function.params? := by
      rw [field_of_lookup (found 2), @list?_ofList _ _ _ _ id type?_ofType]
      simp
    have result : field entries 3 {} type? = some function.result := by
      rw [field_of_lookup (found 3), type?_ofType]
    have body : field entries 4 {} body? = body? (ofBody function.body) :=
      field_of_lookup (found 4)
    simp only [name, params, result, body, Option.bind_eq_bind, Option.bind_some]
    exact Option.map_eq_bind.symm
  rw [read]
  exact map_eq_some_iff_of_reads (body?_ofBody_eq_some_iff function.body) _ result

/-- A program is read back from its item, with canonical numbers, exactly if its labels are in
range. -/
theorem program?_ofProgram_eq_some_iff (program result : Program) :
    program? (ofProgram program) = some result ↔
      (∀ function ∈ program.functions, LabelsInRange function.body) ∧
        result = program.mapTokens Token.canonical := by
  have read : program? (ofProgram program) =
      (list? function? (ofList ofFunction program.functions?)).map Program.mk := by
    unfold program? ofProgram
    refine read_ofFields ?_ fun entries found => ?_
    · simp [Named]
    have functions : field entries 1 none (list? function?) =
        list? function? (ofList ofFunction program.functions?) :=
      field_of_lookup (found 1)
    simp only [functions, Option.bind_eq_bind]
    exact Option.map_eq_bind.symm
  have functions := list?_ofList_eq_some_iff function?_ofFunction_eq_some_iff program.functions?
  rw [read]
  exact map_eq_some_iff_of_reads functions Program.mk result

end Image

end StackMachine
