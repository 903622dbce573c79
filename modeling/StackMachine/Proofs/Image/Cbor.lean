import Mathlib
import StackMachine.Image.Cbor

/-!
# Reading what was written

The shortest spelling of a data item is read back as that item, exactly when it keeps the limits
of a reader: numbers of at most eight bytes, so many members of an array or map, and so many
levels of them.  `Plain` says which items writing can spell, `Fits` which of them a reader takes.
-/

namespace StackMachine.Cbor

/-! ## Numbers -/

@[simp]
theorem length_bigEndian (width n : Nat) : (bigEndian width n).length = width := by
  induction width generalizing n with
  | zero => rfl
  | succ width ih => simp [bigEndian, ih]

/-- Big-endian bytes after a number of which some has been read already. -/
theorem foldl_bigEndian (width n first : Nat) (small : n < 256 ^ width) :
    (bigEndian width n).foldl (fun n byte => n * 256 + byte.toNat) first =
      first * 256 ^ width + n := by
  induction width generalizing n first with
  | zero =>
      have zero : n = 0 := by simpa using small
      simp [bigEndian, zero]
  | succ width ih =>
      have positive : 0 < 256 ^ width := Nat.pow_pos (by decide)
      have digit : n / 256 ^ width < 256 := by
        rw [Nat.div_lt_iff_lt_mul positive, Nat.mul_comm]
        rwa [Nat.pow_succ] at small
      have byte : (UInt8.ofNat (n / 256 ^ width)).toNat = n / 256 ^ width :=
        UInt8.toNat_ofNat_of_lt' digit
      simp only [bigEndian, List.foldl_cons, Nat.pow_eq]
      rw [ih _ _ (Nat.mod_lt _ positive), byte]
      calc
        (first * 256 + n / 256 ^ width) * 256 ^ width + n % 256 ^ width =
            first * 256 ^ (width + 1) + (256 ^ width * (n / 256 ^ width) + n % 256 ^ width) := by
          ring
        _ = first * 256 ^ (width + 1) + n := by rw [Nat.div_add_mod]

theorem ofBigEndian_bigEndian {width n : Nat} (small : n < 256 ^ width) :
    ofBigEndian (bigEndian width n) = n := by
  simpa [ofBigEndian] using foldl_bigEndian width n 0 small

theorem takeBytes_append (bytes rest : Bytes) :
    takeBytes bytes.length (bytes ++ rest) = some (bytes, rest) := by
  simp [takeBytes]

/-! ## Heads -/

/-- The low bits of the shortest head of a number. -/
def headInfo (n : Nat) : Nat :=
  if n < 24 then n
  else if n < 0x100 then 24
  else if n < 0x10000 then 25
  else if n < 0x100000000 then 26
  else 27

theorem headInfo_lt (n : Nat) : headInfo n < 28 := by
  unfold headInfo
  split_ifs <;> omega

theorem headInfo_ne (n : Nat) : headInfo n ≠ 31 := by
  have := headInfo_lt n
  omega

/-- A number that a head can hold. -/
def HeadHolds (n : Nat) : Prop := n < 0x10000000000000000

/-- The first byte of a head. -/
theorem toNat_first (major info : Nat) (isMajor : major < 8) (isInfo : info < 32) :
    (UInt8.ofNat (major * 32 + info)).toNat / 32 = major ∧
      (UInt8.ofNat (major * 32 + info)).toNat % 32 = info := by
  rw [UInt8.toNat_ofNat_of_lt' (by simp only [UInt8.size]; omega)]
  omega

/-- A first byte that announces the bytes of a number, and those bytes. -/
theorem readHead_extended (major info width : Nat) {n : Nat} (isMajor : major < 8)
    (announces : (info = 24 ∧ width = 1) ∨ (info = 25 ∧ width = 2) ∨ (info = 26 ∧ width = 4) ∨
      (info = 27 ∧ width = 8)) (small : n < 256 ^ width) (rest : Bytes) :
    readHead (UInt8.ofNat (major * 32 + info) :: bigEndian width n ++ rest) =
      some (⟨major, info, n⟩, rest) := by
  obtain ⟨majorEq, infoEq⟩ := toNat_first major info isMajor (by omega)
  have taken : takeBytes width (bigEndian width n ++ rest) = some (bigEndian width n, rest) := by
    simpa using takeBytes_append (bigEndian width n) rest
  simp only [readHead, List.cons_append, majorEq, infoEq]
  rcases announces with ⟨rfl, rfl⟩ | ⟨rfl, rfl⟩ | ⟨rfl, rfl⟩ | ⟨rfl, rfl⟩ <;>
    simp [taken, ofBigEndian_bigEndian small]

/-- A head that holds its number is read back. -/
theorem readHead_head {major n : Nat} (isMajor : major < 8) (holds : HeadHolds n) (rest : Bytes) :
    readHead (head major n ++ rest) = some (⟨major, headInfo n, n⟩, rest) := by
  unfold HeadHolds at holds
  unfold head headInfo
  split_ifs with one two four eight
  · obtain ⟨majorEq, infoEq⟩ := toNat_first major n isMajor (by omega)
    simp only [readHead, List.cons_append, List.nil_append, majorEq, infoEq]
    rw [if_pos (.inl one)]
  · exact readHead_extended _ _ _ isMajor (by omega) (by omega) rest
  · exact readHead_extended _ _ _ isMajor (by omega) (by omega) rest
  · exact readHead_extended _ _ _ isMajor (by omega) (by omega) rest
  · exact readHead_extended _ _ _ isMajor (by omega) (by omega) rest

/-- No reader takes the head of a number that is too large. -/
theorem readHead_head_eq_none {major n : Nat} (isMajor : major < 8) (large : ¬ HeadHolds n)
    (rest : Bytes) : readHead (head major n ++ rest) = none := by
  unfold HeadHolds at large
  obtain ⟨-, infoEq⟩ := toNat_first major 28 isMajor (by omega)
  unfold head
  rw [if_neg (by omega), if_neg (by omega), if_neg (by omega), if_neg (by omega), if_neg large]
  simp only [readHead, List.cons_append, List.nil_append, infoEq]
  rfl

/-! ## Strings and leaves -/

/-- A string whose length is given is its content. -/
theorem readChunks_content (major : Nat) (content rest : Bytes) :
    readChunks ⟨major, headInfo content.length, content.length⟩ (content ++ rest) =
      some ([content], rest) := by
  simp [readChunks, headInfo_ne, takeBytes_append]

/-- The number of bytes of a floating-point item after its first. -/
def FloatWidth.bytes : FloatWidth → Nat
  | .half => 2
  | .single => 4
  | .double => 8

/-- The low bits of the first byte of a floating-point item. -/
def FloatWidth.info : FloatWidth → Nat
  | .half => 25
  | .single => 26
  | .double => 27

theorem readHead_floatBytes {width : FloatWidth} {bits : Nat} (small : bits < 256 ^ width.bytes)
    (rest : Bytes) :
    readHead (floatBytes width bits ++ rest) = some (⟨7, width.info, bits⟩, rest) := by
  cases width with
  | half => exact readHead_extended 7 25 2 (by decide) (by decide) small rest
  | single => exact readHead_extended 7 26 4 (by decide) (by decide) small rest
  | double => exact readHead_extended 7 27 8 (by decide) (by decide) small rest

namespace Item

/-- Items that writing can spell, to a number of levels: texts in one piece, maps of keys with
values, simple values without bytes of their own, and numbers of their width. -/
def Plain : (levels : Nat) → Item → Prop
  | _, .text chunks => ∃ content, chunks = [content]
  | _, .simple n => n < 24
  | _, .float width bits => bits < 256 ^ width.bytes
  | 0, .array _ => True
  | 0, .map _ => True
  | levels + 1, .array items => ∀ item ∈ items, Plain levels item
  | levels + 1, .map entries => entries.length % 2 = 0 ∧ ∀ entry ∈ entries, Plain levels entry
  | _, _ => True

/-- Items that keep the limits of a reader who may go down a number of levels. -/
def Fits : (levels : Nat) → Item → Prop
  | _, .unsigned n => HeadHolds n
  | _, .negative n => HeadHolds n
  | _, .bytes content => HeadHolds content.length
  | _, .text chunks => HeadHolds chunks.flatten.length
  | _, .simple _ => True
  | _, .float _ _ => True
  | 0, .array _ => False
  | 0, .map _ => False
  | levels + 1, .array items => items.length ≤ maxElements ∧ ∀ item ∈ items, Fits levels item
  | levels + 1, .map entries =>
      entries.length / 2 ≤ maxElements ∧ ∀ entry ∈ entries, Fits levels entry

end Item

/-- An item that is no array or map is read from its head, on whatever level. -/
theorem readItem_leaf {levels : Nat} {found : Head} {bytes rest : Bytes}
    (read : readHead bytes = some (found, rest)) (notArray : found.major ≠ 4)
    (notMap : found.major ≠ 5) : readItem levels bytes = readLeaf found rest := by
  cases levels with
  | zero => simp [readItem, read]
  | succ levels => simp [readItem, read, notArray, notMap]

namespace Item

/-- A plain item that fits and is no array or map is read back, on whatever level. -/
theorem readItem_encode_leaf {levels : Nat} {item : Item} (plain : item.Plain levels)
    (fits : item.Fits levels) (notArray : ∀ items, item ≠ .array items)
    (notMap : ∀ entries, item ≠ .map entries) (rest : Bytes) :
    readItem levels (item.encode ++ rest) = some (item, rest) := by
  cases item with
  | unsigned n =>
      have holds : HeadHolds n := by cases levels <;> exact fits
      rw [encode, readItem_leaf (readHead_head (by decide) holds rest) (by simp) (by simp)]
      simp [readLeaf, headInfo_ne]
  | negative n =>
      have holds : HeadHolds n := by cases levels <;> exact fits
      rw [encode, readItem_leaf (readHead_head (by decide) holds rest) (by simp) (by simp)]
      simp [readLeaf, headInfo_ne]
  | bytes content =>
      have holds : HeadHolds content.length := by cases levels <;> exact fits
      rw [encode, List.append_assoc,
        readItem_leaf (readHead_head (by decide) holds _) (by simp) (by simp)]
      simp [readLeaf, readChunks_content]
  | text chunks =>
      obtain ⟨content, rfl⟩ : ∃ content, chunks = [content] := by cases levels <;> exact plain
      have holds : HeadHolds content.length := by cases levels <;> simpa [Fits] using fits
      rw [encode, List.flatten_singleton, List.append_assoc,
        readItem_leaf (readHead_head (by decide) holds _) (by simp) (by simp)]
      simp [readLeaf, readChunks_content]
  | array items => exact absurd rfl (notArray items)
  | map entries => exact absurd rfl (notMap entries)
  | simple n =>
      have small : n < 24 := by cases levels <;> exact plain
      have holds : HeadHolds n := small.trans (by decide)
      rw [encode, readItem_leaf (readHead_head (by decide) holds rest) (by simp) (by simp)]
      simp [readLeaf, ofSimpleHead, headInfo, small]
  | float width bits =>
      have small : bits < 256 ^ width.bytes := by cases levels <;> exact plain
      rw [encode, readItem_leaf (readHead_floatBytes small rest) (by simp) (by simp)]
      cases width <;> rfl

/-- Items that are read back one by one are read back in a row. -/
theorem readMany_encodeAll {read : Bytes → Option (Item × Bytes)} {items : List Item}
    (reads : ∀ item ∈ items, ∀ rest, read (item.encode ++ rest) = some (item, rest))
    (rest : Bytes) : readMany read items.length (encodeAll items ++ rest) = some (items, rest) := by
  induction items with
  | nil => rfl
  | cons item items ih =>
      have first := reads item List.mem_cons_self (encodeAll items ++ rest)
      have others := ih fun other mem => reads other (List.mem_cons_of_mem item mem)
      simp only [List.length_cons, encodeAll, List.append_assoc]
      simp [readMany, first, others]

/-- A plain item that fits is read back. -/
theorem readItem_encode {levels : Nat} {item : Item} (plain : item.Plain levels)
    (fits : item.Fits levels) (rest : Bytes) :
    readItem levels (item.encode ++ rest) = some (item, rest) := by
  induction levels generalizing item rest with
  | zero =>
      refine readItem_encode_leaf plain fits ?_ ?_ rest
      · rintro items rfl
        exact fits
      · rintro entries rfl
        exact fits
  | succ levels ih =>
      cases item with
      | array items =>
          obtain ⟨few, itemsFit⟩ := fits
          have holds : HeadHolds items.length := few.trans_lt (by decide)
          have members : readMany (readItem levels) items.length (encodeAll items ++ rest) =
              some (items, rest) :=
            readMany_encodeAll
              (fun item mem rest => ih (plain item mem) (itemsFit item mem) rest) rest
          rw [encode, List.append_assoc, readItem, readHead_head (by decide) holds]
          simp [readMembers, headInfo_ne, few, members]
      | map entries =>
          obtain ⟨even, entriesPlain⟩ := plain
          obtain ⟨few, entriesFit⟩ := fits
          have holds : HeadHolds (entries.length / 2) := few.trans_lt (by decide)
          have members : readMany (readItem levels) entries.length (encodeAll entries ++ rest) =
              some (entries, rest) :=
            readMany_encodeAll
              (fun entry mem rest => ih (entriesPlain entry mem) (entriesFit entry mem) rest) rest
          have whole : 2 * (entries.length / 2) = entries.length := by omega
          rw [encode, List.append_assoc, readItem, readHead_head (by decide) holds]
          simp [readMembers, headInfo_ne, few, whole, members]
      | unsigned | negative | bytes | text | simple | float =>
          exact readItem_encode_leaf plain fits nofun nofun rest

/-! ## Only what fits is read -/

theorem readItem_eq_none {levels : Nat} {bytes : Bytes} (unread : readHead bytes = none) :
    readItem levels bytes = none := by
  cases levels <;> simp [readItem, unread]

/-- An item whose spelling begins with a head is read only if the head holds its number. -/
theorem headHolds_of_readItem {levels major n : Nat} {rest : Bytes} {result : Item × Bytes}
    (isMajor : major < 8) (read : readItem levels (head major n ++ rest) = some result) :
    HeadHolds n := by
  by_contra large
  rw [readItem_eq_none (readHead_head_eq_none isMajor large rest)] at read
  cases read

/-- Items that are read in a row all fit, if each one that is read fits. -/
theorem fits_of_readMany {levels : Nat} {items : List Item}
    (plain : ∀ item ∈ items, item.Plain levels)
    (fits : ∀ item ∈ items, ∀ rest result,
      readItem levels (item.encode ++ rest) = some result → item.Fits levels)
    {rest : Bytes} {result : List Item × Bytes}
    (read : readMany (readItem levels) items.length (encodeAll items ++ rest) = some result) :
    ∀ item ∈ items, item.Fits levels := by
  induction items generalizing result with
  | nil => nofun
  | cons item items ih =>
      rw [encodeAll, List.append_assoc, List.length_cons, readMany] at read
      obtain ⟨first, readFirst, read⟩ := Option.bind_eq_some_iff.mp read
      have firstFits := fits item List.mem_cons_self _ first readFirst
      -- The first item is read back exactly, so the rest is read from where it begins.
      rw [readItem_encode (plain item List.mem_cons_self) firstFits] at readFirst
      cases readFirst
      obtain ⟨others, readOthers, -⟩ := Option.bind_eq_some_iff.mp read
      refine List.forall_mem_cons.mpr ⟨firstFits, ih ?_ ?_ readOthers⟩
      · exact fun other mem => plain other (List.mem_cons_of_mem item mem)
      · exact fun other mem => fits other (List.mem_cons_of_mem item mem)

/-- The members of an array or map whose number is given are so few, and are read in a row. -/
theorem readMembers_eq_some {α : Type} {read : Bytes → Option (α × Bytes)} {each major n : Nat}
    {bytes : Bytes} {result : List α × Bytes}
    (members : readMembers read each ⟨major, headInfo n, n⟩ bytes = some result) :
    n ≤ maxElements ∧ readMany read (each * n) bytes = some result := by
  unfold readMembers at members
  rw [if_neg (headInfo_ne n)] at members
  split at members
  · next few => exact ⟨few, members⟩
  · cases members

/-- An item that is no array or map fits if it is read, on whatever level. -/
theorem fits_of_readItem_leaf {levels : Nat} {item : Item} (notArray : ∀ items, item ≠ .array items)
    (notMap : ∀ entries, item ≠ .map entries) {rest : Bytes} {result : Item × Bytes}
    (read : readItem levels (item.encode ++ rest) = some result) : item.Fits levels := by
  cases item with
  | unsigned n | negative n =>
      have holds : HeadHolds n := headHolds_of_readItem (by decide) read
      cases levels <;> exact holds
  | bytes content =>
      rw [encode, List.append_assoc] at read
      have holds : HeadHolds content.length := headHolds_of_readItem (by decide) read
      cases levels <;> exact holds
  | text chunks =>
      rw [encode, List.append_assoc] at read
      have holds : HeadHolds chunks.flatten.length := headHolds_of_readItem (by decide) read
      cases levels <;> exact holds
  | array items => exact absurd rfl (notArray items)
  | map entries => exact absurd rfl (notMap entries)
  | simple n | float width bits => cases levels <;> trivial

/-- No array or map is read where there is no level left for it. -/
theorem readItem_zero_eq_none {major n : Nat} (nested : major = 4 ∨ major = 5) (rest : Bytes) :
    readItem 0 (head major n ++ rest) = none := by
  have isMajor : major < 8 := by omega
  by_cases holds : HeadHolds n
  · rw [readItem, readHead_head isMajor holds]
    rcases nested with rfl | rfl <;> rfl
  · exact readItem_eq_none (readHead_head_eq_none isMajor holds rest)

/-- Where an array or map is read, its members are so few, and are read in a row. -/
theorem exists_readMany_of_readItem {levels major each n : Nat} {rest : Bytes}
    {result : Item × Bytes} (nested : major = 4 ∧ each = 1 ∨ major = 5 ∧ each = 2)
    (read : readItem (levels + 1) (head major n ++ rest) = some result) :
    n ≤ maxElements ∧ ∃ members, readMany (readItem levels) (each * n) rest = some members := by
  have isMajor : major < 8 := by omega
  have holds : HeadHolds n := headHolds_of_readItem isMajor read
  rw [readItem, readHead_head isMajor holds, Option.bind_eq_bind, Option.bind_some] at read
  rcases nested with ⟨rfl, rfl⟩ | ⟨rfl, rfl⟩
  all_goals
    obtain ⟨members, found, -⟩ := Option.bind_eq_some_iff.mp read
    obtain ⟨few, found⟩ := readMembers_eq_some found
    exact ⟨few, members, found⟩

/-- A plain item that is read, as anything, fits. -/
theorem fits_of_readItem {levels : Nat} {item : Item} (plain : item.Plain levels) {rest : Bytes}
    {result : Item × Bytes} (read : readItem levels (item.encode ++ rest) = some result) :
    item.Fits levels := by
  induction levels generalizing item rest result with
  | zero =>
      refine fits_of_readItem_leaf ?_ ?_ read
      · rintro items rfl
        rw [encode, List.append_assoc, readItem_zero_eq_none (.inl rfl)] at read
        cases read
      · rintro entries rfl
        rw [encode, List.append_assoc, readItem_zero_eq_none (.inr rfl)] at read
        cases read
  | succ levels ih =>
      cases item with
      | array items =>
          rw [encode, List.append_assoc] at read
          obtain ⟨few, members, found⟩ := exists_readMany_of_readItem (.inl ⟨rfl, rfl⟩) read
          rw [Nat.one_mul] at found
          exact ⟨few, fits_of_readMany plain
            (fun item mem rest result read => ih (plain item mem) read) found⟩
      | map entries =>
          obtain ⟨even, entriesPlain⟩ := plain
          rw [encode, List.append_assoc] at read
          obtain ⟨few, members, found⟩ := exists_readMany_of_readItem (.inr ⟨rfl, rfl⟩) read
          have whole : 2 * (entries.length / 2) = entries.length := by omega
          rw [whole] at found
          exact ⟨few, fits_of_readMany entriesPlain
            (fun entry mem rest result read => ih (entriesPlain entry mem) read) found⟩
      | unsigned | negative | bytes | text | simple | float =>
          exact fits_of_readItem_leaf nofun nofun read

/-- The spelling of a plain item spells that item if it fits, and nothing otherwise. -/
theorem decode_encode_eq_some_iff {item result : Item} (plain : item.Plain maxLevels) :
    decode item.encode = some result ↔ item.Fits maxLevels ∧ result = item := by
  have whole : item.encode = item.encode ++ [] := (List.append_nil _).symm
  constructor
  · intro decoded
    unfold decode at decoded
    split at decoded
    · next found read =>
        cases decoded
        rw [whole] at read
        have fits := fits_of_readItem plain read
        rw [readItem_encode plain fits] at read
        cases read
        exact ⟨fits, rfl⟩
    · cases decoded
  · rintro ⟨fits, rfl⟩
    rw [decode, whole, readItem_encode plain fits]

end Item

end StackMachine.Cbor
