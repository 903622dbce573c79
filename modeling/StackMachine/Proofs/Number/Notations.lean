import Mathlib
import StackMachine.Command.Flags
import StackMachine.Toml.Tables
import StackMachine.Proofs.Number.Decimal
import StackMachine.Proofs.Number.Floats
import StackMachine.Proofs.Text.Utf8

/-!
# Integers in flags and in documents

Flags and documents write integers in two notations that have the decimal one in common.  In both,
an integer is read from its decimal digits if and only if it fits a word of 64 bits
(`readLiteral_toString`, `Toml.value?_toString`).
-/

namespace StackMachine

/-- The integers of 64 bits. -/
def FitsWord (number : Int) : Prop := -2 ^ 63 ≤ number ∧ number < 2 ^ 63

instance (number : Int) : Decidable (FitsWord number) := inferInstanceAs (Decidable (_ ∧ _))

/-! ## Digits -/

/-- The digits of a number do not begin with a zero, unless it is a lone zero. -/
theorem head?_toDigits {number : Nat} (positive : 0 < number) :
    (Nat.toDigits 10 number).head? ≠ some '0' := by
  induction number using Nat.strongRecOn with
  | ind number ih =>
      rw [Nat.toDigits_eq_if (by decide)]
      by_cases short : number < 10
      · have all : ∀ digit < 10, 0 < digit → Nat.digitChar digit ≠ '0' := by decide
        rw [if_pos short]
        simpa using all number short positive
      · rw [if_neg short, List.head?_append_of_ne_nil _ Nat.toDigits_ne_nil]
        exact ih (number / 10) (by omega) (by omega)

/-- The first digit of a number and the others. -/
theorem exists_toDigits (number : Nat) : ∃ first others,
    Nat.toDigits 10 number = first :: others ∧ (first = '0' → others = []) ∧
    ∀ c ∈ first :: others, c.isDigit = true := by
  obtain ⟨first, others, digits⟩ := List.exists_cons_of_ne_nil (@Nat.toDigits_ne_nil number 10)
  refine ⟨first, others, digits, fun isZero => ?_, fun c isMember =>
    Nat.isDigit_of_mem_toDigits (by decide) (by decide) (digits ▸ isMember)⟩
  rcases Nat.eq_zero_or_pos number with rfl | positive
  · exact (List.cons.inj digits).2.symm
  · have noZero := head?_toDigits positive
    rw [digits, isZero] at noZero
    exact absurd rfl noZero

/-! ## Flags -/

/-- Digits are read in base ten up to a bound. -/
theorem readBaseDigits_ten {digits : List Char} (areDigits : ∀ c ∈ digits, c.isDigit = true)
    {largest value : Nat} (small : value ≤ largest) :
    readBaseDigits 10 largest value digits =
      if Nat.ofDigitChars 10 digits value ≤ largest then .ok (Nat.ofDigitChars 10 digits value)
      else .error .range := by
  induction digits generalizing value with
  | nil => simp [readBaseDigits, small]
  | cons c digits ih =>
      obtain ⟨digit, others⟩ := List.forall_mem_cons.mp areDigits
      have noUnderscore : c = '_' → False := ne_of_isDigit digit (by decide)
      rw [ofDigitChars_cons_digitValue, readBaseDigits.eq_3 _ _ _ _ _ noUnderscore]
      simp only [alphanumericValue?_of_isDigit digit, if_pos (digitValue_lt_ten digit)]
      by_cases next : value * 10 + digitValue c ≤ largest
      · rw [if_pos next, ih others next]
      · have more := le_ofDigitChars digits (value * 10 + digitValue c)
        rw [if_neg next, if_neg (by omega)]

theorem readLiteralSize_toDigits (largest size : Nat) :
    readLiteralSize largest (Nat.toDigits 10 size) =
      if size ≤ largest then .ok size else .error .range := by
  have value : Nat.ofDigitChars 10 (Nat.toDigits 10 size) 0 = size := Nat.ofDigitChars_ten_toDigits
  obtain ⟨first, others, digits, loneZero, areDigits⟩ := exists_toDigits size
  rw [digits] at value ⊢
  have base : splitBase (first :: others) = (10, first :: others) := by
    unfold splitBase
    split
    · next text =>
        obtain ⟨isZero, more⟩ := List.cons.inj text
        rw [loneZero isZero] at more
        cases more
    · rfl
  have noUnderscore : (first :: others).contains '_' = false := by
    simpa using fun isMember => ne_of_isDigit (areDigits '_' isMember) (by decide) rfl
  simp only [readLiteralSize, List.isEmpty_cons, base,
    readBaseDigits_ten areDigits (Nat.zero_le _), value, noUnderscore, Bool.false_and,
    Bool.false_eq_true, if_false]
  split_ifs <;> rfl

/-- An integer is read as the value of a flag if it fits. -/
theorem readLiteral_toString (number : Int) :
    readLiteral (toString number) = if FitsWord number then .ok number else .error .range := by
  have size := readLiteralSize_toDigits 0xFFFFFFFFFFFFFFFF number.natAbs
  unfold readLiteral
  rw [toList_toString_int]
  by_cases negative : number < 0
  · have fits : FitsWord number ↔ number.natAbs ≤ 0x8000000000000000 := by
      unfold FitsWord
      omega
    have value : -(number.natAbs : Int) = number := by omega
    simp only [if_pos negative, List.singleton_append, size, fits]
    by_cases unsigned : number.natAbs ≤ 0xFFFFFFFFFFFFFFFF
    · simp only [if_pos unsigned, if_true, value]
    · rw [if_neg unsigned, if_neg (by omega)]
  · have fits : FitsWord number ↔ number.natAbs < 0x8000000000000000 := by
      unfold FitsWord
      omega
    have value : (number.natAbs : Int) = number := by omega
    obtain ⟨first, others, digits, -, areDigits⟩ := exists_toDigits number.natAbs
    have isDigit := areDigits first List.mem_cons_self
    have noSign {c : Char} {rest : List Char} (sign : c.isDigit = false) :
        Nat.toDigits 10 number.natAbs ≠ c :: rest :=
      fun same => ne_of_isDigit isDigit sign (List.cons.inj (digits.symm.trans same)).1
    rw [if_neg negative, List.nil_append]
    split
    · next plus => exact absurd plus (noSign (by decide))
    · next minus => exact absurd minus (noSign (by decide))
    · simp only [size, fits, Bool.false_eq_true, if_false]
      by_cases unsigned : number.natAbs ≤ 0xFFFFFFFFFFFFFFFF
      · simp only [if_pos unsigned, value]
      · rw [if_neg unsigned, if_neg (by omega)]

/-! ## Documents -/

namespace Toml

/-- Digits in front of a line end are taken as they are. -/
theorem digits?_append {digits : List Char} (nonempty : digits ≠ [])
    (areDigits : ∀ c ∈ digits, c.isDigit = true) (rest : List Char) :
    digits? Char.isDigit (digits ++ '\n' :: rest) = some (digits, '\n' :: rest) := by
  have belong : ∀ c ∈ digits, (c.isDigit || c == '_') = true := fun c isMember => by
    rw [areDigits c isMember, Bool.true_or]
  have without : digitsWithout? digits = some digits := by
    have noUnderscore : '_' ∉ digits := fun isMember =>
      ne_of_isDigit (areDigits '_' isMember) (by decide) rfl
    clear areDigits belong
    fun_induction digitsWithout? digits with
    | case1 => exact absurd rfl nonempty
    | case2 | case4 => exact absurd List.mem_cons_self noUnderscore
    | case3 c => rfl
    | case5 c rest ih => simp at noUnderscore
    | case6 c rest _ more _ _ ih =>
        rw [ih more fun isMember => noUnderscore (List.mem_cons_of_mem c isMember),
          Option.map_some]
  simp [digits?, List.takeWhile_append_of_pos belong, List.dropWhile_append_of_pos belong, without]

theorem number_toDigits (size : Nat) : Calendar.number (Nat.toDigits 10 size) = size := by
  have value : Nat.ofDigitChars 10 (Nat.toDigits 10 size) 0 = size := Nat.ofDigitChars_ten_toDigits
  rw [Nat.ofDigitChars_eq_foldl] at value
  simpa only [Calendar.number, digitValue, Nat.mul_comm] using value

/-- The digits of an integer behind its sign. -/
theorem decimal?_toDigits (number : Int) (rest : List Char) :
    decimal? (number < 0) (Nat.toDigits 10 number.natAbs ++ '\n' :: rest) =
      if FitsWord number then some (.integer number, '\n' :: rest) else none := by
  obtain ⟨first, others, digits, loneZero, areDigits⟩ := exists_toDigits number.natAbs
  have read : signedInteger? (number < 0) (Nat.toDigits 10 number.natAbs) =
      if FitsWord number then some number else none := by
    have isNumber : (if number < 0 then -(number.natAbs : Int) else number.natAbs) = number := by
      omega
    have noZero : hasLeadingZero (Nat.toDigits 10 number.natAbs) = false := by
      rw [digits]
      by_cases isZero : first = '0' <;> simp [hasLeadingZero, isZero, loneZero]
    have range : (-0x8000000000000000 ≤ number ∧ number < 0x8000000000000000) = FitsWord number :=
      rfl
    simp only [signedInteger?, number_toDigits, decide_eq_true_eq, isNumber, noZero, range]
    by_cases fits : FitsWord number <;> simp [fits]
  have noPoint : (('\n' :: rest).head?.any fun c => c == '.' || c == 'e' || c == 'E') = false := rfl
  rw [digits] at read ⊢
  simp only [decimal?, digits?_append (List.cons_ne_nil _ _) areDigits, Option.bind_eq_bind,
    Option.bind_some, noPoint, Bool.false_eq_true, if_false, read]
  split_ifs <;> rfl

theorem scalar?_toString (number : Int) (rest : List Char) :
    scalar? ((toString number).toList ++ '\n' :: rest) =
      if FitsWord number then some (.integer number, '\n' :: rest) else none := by
  obtain ⟨first, others, digits, loneZero, areDigits⟩ := exists_toDigits number.natAbs
  have isDigit := areDigits first List.mem_cons_self
  have other {c : Char} (noDigit : c.isDigit = false) : first ≠ c := ne_of_isDigit isDigit noDigit
  have decimal := decimal?_toDigits number rest
  rw [toList_toString_int]
  rw [digits] at decimal ⊢
  by_cases negative : number < 0
  · have noSpecial : specialNumber? (first :: others ++ '\n' :: rest) = none := by
      simp [specialNumber?, afterWord?, (@other 'i' (by decide)).symm,
        (@other 'n' (by decide)).symm]
    rw [decide_eq_true negative] at decimal
    rw [if_pos negative, List.singleton_append, List.cons_append, scalar?, signedNumber?,
      noSpecial, decimal, Option.none_or]
  · have plain : unsignedNumber?.plain (first :: others ++ '\n' :: rest) =
        decimal? false (first :: others ++ '\n' :: rest) := by
      rw [unsignedNumber?.plain, List.dropWhile_append_of_pos areDigits]
      rfl
    rw [decide_eq_false negative, ← plain] at decimal
    rw [if_neg negative, List.nil_append, ← decimal]
    unfold scalar?
    split
    · next text => cases text
    · next text => exact absurd (List.cons.inj text).1 (other (by decide))
    · next text => exact absurd (List.cons.inj text).1 (other (by decide))
    · next text =>
        obtain ⟨rfl, -⟩ := List.cons.inj text
        rw [if_pos isDigit]
        unfold unsignedNumber?
        split
        · next text =>
            -- A zero at the front is the whole number, so a line end stands for the base mark.
            obtain ⟨isZero, behind⟩ := List.cons.inj text
            rw [loneZero isZero] at behind
            obtain ⟨rfl, -⟩ := List.cons.inj behind
            rfl
        · rfl

/-- An integer is read as the value of a key if it fits. -/
theorem value?_toString (number : Int) (steps : Nat) (rest : List Char) :
    value? (steps + 1) (' ' :: ((toString number).toList ++ '\n' :: rest)) =
      if FitsWord number then some (.scalar (.integer number), '\n' :: rest) else none := by
  have scalar := scalar?_toString number rest
  obtain ⟨first, others, text, other⟩ : ∃ first others,
      (toString number).toList ++ '\n' :: rest = first :: others ∧
      ∀ c ∈ [' ', '\t', '[', '\x7b', '"', '\''], first ≠ c := by
    obtain ⟨first, others, digits, -, areDigits⟩ := exists_toDigits number.natAbs
    have marks : ∀ c ∈ [' ', '\t', '[', '\x7b', '"', '\''], c.isDigit = false := by simp
    rw [toList_toString_int, digits]
    by_cases negative : number < 0
    · exact ⟨'-', _, by rw [if_pos negative]; rfl, by simp⟩
    · exact ⟨first, _, by rw [if_neg negative]; rfl, fun c isMark =>
        ne_of_isDigit (areDigits first List.mem_cons_self) (marks c isMark)⟩
  simp only [List.forall_mem_cons] at other
  obtain ⟨noSpace, noTab, noBracket, noBrace, noQuote, noApostrophe, -⟩ := other
  have blanks : skipBlanks (' ' :: first :: others) = first :: others := by
    simp [skipBlanks, isBlank, noSpace, noTab]
  have string : string? (first :: others) = none := by
    unfold string?
    split <;> first | rfl | (next text => simp_all)
  rw [text] at scalar ⊢
  rw [value?, blanks]
  split
  · next text => exact absurd (List.cons.inj text).1 noBracket
  · next text => exact absurd (List.cons.inj text).1 noBrace
  · rw [string, scalar]
    split_ifs <;> rfl

/-- The line that gives a key an integer. -/
def line (key : String) (number : Int) : String := key ++ " = " ++ toString number ++ "\n"

/-- The text of a document begins with a line. -/
def BeginsWith (document : Bytes) (line : String) : Prop :=
  ∃ rest, Utf8.decodeStrict (skipMark document) = some (line.toList ++ rest)

/-- Printable characters are allowed. -/
theorem hasForbidden_append {text rest : List Char}
    (printable : ∀ c ∈ text, 0x20 ≤ c.toNat ∧ c.toNat < 0x7F) :
    hasForbidden (text ++ rest) = hasForbidden rest := by
  induction text with
  | nil => rfl
  | cons c text ih =>
      obtain ⟨⟨low, high⟩, others⟩ := List.forall_mem_cons.mp printable
      have noReturn : c ≠ '\r' := by
        rintro rfl
        exact absurd low (by decide)
      rw [List.cons_append, hasForbidden.eq_3 _ _ noReturn, ih others]
      simp [Nat.not_lt.mpr low, high.ne]

section Line

variable {number : Int} {key : String} (isKey : key = "max_depth" ∨ key = "heap_limit")
include isKey

/-- The line of an integer is one statement, if the integer fits. -/
theorem statements?_line (steps : Nat) (rest : List Char) :
    statements? (steps + 2) ((line key number).toList ++ rest) =
      if FitsWord number then
        (statements? (steps + 1) ('\n' :: rest)).map (.pair [key] (.scalar (.integer number)) :: ·)
      else none := by
  have value := value?_toString number steps rest
  have chars : (line key number).toList ++ rest =
      (key ++ " =").toList ++ ' ' :: ((toString number).toList ++ '\n' :: rest) := by simp [line]
  rw [chars]
  generalize ' ' :: ((toString number).toList ++ '\n' :: rest) = text at value
  have statement : statement? (steps + 1) ((key ++ " =").toList ++ text) =
      (value? (steps + 1) text).map fun read => (.pair [key] read.1, read.2) := by
    rcases isKey with rfl | rfl <;> rfl
  obtain ⟨first, others, form, noGap⟩ : ∃ first others,
      (key ++ " =").toList ++ text = first :: others ∧
      skipGap false (first :: others) = first :: others := by
    rcases isKey with rfl | rfl <;> exact ⟨_, _, rfl, rfl⟩
  rw [form] at statement ⊢
  rw [statements?]
  simp only [noGap, statement, value]
  split_ifs <;> rfl

/-- An integer that does not fit spoils the document that begins with it. -/
theorem tables?_of_not_fits {document : Bytes} (beyond : ¬ FitsWord number)
    (begins : BeginsWith document (line key number)) :
    tables? document = none := by
  obtain ⟨rest, isText⟩ := begins
  simp only [tables?, read?, isText, Option.bind_eq_bind, Option.bind_some,
    statements?_line isKey, if_neg beyond, Option.bind_none, Option.bind_fun_none]

theorem decodeStrict_line : Utf8.decodeStrict (skipMark (Utf8.encode (line key number))) =
    some (line key number).toList := by
  have noMark : skipMark (Utf8.encode (line key number)) = Utf8.encode (line key number) := by
    simp only [line, Utf8.encode_append, List.append_assoc]
    rcases isKey with rfl | rfl <;> rfl
  rw [noMark, Utf8.decodeStrict_encode]

/-- An integer that fits is the one entry of a document with its line. -/
theorem tables?_of_fits (fits : FitsWord number) :
    tables? (Utf8.encode (line key number)) =
      some { root := [(key, .leaf (.scalar (.integer number)))], named := [[key]] } := by
  have allowed : hasForbidden (line key number).toList = false := by
    have front : ∀ c ∈ (key ++ " = ").toList, 0x20 ≤ c.toNat ∧ c.toNat < 0x7F := by
      rcases isKey with rfl | rfl <;> simp
    have digits : ∀ c ∈ (toString number).toList, 0x20 ≤ c.toNat ∧ c.toNat < 0x7F := by
      intro c isMember
      rw [toList_toString_int, List.mem_append] at isMember
      rcases isMember with sign | isDigit
      · split_ifs at sign
        · rw [List.mem_singleton.mp sign]
          decide
        · cases sign
      · have bounds : 48 ≤ c.toNat ∧ c.toNat ≤ 57 := Char.isDigit_iff_toNat.mp
          (Nat.isDigit_of_mem_toDigits (by decide) (by decide) isDigit)
        omega
    rw [line, String.toList_append, String.toList_append, List.append_assoc,
      hasForbidden_append front, hasForbidden_append digits]
    rfl
  have statements (steps : Nat) := @statements?_line number key isKey steps []
  simp only [List.append_nil, if_pos fits] at statements
  simp only [tables?, read?, decodeStrict_line isKey, Option.bind_eq_bind, Option.bind_some,
    allowed, statements]
  simp [statements?, skipGap, isNewline, Tables.build, Tables.enterPairs, Tables.enter,
    Tables.openDotted, Tables.beginnings, Tables.name, Tables.define, Tables.put, find?, changeAt,
    setEntry, Tables.noteKind, Tables.isArrayValue]

end Line

end Toml

end StackMachine
