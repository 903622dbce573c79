import Mathlib
import StackMachine.Number.Integer
import StackMachine.Text.Quoted

/-!
# Quoted texts read back

`Quoted.first?` reads the form of one character from the front of a quoted text: the character after
a backslash says how long the form is, and a bare double quote ends the text.  Every character is
read back from its form, whatever follows (`Quoted.first?_character`), so no two texts are shown
alike (`quoted_injective`).
-/

namespace StackMachine

/-! ## Hexadecimal codes -/

/-- The number that hexadecimal digits spell. -/
def hexadecimalValue (digits : List Char) : Nat :=
  digits.foldl (fun value c => 16 * value + (alphanumericValue? c).getD 0) 0

theorem hexadecimalValue_append (front : List Char) (c : Char) :
    hexadecimalValue (front ++ [c]) =
      16 * hexadecimalValue front + (alphanumericValue? c).getD 0 := by
  simp [hexadecimalValue]

theorem alphanumericValue?_digitChar :
    ∀ digit < 16, alphanumericValue? (Nat.digitChar digit) = some digit := by
  decide

theorem hexadecimalValue_zeros (count : Nat) :
    hexadecimalValue (List.replicate count '0') = 0 := by
  induction count with
  | zero => rfl
  | succ count ih =>
      rw [List.replicate_succ', hexadecimalValue_append, ih]
      rfl

/-- A number is spelled by its digits, with or without zeros before them. -/
theorem hexadecimalValue_hexadecimal (width code : Nat) :
    hexadecimalValue (hexadecimal width code) = code := by
  have padded (zeros : Nat) :
      hexadecimalValue (List.replicate zeros '0' ++ Nat.toDigits 16 code) = code := by
    induction code using Nat.strongRecOn with
    | ind code ih =>
        rw [Nat.toDigits_eq_if (by decide)]
        split
        · next small =>
            rw [hexadecimalValue_append, hexadecimalValue_zeros,
              alphanumericValue?_digitChar code small]
            exact Nat.zero_add code
        · next large =>
            rw [← List.append_assoc, hexadecimalValue_append, ih (code / 16) (by omega),
              alphanumericValue?_digitChar _ (by omega)]
            exact Nat.div_add_mod code 16
  exact padded _

/-- A code that fits the width is written with exactly that many digits. -/
theorem length_hexadecimal {width code : Nat} (positive : 0 < width) (small : code < 16 ^ width) :
    (hexadecimal width code).length = width := by
  have short := (Nat.length_toDigits_le_iff (by decide) positive).mpr small
  rw [hexadecimal, List.length_append, List.length_replicate]
  omega

namespace Quoted

/-! ## One character -/

/-- The letters after a backslash that stand for a control character. -/
def letters : List (Char × Nat) :=
  [('a', 0x07), ('b', 0x08), ('f', 0x0C), ('n', 0x0A), ('r', 0x0D), ('t', 0x09), ('v', 0x0B)]

/-- The letters after a backslash that say how many hexadecimal digits follow. -/
def widths : List (Char × Nat) :=
  [('x', 2), ('u', 4), ('U', 8)]

/-- The character whose form stands at the start of a text, and the text behind it. -/
def first? : List Char → Option (Char × List Char)
  | [] => none
  | c :: rest =>
      if c = '"' then none
      else if c = '\\' then
        match rest with
        | [] => none
        | mark :: rest =>
            if mark = '"' ∨ mark = '\\' then some (mark, rest)
            else
              ((letters.lookup mark).map fun code => (Char.ofNat code, rest)).or
                ((widths.lookup mark).map fun width =>
                  (Char.ofNat (hexadecimalValue (rest.take width)), rest.drop width))
      else some (c, rest)

/-- A code in hexadecimal is read back. -/
theorem first?_hexadecimal {mark c : Char} {width : Nat} (isMark : (mark, width) ∈ widths)
    (small : c.toNat < 16 ^ width) (rest : List Char) :
    first? ('\\' :: mark :: (hexadecimal width c.toNat ++ rest)) = some (c, rest) := by
  have known : ∀ entry ∈ widths, 0 < entry.2 ∧ ¬(entry.1 = '"' ∨ entry.1 = '\\') ∧
      letters.lookup entry.1 = none ∧ widths.lookup entry.1 = some entry.2 := by decide
  obtain ⟨positive, noEscape, noLetter, isWidth⟩ := known _ isMark
  have length := length_hexadecimal positive small
  have digits : (hexadecimal width c.toNat ++ rest).take width = hexadecimal width c.toNat := by
    rw [List.take_left' length]
  have behind : (hexadecimal width c.toNat ++ rest).drop width = rest := by
    rw [List.drop_left' length]
  simp only [first?, Char.reduceEq, if_false, if_true, if_neg noEscape, noLetter, isWidth,
    Option.map_none, Option.map_some, Option.none_or, digits, behind,
    hexadecimalValue_hexadecimal, Char.ofNat_toNat]

/-- Every character is read back from its form. -/
theorem first?_character (c : Char) (rest : List Char) :
    first? (character c ++ rest) = some (c, rest) := by
  have isCode (code : Nat) (same : c.toNat = code) : c = Char.ofNat code := by
    rw [← same, Char.ofNat_toNat]
  unfold character
  split
  · next escaped =>
      rw [Bool.or_eq_true, beq_iff_eq, beq_iff_eq] at escaped
      rcases escaped with rfl | rfl <;> rfl
  · next plain =>
      rw [Bool.or_eq_true, beq_iff_eq, beq_iff_eq, not_or] at plain
      split
      · simp [first?, plain.1, plain.2]
      · split
        case h_8 =>
          split
          · next control =>
              refine first?_hexadecimal (by decide) ?_ rest
              simp only [Bool.or_eq_true, decide_eq_true_eq, beq_iff_eq] at control
              omega
          · split
            · next short => exact first?_hexadecimal (by decide) short rest
            · refine first?_hexadecimal (by decide) ?_ rest
              have valid : c.toNat.isValidChar := c.valid
              unfold Nat.isValidChar at valid
              omega
        all_goals
          next code => exact isCode _ code ▸ rfl

end Quoted

/-! ## Whole texts -/

/-- The forms of two texts, each up to the closing quote, are different. -/
theorem Quoted.flatMap_character_injective {first second : List Char}
    (same : first.flatMap character ++ ['"'] = second.flatMap character ++ ['"']) :
    first = second := by
  induction first generalizing second with
  | nil =>
      cases second with
      | nil => rfl
      | cons d second =>
          have read := congrArg first? same
          rw [List.flatMap_cons, List.append_assoc, first?_character] at read
          cases read
  | cons c first ih =>
      cases second with
      | nil =>
          have read := congrArg first? same
          rw [List.flatMap_cons, List.append_assoc, first?_character] at read
          cases read
      | cons d second =>
          have read := congrArg first? same
          rw [List.flatMap_cons, List.append_assoc, first?_character, List.flatMap_cons,
            List.append_assoc, first?_character, Option.some.injEq, Prod.mk.injEq] at read
          obtain ⟨rfl, behind⟩ := read
          rw [ih behind]

/-- Different texts are quoted differently. -/
theorem quoted_injective : Function.Injective quoted := by
  intro first second same
  have chars := String.ofList_injective same
  rw [List.cons_append, List.cons_append, List.cons.injEq] at chars
  exact String.toList_inj.mp (Quoted.flatMap_character_injective chars.2)

end StackMachine
