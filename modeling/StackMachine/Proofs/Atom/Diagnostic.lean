import Mathlib
import StackMachine.Atom.Basic
import StackMachine.Proofs.Number.Floats
import StackMachine.Proofs.Text.Quoted

/-!
# Diagnostics tell atoms apart

The diagnostic form of an atom begins with a letter of its kind, and the form of its value between
the parentheses is known to read back.  So atoms with one form are the same atom, or both are NaNs
(`Atom.diagnostic_eq_iff`).
-/

namespace StackMachine

namespace Binary32

/-- No other number is printed as a NaN is. -/
theorem isNaN_of_printedText {x : Binary32} (shown : x.printedText = "NaN") : x.isNaN = true := by
  cases isNaN : x.isNaN with
  | true => rfl
  | false =>
      have read := read?_printedText isNaN
      rw [shown, read?_nan, Option.some.injEq] at read
      rw [← read] at isNaN
      cases isNaN

/-- Two numbers are printed alike exactly if they are the same or both NaNs. -/
theorem printedText_eq_iff (x y : Binary32) :
    x.printedText = y.printedText ↔ x = y ∨ x.isNaN = true ∧ y.isNaN = true := by
  constructor
  · intro same
    cases isNaN : x.isNaN with
    | true => exact .inr ⟨rfl, isNaN_of_printedText (same ▸ (text_of_isNaN isNaN).2)⟩
    | false =>
        cases other : y.isNaN with
        | true =>
            have both := isNaN_of_printedText (same.trans (text_of_isNaN other).2)
            rw [isNaN] at both
            cases both
        | false =>
            have read := read?_printedText isNaN
            rw [same, read?_printedText other, Option.some.injEq] at read
            exact .inl read.symm
  · rintro (rfl | ⟨first, second⟩)
    · rfl
    · rw [(text_of_isNaN first).2, (text_of_isNaN second).2]

end Binary32

namespace Atom

/-- The letter that the diagnostic form of an atom begins with. -/
def initial : Atom → Char
  | .null => 'N'
  | .ref _ => 'R'
  | .int _ => 'I'
  | .float _ => 'F'
  | .str _ => 'S'
  | .unknown _ => 'K'

theorem head?_diagnostic (a : Atom) : a.diagnostic.toList.head? = some a.initial := by
  cases a <;> simp [diagnostic, initial, toString]

/-- The diagnostic form is unambiguous: it tells apart any two atoms of different kinds or of
different values, except that all NaNs are shown alike. -/
theorem diagnostic_eq_iff (a b : Atom) :
    a.diagnostic = b.diagnostic ↔
      a = b ∨ ∃ x y, a = .float x ∧ b = .float y ∧ x.isNaN = true ∧ y.isNaN = true := by
  constructor
  · intro same
    have sameInitial : a.initial = b.initial := by
      rw [← Option.some.injEq, ← head?_diagnostic, same, head?_diagnostic]
    -- The initials leave the pairs of one kind, and there the values read back.
    cases a with
    | null =>
        cases b with
        | null => exact .inl rfl
        | _ => simp [initial] at sameInitial
    | ref address =>
        cases b with
        | ref other =>
            have value : address.toInt = other.toInt := by simpa [diagnostic] using same
            exact .inl (congrArg Atom.ref (Int64.toInt_inj.mp value))
        | _ => simp [initial] at sameInitial
    | int value =>
        cases b with
        | int other =>
            have value : value.toInt = other.toInt := by simpa [diagnostic] using same
            exact .inl (congrArg Atom.int (Int32.toInt_inj.mp value))
        | _ => simp [initial] at sameInitial
    | float x =>
        cases b with
        | float y =>
            have text : x.printedText = y.printedText := by simpa [diagnostic, toString] using same
            rcases (Binary32.printedText_eq_iff x y).mp text with rfl | areNaNs
            · exact .inl rfl
            · exact .inr ⟨x, y, rfl, rfl, areNaNs⟩
        | _ => simp [initial] at sameInitial
    | str text =>
        cases b with
        | str other =>
            have text : quoted text = quoted other := by simpa [diagnostic, toString] using same
            exact .inl (congrArg Atom.str (quoted_injective text))
        | _ => simp [initial] at sameInitial
    | unknown offset =>
        cases b with
        | unknown other =>
            have value : offset.val = other.val := by simpa [diagnostic] using same
            exact .inl (congrArg Atom.unknown (Fin.ext value))
        | _ => simp [initial] at sameInitial
  · rintro (rfl | ⟨x, y, rfl, rfl, first, second⟩)
    · rfl
    · rw [diagnostic, diagnostic, (Binary32.printedText_eq_iff x y).mpr (.inr ⟨first, second⟩)]

end Atom

end StackMachine
