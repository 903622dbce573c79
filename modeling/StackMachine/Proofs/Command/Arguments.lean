import Mathlib
import StackMachine.Command.Flags

/-!
# How flags are given

Arguments give flags their values in several forms (`Options.Gives`): behind one hyphen or two, with
the value in the same argument or in the next, and a switch also without a value.  Reading arguments
accepts these forms and no others, and then gives the flags their values one after the other.
-/

namespace StackMachine

namespace Flag

/-- The ways to name a flag in an argument. -/
def spellings (flag : Flag) : List String := ["-" ++ flag.name, "--" ++ flag.name]

/-- A value can be given to a flag. -/
def Takes : Flag → String → Prop
  | .check, value | .dump, value | .trace, value => ∃ truth, Options.readSwitch value = .ok truth
  | .heapLimit, value | .maxDepth, value => ∃ number, Options.readInteger value = .ok number
  | .timeout, value => ∃ duration, Options.readDuration value = .ok duration
  | .config, _ | .image, _ | .traceLog, _ => True

theorem ofName?_eq_some_iff {name : String} {flag : Flag} :
    ofName? name = some flag ↔ flag.name = name := by
  constructor
  · intro found
    simpa using List.find?_some found
  · rintro rfl
    cases flag <;> rfl

theorem name_plain (flag : Flag) :
    ∃ c rest, flag.name.toList = c :: rest ∧ c ≠ '-' ∧ '=' ∉ flag.name.toList := by
  cases flag <;> exact ⟨_, _, rfl, by decide, by decide⟩

end Flag

namespace Options

/-- An argument that is no flag has no hyphen at its front, or nothing behind it. -/
def IsOperand (argument : String) : Prop := argument = "-" ∨ argument.toList.head? ≠ some '-'

/-- What arguments say: they give flags values, in order, and have operands behind them. -/
inductive Gives : List String → List (Flag × String) → List String → Prop where
  | nothing : Gives [] [] []
  | operands {argument : String} {rest : List String} (isOperand : IsOperand argument) :
      Gives (argument :: rest) [] (argument :: rest)
  | terminated {rest : List String} : Gives ("--" :: rest) [] rest
  | switched {flag : Flag} {spelling : String} {rest operands : List String}
      {given : List (Flag × String)} (isSwitch : flag.isSwitch = true)
      (spelled : spelling ∈ flag.spellings) (later : Gives rest given operands) :
      Gives (spelling :: rest) ((flag, "true") :: given) operands
  | attached {flag : Flag} {spelling value : String} {rest operands : List String}
      {given : List (Flag × String)} (spelled : spelling ∈ flag.spellings)
      (later : Gives rest given operands) :
      Gives ((spelling ++ "=" ++ value) :: rest) ((flag, value) :: given) operands
  | separate {flag : Flag} {spelling value : String} {rest operands : List String}
      {given : List (Flag × String)} (noSwitch : flag.isSwitch = false)
      (spelled : spelling ∈ flag.spellings) (later : Gives rest given operands) :
      Gives (spelling :: value :: rest) ((flag, value) :: given) operands

/-- Gives flags their values in order. -/
def setAll (options : Options) (given : List (Flag × String)) : Except FlagError Options :=
  given.foldlM (fun options occurrence => options.setChecked occurrence.1 occurrence.2) options

/-! ## The form of an argument -/

theorem splitValue_of_notMem {text : List Char} (noValue : '=' ∉ text) :
    splitValue text = (String.ofList text, none) := by
  have all : ∀ c ∈ text, (c != '=') = true := by
    rintro c mem
    exact bne_iff_ne.mpr (ne_of_mem_of_not_mem mem noValue)
  rw [splitValue, List.dropWhile_eq_nil_iff.mpr all]

theorem splitValue_append {front : List Char} (value : List Char) (first : '=' ∉ front) :
    splitValue (front ++ '=' :: value) = (String.ofList front, some (String.ofList value)) := by
  have all : ∀ c ∈ front, (c != '=') = true := by
    rintro c mem
    exact bne_iff_ne.mpr (ne_of_mem_of_not_mem mem first)
  rw [splitValue, List.dropWhile_append_of_pos all, List.takeWhile_append_of_pos all]
  simp

section Forms

variable {argument name : String} {c : Char} {text : List Char}

theorem flagged_of_ne (noHyphen : c ≠ '-') (noEquals : c ≠ '=') :
    formOf.flagged (c :: text) = .named (splitValue (c :: text)).1 (splitValue (c :: text)).2 := by
  simp [formOf.flagged, noHyphen, noEquals]

theorem formOf_of_hyphen (chars : argument.toList = '-' :: c :: text) (noHyphen : c ≠ '-') :
    formOf argument = formOf.flagged (c :: text) := by
  unfold formOf
  rw [chars]
  split <;> simp_all

theorem formOf_of_hyphens (chars : argument.toList = '-' :: '-' :: c :: text) :
    formOf argument = formOf.flagged (c :: text) := by
  simp only [formOf, chars]

theorem formOf_of_isOperand (isOperand : IsOperand argument) : formOf argument = .operand := by
  obtain rfl | noHyphen := isOperand
  · rfl
  · unfold formOf
    split <;> simp_all

theorem formOf_mark : formOf "--" = .terminator := rfl

/-- A spelling of a flag names the flag, and takes what follows an equals sign behind it. -/
theorem formOf_spelling {flag : Flag} {spelling : String} (spelled : spelling ∈ flag.spellings) :
    formOf spelling = .named flag.name none ∧
      ∀ value, formOf (spelling ++ "=" ++ value) = .named flag.name (some value) := by
  obtain ⟨c, rest, chars, noHyphen, noEquals⟩ := flag.name_plain
  have first : c ≠ '=' := by
    rintro rfl
    exact noEquals (chars ▸ List.mem_cons_self)
  have flagged (text : List Char) : formOf.flagged (c :: text) =
      .named (splitValue (c :: text)).1 (splitValue (c :: text)).2 := flagged_of_ne noHyphen first
  have alone : formOf.flagged (c :: rest) = .named flag.name none := by
    rw [flagged, ← chars, splitValue_of_notMem noEquals, String.ofList_toList]
  have valued (value : String) :
      formOf.flagged (c :: (rest ++ '=' :: value.toList)) = .named flag.name (some value) := by
    rw [flagged, ← List.cons_append, ← chars, splitValue_append _ noEquals, String.ofList_toList,
      String.ofList_toList]
  simp only [Flag.spellings, List.mem_cons, List.not_mem_nil, or_false] at spelled
  obtain rfl | rfl := spelled
  · exact ⟨(formOf_of_hyphen (by simp [chars]) noHyphen).trans alone, fun value =>
      (formOf_of_hyphen (by simp [chars]) noHyphen).trans (valued value)⟩
  · exact ⟨(formOf_of_hyphens (by simp [chars])).trans alone, fun value =>
      (formOf_of_hyphens (by simp [chars])).trans (valued value)⟩

end Forms

/-! ## Reading arguments -/

section Reading

variable {options next result : Options} {arguments operands : List String} {flag : Flag}
  {value : String} {given : List (Flag × String)}

theorem setAll_cons :
    options.setAll ((flag, value) :: given) =
      (options.setChecked flag value).bind (setAll · given) :=
  rfl

theorem setAll_cons_eq_ok_iff :
    options.setAll ((flag, value) :: given) = .ok result ↔
      ∃ next, options.setChecked flag value = .ok next ∧ next.setAll given = .ok result := by
  rw [setAll_cons]
  cases options.setChecked flag value <;> simp [Except.bind]

/-- Reading arguments in one of the forms gives the flags their values. -/
theorem parseFrom_of_gives (gives : Gives arguments given operands) (options : Options) :
    parseFrom options arguments = (options.setAll given).map (·, operands) := by
  induction gives generalizing options with
  | nothing => rfl
  | operands isOperand =>
      rw [parseFrom, formOf_of_isOperand isOperand]
      rfl
  | terminated =>
      rw [parseFrom, formOf_mark]
      rfl
  | @switched flag _ _ _ _ isSwitch spelled _ ih =>
      rw [parseFrom, (formOf_spelling spelled).1, setAll_cons]
      simp only [Flag.ofName?_eq_some_iff.mpr rfl, isSwitch, if_true, Option.getD_none]
      cases options.setChecked flag "true" with
      | error error => rfl
      | ok next => exact ih next
  | @attached flag _ value _ _ _ spelled _ ih =>
      rw [parseFrom, (formOf_spelling spelled).2, setAll_cons]
      simp only [Flag.ofName?_eq_some_iff.mpr rfl, Option.getD_some, ite_self]
      cases options.setChecked flag value with
      | error error => rfl
      | ok next => exact ih next
  | @separate flag _ value _ _ _ noSwitch spelled _ ih =>
      rw [parseFrom, (formOf_spelling spelled).1, setAll_cons]
      simp only [Flag.ofName?_eq_some_iff.mpr rfl, noSwitch, Bool.false_eq_true, if_false]
      cases options.setChecked flag value with
      | error error => rfl
      | ok next => exact ih next

end Reading

end Options

end StackMachine
