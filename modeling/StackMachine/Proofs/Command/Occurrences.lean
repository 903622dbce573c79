import Mathlib
import StackMachine.Proofs.Command.Precedence

/-!
# One more occurrence of a flag

An occurrence more of a flag decides for itself: the flags take their values if and only if they
did before and the flag takes the value that is added, and what the other flags say stays
(`Options.override_insert`, `Options.sameTask_insert`).
-/

namespace StackMachine

theorem Setting.flag_injective {setting other : Setting} (same : setting.flag = other.flag) :
    setting = other := by
  cases setting <;> cases other <;> first | rfl | cases same

/-- The flags of settings are not those that say what is to be done. -/
theorem Setting.flag_notMem (setting : Setting) :
    setting.flag ∉ [.config, .image, .check, .dump] := by
  cases setting <;> decide

namespace Command

/-- What options ask for, their settings aside. -/
structure SameTask (options other : Options) : Prop where
  image : options.image = other.image
  check : options.check = other.check
  dump : options.dump = other.dump

/-- Settings matter only through the command. -/
theorem work_congr {options other : Options} (same : SameTask options other) (files : Files)
    (patience : Nat) (operands : List String) (command : Command) :
    command.work files patience options operands = command.work files patience other operands := by
  simp only [work, same.image, same.check, same.dump]

end Command

namespace Options

variable {options other : Options} {flag : Flag} {value : String}
  {given front back : List (Flag × String)}

/-! ## Last occurrences -/

theorem lastValue_insert_of_ne {added : Flag} (different : added ≠ flag) :
    lastValue flag (front ++ (added, value) :: back) = lastValue flag (front ++ back) := by
  simp [lastValue, different]

theorem lastValue_insert_self (isLast : ∀ text, (flag, text) ∉ back) :
    lastValue flag (front ++ (flag, value) :: back) = some value := by
  have none : back.filter (·.1 = flag) = [] := by
    rw [List.filter_eq_nil_iff]
    rintro ⟨other, text⟩ isMember isFlag
    obtain rfl : other = flag := by simpa using isFlag
    exact isLast text isMember
  simp [lastValue, none]

theorem lastValue_eq_none (absent : ∀ text, (flag, text) ∉ given) :
    lastValue flag given = none := by
  cases last : lastValue flag given with
  | none => rfl
  | some text => exact absurd (mem_of_lastValue last) (absent text)

/-! ## What the flags say -/

theorem exists_setAll_insert_iff :
    (∃ later, setAll {} (front ++ (flag, value) :: back) = .ok later) ↔
      (∃ later, setAll {} (front ++ back) = .ok later) ∧ flag.Takes value := by
  simp only [exists_setAll_iff, List.forall_mem_append, List.forall_mem_cons]
  tauto

/-- Two switches say what is to be done. -/
theorem switches_of_setChecked {next : Options} (set : options.setChecked flag value = .ok next) :
    next.check =
      (if flag = .check then (readSwitch value).toOption.getD false else options.check) ∧
    next.dump =
      if flag = .dump then (readSwitch value).toOption.getD false else options.dump := by
  rw [setChecked_eq_ok_iff] at set
  cases flag with
  | check | dump | trace | heapLimit | maxDepth | timeout =>
      simp only [Options.set, map_eq_ok_iff] at set
      obtain ⟨given, read, rfl⟩ := set
      simp [read, Except.toOption]
  | config | image | traceLog =>
      cases set
      exact ⟨rfl, rfl⟩

section Insert

variable (sets : setAll {} (front ++ back) = .ok options)
  (setsMore : setAll {} (front ++ (flag, value) :: back) = .ok other)
include sets setsMore

/-- A flag that is about settings does not say what is to be done. -/
theorem sameTask_insert (aside : flag ∉ [.image, .check, .dump]) :
    Command.SameTask other options := by
  simp only [List.mem_cons, List.not_mem_nil, or_false, not_or] at aside
  obtain ⟨noImage, noCheck, noDump⟩ := aside
  constructor
  · rw [(fields_of_setAll sets).2.2, (fields_of_setAll setsMore).2.2,
      lastValue_insert_of_ne noImage]
  · rw [eq_lastValue_of_setAll (fun set => (switches_of_setChecked set).1) sets,
      eq_lastValue_of_setAll (fun set => (switches_of_setChecked set).1) setsMore,
      lastValue_insert_of_ne noCheck]
  · rw [eq_lastValue_of_setAll (fun set => (switches_of_setChecked set).2) sets,
      eq_lastValue_of_setAll (fun set => (switches_of_setChecked set).2) setsMore,
      lastValue_insert_of_ne noDump]

/-- The flag of a setting changes the value of that setting only. -/
theorem override_insert {setting : Setting} {amount : setting.Value} (isFlag : flag = setting.flag)
    (isLast : ∀ text, (flag, text) ∉ back) (means : setting.ofText? value = some amount)
    (base : Settings) : other.override base = setting.put amount (options.override base) := by
  subst isFlag
  refine Setting.ext_get fun named => Option.some.inj ?_
  by_cases same : named = setting
  · subst same
    rw [Command.some_get_override setsMore, lastValue_insert_self isLast, Setting.get_put]
    exact means
  · have differ : setting.flag ≠ named.flag := fun also => same (Setting.flag_injective also.symm)
    rw [Command.some_get_override setsMore, lastValue_insert_of_ne differ,
      Setting.get_put_of_ne same, Command.some_get_override sets]

/-- A flag that is about no setting leaves them to the document, and so what only the document gives
reaches the command. -/
theorem override_put_insert {setting : Setting} (noFlag : ∀ named : Setting, flag ≠ named.flag)
    (absent : ∀ text, (setting.flag, text) ∉ front ++ back) (amount : setting.Value)
    (base : Settings) :
    other.override (setting.put amount base) = setting.put amount (options.override base) := by
  refine Setting.ext_get fun named => Option.some.inj ?_
  rw [Command.some_get_override setsMore, lastValue_insert_of_ne (noFlag named)]
  by_cases same : named = setting
  · subst same
    rw [lastValue_eq_none absent, Setting.get_put, Option.elim_none, Setting.get_put]
  · rw [Setting.get_put_of_ne same, Setting.get_put_of_ne same, Command.some_get_override sets]

end Insert

end Options

end StackMachine
