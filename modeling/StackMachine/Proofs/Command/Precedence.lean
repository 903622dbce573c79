import Mathlib
import StackMachine.Command.Basic
import StackMachine.Proofs.Command.Arguments

/-!
# Flags before files before defaults

A setting can be given by a flag and by a key of a document.  The last occurrence of its flag counts
if there is one, whatever its value; else the entry of the document that a flag names; else the
setting is zero (`Command.prepare_settles`).
-/

namespace StackMachine

/-- What can be set by a flag and by a document. -/
inductive Setting where
  | trace
  | traceLog
  | timeout
  | maxDepth
  | heapLimit
  deriving DecidableEq, Repr

namespace Setting

/-- The values of a setting. -/
abbrev Value : Setting → Type
  | .trace => Bool
  | .traceLog => String
  | .timeout => Duration
  | .maxDepth | .heapLimit => Int64

/-- The flag of a setting. -/
def flag : Setting → Flag
  | .trace => .trace
  | .traceLog => .traceLog
  | .timeout => .timeout
  | .maxDepth => .maxDepth
  | .heapLimit => .heapLimit

/-- The key of a setting. -/
def key : Setting → String
  | .trace => "trace"
  | .traceLog => "trace_log"
  | .timeout => "timeout"
  | .maxDepth => "max_depth"
  | .heapLimit => "heap_limit"

/-- What a text means as the value of the flag. -/
def ofText? : (setting : Setting) → String → Option setting.Value
  | .trace, text => (Options.readSwitch text).toOption
  | .traceLog, text => some text
  | .timeout, text => (Options.readDuration text).toOption
  | .maxDepth, text | .heapLimit, text => (Options.readInteger text).toOption

/-- What a node of a document means as the value of the key. -/
def ofNode? : (setting : Setting) → Toml.Node → Option setting.Value
  | .trace, .leaf (.scalar (.boolean truth)) => some truth
  | .traceLog, .leaf (.text path) => some path
  | .timeout, node => Settings.durationOf? node
  | .maxDepth, .leaf (.scalar (.integer limit)) => some (Int64.ofInt limit)
  | .heapLimit, .leaf (.scalar (.integer limit)) => some (Int64.ofInt limit)
  | _, _ => none

/-- The value of a setting. -/
def get : (setting : Setting) → Settings → setting.Value
  | .trace, settings => settings.trace
  | .traceLog, settings => settings.traceLog
  | .timeout, settings => settings.timeout
  | .maxDepth, settings => settings.maxDepth
  | .heapLimit, settings => settings.heapLimit

/-- Gives a setting a value. -/
def put : (setting : Setting) → setting.Value → Settings → Settings
  | .trace, value, settings => { settings with trace := value }
  | .traceLog, value, settings => { settings with traceLog := value }
  | .timeout, value, settings => { settings with timeout := value }
  | .maxDepth, value, settings => { settings with maxDepth := value }
  | .heapLimit, value, settings => { settings with heapLimit := value }

/-- The value that flags have chosen for a setting. -/
def chosen : (setting : Setting) → Options → Option setting.Value
  | .trace, options => options.trace
  | .traceLog, options => options.traceLog
  | .timeout, options => options.timeout
  | .maxDepth, options => options.maxDepth
  | .heapLimit, options => options.heapLimit

theorem get_override (setting : Setting) (options : Options) (settings : Settings) :
    setting.get (options.override settings) =
      (setting.chosen options).getD (setting.get settings) := by
  cases setting <;> rfl

theorem get_put (setting : Setting) (value : setting.Value) (settings : Settings) :
    setting.get (setting.put value settings) = value := by
  cases setting <;> rfl

theorem get_put_of_ne {setting other : Setting} (different : other ≠ setting)
    (value : setting.Value) (settings : Settings) :
    other.get (setting.put value settings) = other.get settings := by
  cases setting <;> cases other <;> first | rfl | exact absurd rfl different

/-- What the flag of a setting takes has a meaning. -/
theorem exists_ofText?_of_takes {setting : Setting} {text : String}
    (takes : setting.flag.Takes text) : ∃ value, setting.ofText? text = some value := by
  cases setting with
  | traceLog => exact ⟨text, rfl⟩
  | trace | timeout | maxDepth | heapLimit =>
      obtain ⟨value, read⟩ := takes
      exact ⟨value, by rw [ofText?, read, Except.toOption]⟩

/-- Settings are known by their values. -/
theorem ext_get {settings other : Settings} (same : ∀ setting : Setting,
    setting.get settings = setting.get other) : settings = other := by
  obtain ⟨trace, traceLog, timeout, maxDepth, heapLimit⟩ := settings
  obtain ⟨_, _, _, _, _⟩ := other
  obtain rfl := same .trace
  obtain rfl := same .traceLog
  obtain rfl := same .timeout
  obtain rfl := same .maxDepth
  obtain rfl := same .heapLimit
  rfl

end Setting

/-! ## Flags -/

theorem map_eq_ok_iff {ε α β : Type} {f : α → β} {result : Except ε α} {value : β} :
    result.map f = .ok value ↔ ∃ a, result = .ok a ∧ f a = value := by
  cases result <;> simp [Except.map]

theorem exists_map_eq_ok_iff {ε α β : Type} {f : α → β} {result : Except ε α} :
    (∃ value, result.map f = .ok value) ↔ ∃ a, result = .ok a := by
  cases result <;> simp [Except.map]

namespace Options

/-- The text that the last occurrence of a flag gives as its value. -/
def lastValue (flag : Flag) (given : List (Flag × String)) : Option String :=
  ((given.filter (·.1 = flag)).getLast?).map Prod.snd

theorem lastValue_cons (flag : Flag) (occurrence : Flag × String) (given : List (Flag × String)) :
    lastValue flag (occurrence :: given) =
      (lastValue flag given).or (if occurrence.1 = flag then some occurrence.2 else none) := by
  by_cases same : occurrence.1 = flag
  · rw [lastValue, lastValue, List.filter_cons_of_pos (by simpa using same), List.getLast?_cons,
      if_pos same]
    cases (given.filter (·.1 = flag)).getLast? <;> rfl
  · rw [lastValue, lastValue, List.filter_cons_of_neg (by simpa using same), if_neg same,
      Option.or_none]

variable {options next later : Options} {flag : Flag} {value : String}
  {given : List (Flag × String)}

theorem setChecked_eq_ok_iff :
    options.setChecked flag value = .ok next ↔ options.set flag value = .ok next := by
  unfold setChecked
  split <;> simp_all

/-- A value is given to a flag if and only if the flag takes it. -/
theorem exists_setChecked_iff (options : Options) (flag : Flag) (value : String) :
    (∃ next, options.setChecked flag value = .ok next) ↔ flag.Takes value := by
  simp only [setChecked_eq_ok_iff]
  cases flag <;> simp only [set, Flag.Takes, exists_map_eq_ok_iff] <;> simp

/-- Values are given to flags if and only if each flag takes the values that are its own. -/
theorem exists_setAll_iff (options : Options) (given : List (Flag × String)) :
    (∃ later, options.setAll given = .ok later) ↔
      ∀ occurrence ∈ given, occurrence.1.Takes occurrence.2 := by
  induction given generalizing options with
  | nil => exact ⟨fun _ => by simp, fun _ => ⟨options, rfl⟩⟩
  | cons occurrence given ih =>
      obtain ⟨flag, value⟩ := occurrence
      rw [List.forall_mem_cons, ← exists_setChecked_iff options]
      simp only [setAll_cons_eq_ok_iff]
      constructor
      · rintro ⟨later, next, set, sets⟩
        exact ⟨⟨next, set⟩, (ih next).mp ⟨later, sets⟩⟩
      · rintro ⟨⟨next, set⟩, taken⟩
        obtain ⟨later, sets⟩ := (ih next).mpr taken
        exact ⟨later, next, set, sets⟩

/-- What a single flag decides, its last occurrence decides. -/
theorem eq_lastValue_of_setAll {α : Type} {field : Options → α} {read : String → α}
    (law : ∀ {options next : Options} {given : Flag} {value : String},
      options.setChecked given value = .ok next →
        field next = if given = flag then read value else field options)
    (sets : options.setAll given = .ok later) :
    field later = (lastValue flag given).elim (field options) read := by
  induction given generalizing options with
  | nil =>
      cases sets
      rfl
  | cons occurrence given ih =>
      obtain ⟨next, set, sets⟩ := setAll_cons_eq_ok_iff.mp sets
      rw [ih sets, law set, lastValue_cons]
      cases lastValue flag given with
      | some text => rfl
      | none => by_cases same : occurrence.1 = flag <;> simp [same]

/-- Giving a flag a value changes the setting of the flag. -/
theorem chosen_of_setChecked (setting : Setting) (set : options.setChecked flag value = .ok next) :
    setting.chosen next =
      if flag = setting.flag then setting.ofText? value else setting.chosen options := by
  rw [setChecked_eq_ok_iff] at set
  cases flag with
  | check | dump | trace | heapLimit | maxDepth | timeout =>
      simp only [Options.set, map_eq_ok_iff] at set
      obtain ⟨given, read, rfl⟩ := set
      cases setting <;>
        simp [Setting.chosen, Setting.flag, Setting.ofText?, read, Except.toOption]
  | config | image | traceLog =>
      cases set
      cases setting <;> simp [Setting.chosen, Setting.flag, Setting.ofText?]

/-- Two files can be named by flags. -/
theorem paths_of_setChecked (set : options.setChecked flag value = .ok next) :
    next.config = (if flag = .config then value else options.config) ∧
      next.image = if flag = .image then value else options.image := by
  rw [setChecked_eq_ok_iff] at set
  cases flag with
  | check | dump | trace | heapLimit | maxDepth | timeout =>
      simp only [Options.set, map_eq_ok_iff] at set
      obtain ⟨given, -, rfl⟩ := set
      exact ⟨rfl, rfl⟩
  | config | image | traceLog =>
      cases set
      exact ⟨rfl, rfl⟩

theorem mem_of_lastValue {text : String} (last : lastValue flag given = some text) :
    (flag, text) ∈ given := by
  obtain ⟨⟨other, _⟩, isLast, rfl⟩ := Option.map_eq_some_iff.mp last
  obtain ⟨mem, same⟩ := List.mem_filter.mp (List.mem_of_getLast? isLast)
  obtain rfl : other = flag := by simpa using same
  exact mem

/-- What flags say, in terms of the last occurrence of each. -/
theorem fields_of_setAll (sets : setAll {} given = .ok options) :
    (∀ setting : Setting, setting.chosen options =
      (lastValue setting.flag given).bind setting.ofText?) ∧
    options.config = (lastValue .config given).getD "" ∧
    options.image = (lastValue .image given).getD "" := by
  refine ⟨fun setting => ?_, ?_, ?_⟩
  · rw [eq_lastValue_of_setAll (chosen_of_setChecked setting) sets]
    cases lastValue setting.flag given with
    | some text => rfl
    | none => cases setting <;> rfl
  · rw [eq_lastValue_of_setAll (fun set => (paths_of_setChecked set).1) sets]
    cases lastValue .config given <;> rfl
  · rw [eq_lastValue_of_setAll (fun set => (paths_of_setChecked set).2) sets]
    cases lastValue .image given <;> rfl

end Options

/-! ## Documents -/

namespace Settings

variable {settings next : Settings} {key : String} {node : Toml.Node} {entries : Toml.Entries}

/-- An entry with the key of a setting gives the setting a value. -/
theorem set?_of_sameName {setting : Setting} (named : sameName setting.key key = true) :
    settings.set? key node = (setting.ofNode? node).map (setting.put · settings) := by
  simp only [sameName, beq_iff_eq] at named
  cases setting with
  | trace | traceLog | maxDepth | heapLimit =>
      simp only [set?, sameName, named, Setting.key, String.reduceBEq, if_true, if_false,
        Bool.false_eq_true]
      split
      · rfl
      · simp_all [Setting.ofNode?]
  | timeout =>
      simp only [set?, sameName, named, Setting.key, String.reduceBEq, if_true, if_false,
        Bool.false_eq_true]
      rfl

end Settings

/-! ## The settings of a command -/

namespace Command

variable {files : Files} {arguments operands : List String} {options : Options}
  {command later : Command} {base : Settings} {given : List (Flag × String)}

/-- When a command goes to work, and with which settings. -/
theorem prepare_eq_work_iff :
    command.prepare files arguments = (.work options operands, later) ↔
      Options.parse arguments = .ok (options, operands) ∧
      ∃ base, fileSettings options files command.settings = .ok base ∧ operands ≠ [] ∧
        (options.image ≠ "" → operands.length = 1) ∧
        later = { command with settings := options.override base } := by
  unfold prepare
  split
  · next refused => simp [refused]
  · next refused => simp [refused]
  · next chosen rest read =>
    rw [read]
    cases started : fileSettings chosen files command.settings with
    | error error =>
        simp only [Prod.mk.injEq, reduceCtorEq, false_and, Except.ok.injEq, false_iff]
        rintro ⟨⟨rfl, rfl⟩, base, isBase, -⟩
        simp [started] at isBase
    | ok settings =>
        simp only [Except.ok.injEq, Prod.mk.injEq]
        split_ifs with empty several
        · simp only [Prod.mk.injEq, reduceCtorEq, false_and, false_iff]
          rintro ⟨⟨-, rfl⟩, base, -, nonempty, -⟩
          exact nonempty (List.isEmpty_iff.mp empty)
        · simp only [Prod.mk.injEq, reduceCtorEq, false_and, false_iff]
          rintro ⟨⟨rfl, rfl⟩, base, -, -, single, -⟩
          simp only [Bool.and_eq_true, Bool.not_eq_true', String.isEmpty_eq_false_iff,
            bne_iff_ne] at several
          exact several.2 (single several.1)
        · constructor
          · intro same
            cases same
            refine ⟨⟨rfl, rfl⟩, settings, started, fun isNil => empty (by simp [isNil]), ?_, rfl⟩
            intro named
            simpa [named] using several
          · rintro ⟨⟨rfl, rfl⟩, base, isBase, -, -, rfl⟩
            cases started.symm.trans isBase
            rfl

/-- Settings come from the file that a flag names, if there is one. -/
theorem fileSettings_eq_ok_iff {old : Settings} :
    fileSettings options files old = .ok base ↔
      options.config = "" ∧ base = old ∨
      options.config ≠ "" ∧ ∃ document, files.read options.config = .ok document ∧
        Settings.read document = .ok base := by
  unfold fileSettings
  by_cases noFile : options.config = ""
  · rw [if_pos (by rw [noFile]; rfl)]
    simp [noFile, @eq_comm _ base]
  · rw [if_neg (by simpa using noFile)]
    cases files.read options.config with
    | error fault => simp [noFile]
    | ok document =>
        cases read : Settings.read document with
        | error error => simp [noFile, read]
        | ok settings => simp [noFile, read]

/-- Flags go before the settings that a command starts from. -/
theorem some_get_override (sets : Options.setAll {} given = .ok options) (setting : Setting)
    (base : Settings) :
    some (setting.get (options.override base)) =
      (Options.lastValue setting.flag given).elim (some (setting.get base)) setting.ofText? := by
  obtain ⟨chosen, -⟩ := Options.fields_of_setAll sets
  rw [Setting.get_override, chosen]
  cases last : Options.lastValue setting.flag given with
  | none => rfl
  | some text =>
      have takes := (Options.exists_setAll_iff {} given).mp ⟨options, sets⟩ _
        (Options.mem_of_lastValue last)
      obtain ⟨value, isValue⟩ := Setting.exists_ofText?_of_takes takes
      rw [Option.bind_some, Option.elim_some, isValue, Option.getD_some]

end Command

end StackMachine
