import Mathlib
import StackMachine.Proofs.Command.Precedence
import StackMachine.Proofs.Number.Notations

/-!
# Limits in flags and in documents

A limit on runs is an integer or a duration.  Every integer can be given by its digits
(`Limit.isGiven_toString`).  The flag takes a limit if a setting can hold the amount
(`Limit.IsGiven.takes_iff`); a document is in addition refused if the amount is negative
(`Limit.IsGiven.read_eq_ok_iff`).
-/

namespace StackMachine

namespace Setting

/-- A value below zero, which no limit may have in a document. -/
def IsNegative : (setting : Setting) → setting.Value → Prop
  | .trace, _ | .traceLog, _ => False
  | .timeout, length => length.nanoseconds < 0
  | .maxDepth, limit | .heapLimit, limit => limit < 0

theorem sameName_key (setting : Setting) :
    Settings.sameName setting.key setting.key = true := by
  cases setting <;> simp [Settings.sameName, key, ← String.toList_inj]

/-- The text of a duration is read in the same way from a flag and from a document. -/
theorem ofText?_timeout (text : String) :
    timeout.ofText? text = timeout.ofNode? (.leaf (.text text)) := by
  change (Options.readDuration text).toOption = (Duration.read (Utf8.encode text)).toOption
  unfold Options.readDuration
  cases Duration.read (Utf8.encode text) <;> rfl

theorem not_isNegative_default (setting : Setting) : ¬ setting.IsNegative (setting.get {}) := by
  cases setting <;> simp [IsNegative, get]

end Setting

namespace Settings

variable {settings checked : Settings} {setting : Setting} {value : setting.Value}

/-- None of the values is negative. -/
def Allowed (settings : Settings) : Prop :=
  ∀ setting : Setting, ¬ setting.IsNegative (setting.get settings)

theorem checkLimits_eq_ok_iff :
    settings.checkLimits = .ok checked ↔ checked = settings ∧ settings.Allowed := by
  unfold checkLimits
  constructor
  · intro passed
    split_ifs at passed with depth heap time
    refine ⟨(Except.ok.inj passed).symm, fun setting => ?_⟩
    cases setting with
    | trace | traceLog => exact id
    | timeout => exact time
    | maxDepth => exact depth
    | heapLimit => exact heap
  · rintro ⟨rfl, allowed⟩
    exact (if_neg (allowed .maxDepth)).trans
      ((if_neg (allowed .heapLimit)).trans (if_neg (allowed .timeout)))

/-- A value more is allowed if it is not negative. -/
theorem allowed_put_iff (unset : setting.get settings = setting.get {}) :
    (setting.put value settings).Allowed ↔ settings.Allowed ∧ ¬ setting.IsNegative value := by
  constructor
  · intro allowed
    refine ⟨fun other => ?_, by simpa only [Setting.get_put] using allowed setting⟩
    by_cases same : other = setting
    · subst same
      exact unset ▸ other.not_isNegative_default
    · exact Setting.get_put_of_ne same value settings ▸ allowed other
  · rintro ⟨allowed, nonneg⟩ other
    by_cases same : other = setting
    · subst same
      rwa [Setting.get_put]
    · rw [Setting.get_put_of_ne same]
      exact allowed other

/-- The settings that a document holds, be they allowed or not. -/
def HeldBy (document : Bytes) (settings : Settings) : Prop :=
  ∃ tables, Toml.tables? document = some tables ∧ ofEntries tables.root {} = .ok settings ∧
    ∀ path ∈ tables.named, isKnown path = true

theorem read_of_heldBy {document : Bytes} (held : settings.HeldBy document) :
    Settings.read document = settings.checkLimits := by
  obtain ⟨tables, found, taken, known⟩ := held
  simp only [Settings.read, found, taken]
  exact if_pos (by simpa using known)

theorem heldBy_nil : HeldBy [] {} := by
  have empty : Utf8.decodeStrict (Toml.skipMark []) = some [] := Utf8.decodeStrict.eq_1
  refine ⟨{}, ?_, rfl, by simp⟩
  rw [Toml.tables?, Toml.read?, empty]
  rfl

end Settings

/-! ## Limits -/

/-- A limit on runs, and how much it allows. -/
inductive Limit where
  | maxDepth (amount : Int)
  | heapLimit (amount : Int)
  | timeout (length : Duration)

namespace Limit

/-- The setting that holds the limit. -/
def setting : Limit → Setting
  | .maxDepth _ => .maxDepth
  | .heapLimit _ => .heapLimit
  | .timeout _ => .timeout

/-- The amount in the usual notation. -/
def text : Limit → String
  | .maxDepth amount | .heapLimit amount => toString amount
  | .timeout length => length.text

/-- The amount is one that a setting can hold. -/
def Fits : Limit → Prop
  | .maxDepth amount | .heapLimit amount => FitsWord amount
  | .timeout _ => True

/-- The amount is below zero. -/
def IsNegative : Limit → Prop
  | .maxDepth amount | .heapLimit amount => amount < 0
  | .timeout length => length.nanoseconds < 0

/-- The limit is a number of calls or of cells. -/
def IsInteger (limit : Limit) (amount : Int) : Prop :=
  limit = .maxDepth amount ∨ limit = .heapLimit amount

theorem IsInteger.key_eq {limit : Limit} {amount : Int} (isInteger : limit.IsInteger amount) :
    limit.setting.key = "max_depth" ∨ limit.setting.key = "heap_limit" := by
  rcases isInteger with rfl | rfl
  exacts [.inl rfl, .inr rfl]

theorem IsInteger.fits_iff {limit : Limit} {amount : Int} (isInteger : limit.IsInteger amount) :
    limit.Fits ↔ FitsWord amount := by
  rcases isInteger with rfl | rfl <;> exact Iff.rfl

/-- The amount as a setting holds it. -/
def value : (limit : Limit) → limit.setting.Value
  | .maxDepth amount | .heapLimit amount => Int64.ofInt amount
  | .timeout length => length

/-- A text gives the limit as the value of its flag, and a document gives it beside other settings.
Any notation will do that means the amount.  An integer that no setting can hold is given by its
digits, and by a line in front of whatever the document holds else. -/
inductive IsGiven (limit : Limit) (others : Settings) : String → Bytes → Prop where
  | meant {text : String} {document : Bytes} (fits : limit.Fits)
      (means : limit.setting.ofText? text = some limit.value)
      (held : (limit.setting.put limit.value others).HeldBy document) :
      IsGiven limit others text document
  | beyond {amount : Int} {document : Bytes} (isInteger : limit.IsInteger amount)
      (beyond : ¬ FitsWord amount)
      (begins : Toml.BeginsWith document (Toml.line limit.setting.key amount)) :
      IsGiven limit others (toString amount) document

variable {limit : Limit} {others settings : Settings} {text : String} {document : Bytes}
  {amount : Int}

theorem isNegative_value_iff (fits : limit.Fits) :
    limit.setting.IsNegative limit.value ↔ limit.IsNegative := by
  cases limit with
  | maxDepth amount | heapLimit amount =>
      change Int64.ofInt amount < 0 ↔ amount < 0
      rw [Int64.lt_iff_toInt_lt, Int64.toInt_ofInt_of_le fits.1 fits.2]
      rfl
  | timeout length => exact Iff.rfl

/-- A limit that is the only negative value is named by the check. -/
theorem checkLimits_put (allowed : others.Allowed) (fits : limit.Fits)
    (negative : limit.IsNegative) :
    (limit.setting.put limit.value others).checkLimits =
      .error (.negative limit.setting.key limit.text) := by
  have below := (isNegative_value_iff fits).mpr negative
  have shown {amount : Int} (fits : FitsWord amount) (key : String) :
      SettingsError.negative key (toString (Int64.ofInt amount).toInt) =
        .negative key (toString amount) := by
    rw [Int64.toInt_ofInt_of_le fits.1 fits.2]
  unfold Settings.checkLimits
  cases limit with
  | maxDepth amount => exact (if_pos below).trans (congrArg _ (shown fits _))
  | heapLimit amount =>
      exact (if_neg (allowed .maxDepth)).trans ((if_pos below).trans (congrArg _ (shown fits _)))
  | timeout length =>
      exact (if_neg (allowed .maxDepth)).trans
        ((if_neg (allowed .heapLimit)).trans (if_pos below))

theorem eq_ok_of_toOption {ε α : Type} {result : Except ε α} {value : α}
    (some : result.toOption = some value) : result = .ok value := by
  cases result <;> simp_all [Except.toOption]

/-- Every integer is given by its digits and by the line of a document. -/
theorem isGiven_toString (isInteger : limit.IsInteger amount) :
    limit.IsGiven {} (toString amount) (Utf8.encode (Toml.line limit.setting.key amount)) := by
  have isKey := isInteger.key_eq
  by_cases fits : FitsWord amount
  · refine .meant (isInteger.fits_iff.mpr fits) ?_ ⟨_, Toml.tables?_of_fits isKey fits, ?_, ?_⟩
    · rcases isInteger with rfl | rfl <;>
        simp only [Options.readInteger, Setting.ofText?, setting, readLiteral_toString, if_pos fits,
          value, Except.toOption]
    · rw [Settings.ofEntries, Settings.set?_of_sameName limit.setting.sameName_key]
      rcases isInteger with rfl | rfl <;> rfl
    · rcases isKey with isKey | isKey <;>
        simp [isKey, Settings.isKnown, Settings.names, Settings.sameName, ← String.toList_inj]
  · exact .beyond isInteger fits ⟨[], by rw [Toml.decodeStrict_line isKey, List.append_nil]⟩

namespace IsGiven

theorem of_fits (given : limit.IsGiven others text document) (fits : limit.Fits) :
    limit.setting.ofText? text = some limit.value ∧
      (limit.setting.put limit.value others).HeldBy document := by
  cases given with
  | meant _ means held => exact ⟨means, held⟩
  | beyond isInteger beyond => exact absurd (isInteger.fits_iff.mp fits) beyond

/-- The flag takes the limit if a setting can hold it. -/
theorem takes_iff (given : limit.IsGiven others text document) :
    limit.setting.flag.Takes text ↔ limit.Fits := by
  constructor
  · intro takes
    cases given with
    | meant fits => exact fits
    | beyond isInteger beyond =>
        rcases isInteger with rfl | rfl
        all_goals
          obtain ⟨number, read⟩ := takes
          rw [Options.readInteger, readLiteral_toString, if_neg beyond] at read
          cases read
  · intro fits
    obtain ⟨means, -⟩ := given.of_fits fits
    cases limit with
    | maxDepth | heapLimit | timeout => exact ⟨_, eq_ok_of_toOption means⟩

/-- The document is accepted if the other settings are, a setting can hold the limit and it is not
negative. -/
theorem read_eq_ok_iff (given : limit.IsGiven others text document)
    (unset : limit.setting.get others = limit.setting.get {}) :
    Settings.read document = .ok settings ↔ (limit.Fits ∧ ¬ limit.IsNegative) ∧ others.Allowed ∧
      settings = limit.setting.put limit.value others := by
  cases given with
  | meant fits _ held =>
      rw [Settings.read_of_heldBy held, Settings.checkLimits_eq_ok_iff,
        Settings.allowed_put_iff unset, isNegative_value_iff fits]
      tauto
  | beyond isInteger beyond begins =>
      have unread := Toml.tables?_of_not_fits isInteger.key_eq beyond begins
      simp [Settings.read, unread, isInteger.fits_iff, beyond]

end IsGiven

end Limit

end StackMachine
