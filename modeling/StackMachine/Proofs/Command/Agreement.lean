import Mathlib
import StackMachine.Proofs.Command.Limits
import StackMachine.Proofs.Command.Occurrences

/-!
# Whether flags and documents agree on limits

The same limit can be given by flag or by document, among the same other arguments
(`Limit.Variants`).  A flag is not checked for a negative amount and a document is; apart from that
both are accepted together, and then they lead to the same settings and the same results
(`Limit.agree_unless_negative`).
-/

namespace StackMachine

/-! ## Commands without a past -/

namespace Command

/-- The document that a command without a past takes its settings from: that of the file which the
last occurrence of its flag names.  If it names none, the document is empty. -/
def NamesDocument (files : Files) (given : List (Flag × String)) (document : Bytes) : Prop :=
  let path := (Options.lastValue .config given).getD ""
  path = "" ∧ document = [] ∨ path ≠ "" ∧ files.read path = .ok document

/-- The arguments let a command go to work. -/
def Accepts (files : Files) (arguments : List String) (command : Command) : Prop :=
  ∃ options operands later, command.prepare files arguments = (.work options operands, later)

variable {files : Files} {arguments operands rest : List String} {options : Options}
  {command later : Command} {given : List (Flag × String)} {document : Bytes} {base : Settings}

theorem fileSettings_of_names (names : NamesDocument files given document)
    (sets : Options.setAll {} given = .ok options) :
    fileSettings options files {} = .ok base ↔ Settings.read document = .ok base := by
  rw [fileSettings_eq_ok_iff, (Options.fields_of_setAll sets).2.1]
  obtain ⟨noPath, rfl⟩ | ⟨isPath, opened⟩ := names
  · have empty : Settings.read [] = .ok {} := Settings.read_of_heldBy Settings.heldBy_nil
    simp [noPath, empty, @eq_comm _ base]
  · simp [isPath, opened]

/-- A document that is refused ends the command. -/
theorem execute_of_read_eq_error {error : SettingsError}
    (parsed : Options.parse arguments = .ok (options, operands)) (isPath : options.config ≠ "")
    (opened : files.read options.config = .ok document)
    (refused : Settings.read document = .error error) (patience : Nat) :
    command.execute files patience arguments =
      ({}, command.fail (.settings options.config error)) := by
  simp only [execute, prepare, parsed, fileSettings, String.isEmpty_iff, isPath, if_false, opened,
    refused]

section Fresh

variable (fresh : command.settings = {}) (gives : Options.Gives arguments given operands)
  (names : NamesDocument files given document)
include fresh gives names

/-- What a command without a past makes of arguments in one of the forms. -/
theorem prepare_eq_work_iff_of_gives :
    command.prepare files arguments = (.work options rest, later) ↔
      rest = operands ∧ Options.setAll {} given = .ok options ∧
        ∃ base, Settings.read document = .ok base ∧ operands ≠ [] ∧
          (options.image ≠ "" → operands.length = 1) ∧
          later = { command with settings := options.override base } := by
  rw [prepare_eq_work_iff, Options.parse, Options.parseFrom_of_gives gives, map_eq_ok_iff, fresh]
  constructor
  · rintro ⟨⟨_, sets, same⟩, base, started, nonempty, single, rfl⟩
    cases same
    exact ⟨rfl, sets, base, (fileSettings_of_names names sets).mp started, nonempty, single, rfl⟩
  · rintro ⟨rfl, sets, base, read, nonempty, single, rfl⟩
    exact ⟨⟨options, sets, rfl⟩, base, (fileSettings_of_names names sets).mpr read, nonempty,
      single, rfl⟩

theorem accepts_iff :
    command.Accepts files arguments ↔
      (∃ options, Options.setAll {} given = .ok options) ∧
        (∃ base, Settings.read document = .ok base) ∧ operands ≠ [] ∧
        ((Options.lastValue .image given).getD "" ≠ "" → operands.length = 1) := by
  simp only [Accepts, prepare_eq_work_iff_of_gives fresh gives names]
  constructor
  · rintro ⟨options, _, _, -, sets, base, read, nonempty, single, -⟩
    rw [(Options.fields_of_setAll sets).2.2] at single
    exact ⟨⟨options, sets⟩, ⟨base, read⟩, nonempty, single⟩
  · rintro ⟨⟨options, sets⟩, ⟨base, read⟩, nonempty, single⟩
    rw [← (Options.fields_of_setAll sets).2.2] at single
    exact ⟨options, operands, _, rfl, sets, base, read, nonempty, single, rfl⟩

end Fresh

end Command

/-! ## The same limit by flag and by document -/

/-- Arguments that differ only in how they give a limit. -/
structure Limit.Variants (limit : Limit) (files : Files) where
  /-- What the arguments give in front of the place where the limit goes, and behind it. -/
  front : List (Flag × String)
  back : List (Flag × String)
  operands : List String
  /-- The settings in the document, the limit aside. -/
  others : Settings
  /-- Arguments that do not give the limit, and the document that they name. -/
  plain : List String
  document : Bytes
  /-- Arguments with its flag, and the text in them. -/
  byFlag : List String
  text : String
  /-- Arguments that name a document with the limit. -/
  byFile : List String
  path : String
  extended : Bytes
  plain_gives : Options.Gives plain (front ++ back) operands
  byFlag_gives : Options.Gives byFlag (front ++ (limit.setting.flag, text) :: back) operands
  byFile_gives : Options.Gives byFile (front ++ (.config, path) :: back) operands
  absent : ∀ text, (limit.setting.flag, text) ∉ front ++ back
  isLast : ∀ path, (.config, path) ∉ back
  names : Command.NamesDocument files (front ++ back) document
  held : others.HeldBy document
  unset : limit.setting.get others = limit.setting.get {}
  isPath : path ≠ ""
  opened : files.read path = .ok extended
  isGiven : limit.IsGiven others text extended

namespace Limit.Variants

variable {limit : Limit} {files : Files} (variants : limit.Variants files)

theorem read_document {base : Settings} : Settings.read variants.document = .ok base ↔
    base = variants.others ∧ variants.others.Allowed := by
  rw [Settings.read_of_heldBy variants.held, Settings.checkLimits_eq_ok_iff]

theorem names_byFlag : Command.NamesDocument files
    (variants.front ++ (limit.setting.flag, variants.text) :: variants.back)
    variants.document := by
  have noConfig : limit.setting.flag ≠ .config := fun same =>
    limit.setting.flag_notMem (by simp [same])
  rw [Command.NamesDocument, Options.lastValue_insert_of_ne noConfig]
  exact variants.names

theorem names_byFile : Command.NamesDocument files
    (variants.front ++ (.config, variants.path) :: variants.back) variants.extended := by
  rw [Command.NamesDocument, Options.lastValue_insert_self variants.isLast]
  exact .inr ⟨variants.isPath, variants.opened⟩

section Fresh

variable {command : Command} (fresh : command.settings = {})
include fresh

/-- The flag is refused only if a setting cannot hold the limit. -/
theorem accepts_byFlag_iff :
    command.Accepts files variants.byFlag ↔
      command.Accepts files variants.plain ∧ limit.Fits := by
  have noImage : limit.setting.flag ≠ .image := fun same =>
    limit.setting.flag_notMem (by simp [same])
  rw [Command.accepts_iff fresh variants.plain_gives variants.names,
    Command.accepts_iff fresh variants.byFlag_gives variants.names_byFlag,
    Options.exists_setAll_insert_iff, Options.lastValue_insert_of_ne noImage,
    variants.isGiven.takes_iff]
  tauto

/-- The document is refused also if the limit is negative. -/
theorem accepts_byFile_iff :
    command.Accepts files variants.byFile ↔
      command.Accepts files variants.plain ∧ limit.Fits ∧ ¬ limit.IsNegative := by
  have takes : Flag.config.Takes variants.path := trivial
  rw [Command.accepts_iff fresh variants.plain_gives variants.names,
    Command.accepts_iff fresh variants.byFile_gives variants.names_byFile,
    Options.exists_setAll_insert_iff, Options.lastValue_insert_of_ne (by decide)]
  simp only [variants.isGiven.read_eq_ok_iff variants.unset, variants.read_document,
    exists_and_left, exists_eq_left, exists_eq]
  tauto

variable {options : Options} {rest : List String} {later : Command}
  (plain : command.prepare files variants.plain = (.work options rest, later))
  (fits : limit.Fits)
include plain fits

/-- What the flag does: the settings are those without it, but for the limit, and there is the same
to be done. -/
theorem exists_prepare_byFlag : ∃ given, command.prepare files variants.byFlag =
      (.work given rest, { later with
        settings := limit.setting.put limit.value later.settings }) ∧
    Command.SameTask given options := by
  obtain ⟨given, _, _, prepared⟩ :=
    (variants.accepts_byFlag_iff fresh).mpr ⟨⟨_, _, _, plain⟩, fits⟩
  obtain ⟨rfl, sets, base, read, -, -, rfl⟩ :=
    (Command.prepare_eq_work_iff_of_gives fresh variants.plain_gives variants.names).mp plain
  obtain ⟨rfl, setsMore, _, readMore, -, -, rfl⟩ :=
    (Command.prepare_eq_work_iff_of_gives fresh variants.byFlag_gives variants.names_byFlag).mp
      prepared
  cases read.symm.trans readMore
  rw [Options.override_insert sets setsMore rfl
    (fun text mem => variants.absent text (List.mem_append_right _ mem))
    (variants.isGiven.of_fits fits).1] at prepared
  exact ⟨given, prepared, Options.sameTask_insert sets setsMore
    fun mem => limit.setting.flag_notMem (List.mem_cons_of_mem _ mem)⟩

/-- The document does the same as the flag, unless the limit is negative. -/
theorem exists_prepare_byFile (allowed : ¬ limit.IsNegative) :
    ∃ given, command.prepare files variants.byFile =
      (.work given rest, { later with
        settings := limit.setting.put limit.value later.settings }) ∧
    Command.SameTask given options := by
  obtain ⟨given, _, _, prepared⟩ :=
    (variants.accepts_byFile_iff fresh).mpr ⟨⟨_, _, _, plain⟩, fits, allowed⟩
  obtain ⟨rfl, sets, base, read, -, -, rfl⟩ :=
    (Command.prepare_eq_work_iff_of_gives fresh variants.plain_gives variants.names).mp plain
  obtain ⟨rfl, setsMore, _, readMore, -, -, rfl⟩ :=
    (Command.prepare_eq_work_iff_of_gives fresh variants.byFile_gives variants.names_byFile).mp
      prepared
  obtain ⟨rfl, -⟩ := variants.read_document.mp read
  obtain ⟨-, -, rfl⟩ := (variants.isGiven.read_eq_ok_iff variants.unset).mp readMore
  rw [Options.override_put_insert sets setsMore
    (fun named same => named.flag_notMem (by simp [← same])) variants.absent] at prepared
  exact ⟨given, prepared, Options.sameTask_insert sets setsMore (by decide)⟩

/-- A negative limit in the document ends the command, and the message names the limit. -/
theorem execute_byFile_of_isNegative (negative : limit.IsNegative) (patience : Nat) :
    command.execute files patience variants.byFile =
      ({}, command.fail (.settings variants.path
        (.negative limit.setting.key limit.text))) := by
  obtain ⟨-, sets, base, read, -⟩ :=
    (Command.prepare_eq_work_iff_of_gives fresh variants.plain_gives variants.names).mp plain
  obtain ⟨-, allowed⟩ := variants.read_document.mp read
  obtain ⟨given, setsMore⟩ := (@Options.exists_setAll_insert_iff .config variants.path _ _).mpr
    ⟨⟨_, sets⟩, trivial⟩
  have parsed := Options.parseFrom_of_gives variants.byFile_gives {}
  rw [setsMore] at parsed
  have isPath : given.config = variants.path := by
    rw [(Options.fields_of_setAll setsMore).2.1, Options.lastValue_insert_self variants.isLast]
    rfl
  have refused := Settings.read_of_heldBy (variants.isGiven.of_fits fits).2
  rw [checkLimits_put allowed fits negative] at refused
  rw [← isPath]
  exact Command.execute_of_read_eq_error parsed (isPath ▸ variants.isPath)
    (isPath ▸ variants.opened) refused patience

end Fresh

end Limit.Variants

/-- Flags and documents agree on limits that are not negative.  Every integer can be given in both,
by its digits and by the line with them, and the text of a duration means the same in both.  The
flag of a limit is accepted if a setting can hold the amount, and then the settings are those
without it but for the limit; an entry of a document is accepted if in addition the amount is not
negative.  Where both are accepted they lead to the same settings and the same results.  A negative
amount in a document ends the command with a message, while its flag lets the command go to work
with it. -/
theorem Limit.agree_unless_negative (limit : Limit) (files : Files)
    (variants : limit.Variants files) (log : Logger) (stdin : Stdin) (stdout : Sink) :
    let fresh : Command := { log, stdin, stdout }
    let prepared (arguments : List String) := (fresh.prepare files arguments).2
    (∀ amount, limit.IsInteger amount → limit.IsGiven {} (toString amount)
      (Utf8.encode (Toml.line limit.setting.key amount))) ∧
    (∀ text, Setting.timeout.ofText? text = Setting.timeout.ofNode? (.leaf (.text text))) ∧
    (fresh.Accepts files variants.byFlag ↔ fresh.Accepts files variants.plain ∧ limit.Fits) ∧
    (fresh.Accepts files variants.byFile ↔
      fresh.Accepts files variants.byFlag ∧ ¬ limit.IsNegative) ∧
    (fresh.Accepts files variants.byFile →
      prepared variants.byFlag = prepared variants.byFile ∧
      ∀ patience, fresh.execute files patience variants.byFlag =
        fresh.execute files patience variants.byFile) ∧
    (fresh.Accepts files variants.byFlag →
      (prepared variants.byFlag).settings =
        limit.setting.put limit.value (prepared variants.plain).settings ∧
      (limit.IsNegative → ∀ patience, fresh.execute files patience variants.byFile =
        ({}, fresh.fail (.settings variants.path (.negative limit.setting.key limit.text))))) := by
  intro fresh prepared
  have flag : fresh.Accepts files variants.byFlag ↔ _ := variants.accepts_byFlag_iff rfl
  have file : fresh.Accepts files variants.byFile ↔ _ := variants.accepts_byFile_iff rfl
  refine ⟨fun _ => isGiven_toString, Setting.ofText?_timeout, flag, by rw [file, flag, and_assoc],
    fun accepted => ?_, fun accepted => ?_⟩
  · obtain ⟨⟨options, rest, later, plain⟩, fits, allowed⟩ := file.mp accepted
    obtain ⟨given, flagged, sameTask⟩ := variants.exists_prepare_byFlag rfl plain fits
    obtain ⟨other, filed, otherTask⟩ := variants.exists_prepare_byFile rfl plain fits allowed
    refine ⟨by simp only [prepared, flagged, filed], fun patience => ?_⟩
    rw [Command.execute, Command.execute, flagged, filed]
    exact (Command.work_congr sameTask files patience rest _).trans
      (Command.work_congr otherTask files patience rest _).symm
  · obtain ⟨⟨options, rest, later, plain⟩, fits⟩ := flag.mp accepted
    obtain ⟨given, flagged, -⟩ := variants.exists_prepare_byFlag rfl plain fits
    exact ⟨by simp only [prepared, flagged, plain], fun negative patience =>
      variants.execute_byFile_of_isNegative rfl plain fits negative patience⟩

/-- A depth of -1 is taken from the flag and refused in a document. -/
theorem Limit.negative_depth_by_flag_only :
    let files : Files := { read := fun _ => .ok (Utf8.encode "max_depth = -1\n") }
    let fresh : Command := {}
    fresh.Accepts files ["-max-depth", "-1", "a.rvm"] ∧
      ¬ fresh.Accepts files ["-config", "c.toml", "a.rvm"] := by
  intro files fresh
  have gives : Options.Gives ["a.rvm"] [] ["a.rvm"] := .operands (.inr (by decide))
  let variants : (Limit.maxDepth (-1)).Variants files :=
    { front := [], back := [], operands := ["a.rvm"], others := {}, plain := ["a.rvm"]
      document := [], byFlag := ["-max-depth", "-1", "a.rvm"], text := "-1"
      byFile := ["-config", "c.toml", "a.rvm"], path := "c.toml"
      extended := Utf8.encode "max_depth = -1\n"
      plain_gives := gives
      byFlag_gives := .separate rfl List.mem_cons_self gives
      byFile_gives := .separate rfl List.mem_cons_self gives
      absent := by simp
      isLast := by simp
      names := .inl ⟨rfl, rfl⟩
      held := Settings.heldBy_nil
      unset := rfl
      isPath := by decide
      opened := rfl
      isGiven := isGiven_toString (.inl rfl) }
  obtain ⟨-, -, byFlag, byFile, -⟩ :=
    Limit.agree_unless_negative (.maxDepth (-1)) files variants {} {} {}
  have fits : FitsWord (-1) := by decide
  have negative : (-1 : Int) < 0 := by decide
  have accepted := byFlag.mpr ⟨⟨{}, ["a.rvm"], {}, rfl⟩, fits⟩
  exact ⟨accepted, fun both => (byFile.mp both).2 negative⟩

end StackMachine
