import StackMachine.Duration
import StackMachine.Toml.Tables

/-!
# Settings

The settings of a run and their TOML form.  Every key of a document must be a
known one, and no limit may be negative.
-/

namespace StackMachine

/-- The settings of a run.  A limit of zero is no limit. -/
structure Settings where
  /-- Log every instruction. -/
  trace : Bool := false
  /-- The file that trace lines are appended to, if it has a name. -/
  traceLog : String := ""
  timeout : Duration := {}
  /-- The limit on nested calls. -/
  maxDepth : Int64 := 0
  /-- The limit on the length of the heap. -/
  heapLimit : Int64 := 0
  deriving DecidableEq, Repr, Inhabited

/-- Why a document does not give settings. -/
inductive SettingsError where
  | malformed
  | unsuitable (key : String)
  | unknownKeys (keys : List Toml.Path)
  | negative (key value : String)
  deriving DecidableEq, Repr

/-- The wording of the error. -/
def SettingsError.message : SettingsError → String
  | .malformed => "toml: malformed document"
  | .unsuitable key => "toml: unsuitable value for " ++ key
  | .unknownKeys keys => "unknown keys: " ++ ", ".intercalate (keys.map Toml.keyText)
  | .negative key value => key ++ " must not be negative, got " ++ value

namespace Settings

/-- Names of settings match in any case. -/
def sameName (name key : String) : Bool := key.map Char.toLower == name

/-- The names of all settings. -/
def names : List String := ["trace", "trace_log", "timeout", "max_depth", "heap_limit"]

/-- A duration is written as text; an integer stands for its digits, so that zero needs no unit. -/
def durationOf? : Toml.Node → Option Duration
  | .leaf (.text text) => (Duration.read (Utf8.encode text)).toOption
  | .leaf (.scalar (.integer n)) => (Duration.read (Utf8.encode (toString n))).toOption
  | _ => none

/-- Takes the value of a key over. -/
def set? (settings : Settings) (key : String) (node : Toml.Node) : Option Settings :=
  if sameName "trace" key then
    match node with
    | .leaf (.scalar (.boolean trace)) => some { settings with trace }
    | _ => none
  else if sameName "trace_log" key then
    match node with
    | .leaf (.text traceLog) => some { settings with traceLog }
    | _ => none
  else if sameName "timeout" key then
    (durationOf? node).map fun timeout => { settings with timeout }
  else if sameName "max_depth" key then
    match node with
    | .leaf (.scalar (.integer n)) => some { settings with maxDepth := Int64.ofInt n }
    | _ => none
  else if sameName "heap_limit" key then
    match node with
    | .leaf (.scalar (.integer n)) => some { settings with heapLimit := Int64.ofInt n }
    | _ => none
  else some settings

/-- Takes all entries of the outermost table over. -/
def ofEntries : Toml.Entries → Settings → Except SettingsError Settings
  | [], settings => .ok settings
  | (key, node) :: rest, settings =>
      match settings.set? key node with
      | none => .error (.unsuitable key)
      | some settings => ofEntries rest settings

/-- A path that names a setting. -/
def isKnown : Toml.Path → Bool
  | [key] => names.any fun name => sameName name key
  | _ => false

/-- The limits must not be negative. -/
def checkLimits (settings : Settings) : Except SettingsError Settings :=
  if settings.maxDepth < 0 then
    .error (.negative "max_depth" (toString settings.maxDepth.toInt))
  else if settings.heapLimit < 0 then
    .error (.negative "heap_limit" (toString settings.heapLimit.toInt))
  else if settings.timeout.nanoseconds < 0 then
    .error (.negative "timeout" settings.timeout.text)
  else .ok settings

/-- The settings that a document gives. -/
def read (document : Bytes) : Except SettingsError Settings :=
  match Toml.tables? document with
  | none => .error .malformed
  | some tables =>
      match ofEntries tables.root {} with
      | .error error => .error error
      | .ok settings =>
          let unknown := tables.named.reverse.filter fun path => !isKnown path
          if unknown.isEmpty then settings.checkLimits else .error (.unknownKeys unknown)

end Settings

end StackMachine
