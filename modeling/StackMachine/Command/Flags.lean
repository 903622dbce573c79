import StackMachine.Number.Integer
import StackMachine.Settings
import StackMachine.Text.Quoted

/-!
# Command line flags

Arguments begin with flags; the first argument that is no flag, or the mark `--`,
ends them.  A flag has one hyphen or two.  A switch takes a value only after an
equals sign, any other flag takes the next argument if there is no equals sign.
Where a flag occurs more than once, its last occurrence counts.
-/

namespace StackMachine

/-- The flags. -/
inductive Flag where
  | check
  | config
  | dump
  | heapLimit
  | maxDepth
  | image
  | timeout
  | trace
  | traceLog
  deriving DecidableEq, Repr

namespace Flag

/-- All flags by name. -/
def all : List Flag :=
  [.check, .config, .dump, .heapLimit, .maxDepth, .image, .timeout, .trace, .traceLog]

/-- The name of a flag. -/
def name : Flag → String
  | .check => "check"
  | .config => "config"
  | .dump => "dump"
  | .heapLimit => "heap-limit"
  | .maxDepth => "max-depth"
  | .image => "o"
  | .timeout => "timeout"
  | .trace => "trace"
  | .traceLog => "trace-log"

/-- The flag of a name. -/
def ofName? (name : String) : Option Flag := all.find? (·.name == name)

/-- A flag that is on or off. -/
def isSwitch : Flag → Bool
  | .check | .dump | .trace => true
  | _ => false

/-- The kind of value that a flag takes, in the words of the usage text. -/
def valueKind : Flag → String
  | .check | .dump | .trace => ""
  | .config | .image | .traceLog => " string"
  | .heapLimit | .maxDepth => " int"
  | .timeout => " duration"

/-- What a flag does, in the words of the usage text. -/
def purpose : Flag → String
  | .check => "only assemble"
  | .config => "read settings from a TOML file"
  | .dump => "dump final memory to stderr"
  | .heapLimit => "limit heap length"
  | .maxDepth => "limit nested function calls"
  | .image => "write a program image instead of running"
  | .timeout => "specify a time limit"
  | .trace => "enable trace logging"
  | .traceLog => "write trace logging to a file instead of stderr"

/-- The entry of a flag in the usage text. -/
def usage (flag : Flag) : String :=
  "  -" ++ flag.name ++ flag.valueKind ++ "\n    \t" ++ flag.purpose ++ "\n"

end Flag

/-- The usage text. -/
def usageText : String :=
  "usage: gorvmi [flags] file...\n" ++ String.join (Flag.all.map Flag.usage)

/-- Why a value does not suit a flag. -/
inductive FlagFault where
  | unreadable
  | outOfRange
  deriving DecidableEq, Repr

/-- The wording of a fault. -/
def FlagFault.message : FlagFault → String
  | .unreadable => "parse error"
  | .outOfRange => "value out of range"

/-- Why arguments are refused. -/
inductive FlagError where
  /-- The usage text was asked for. -/
  | helpWanted
  | badForm (argument : String)
  | undefined (name : String)
  | missingValue (flag : Flag)
  | unsuitable (flag : Flag) (value : String) (fault : FlagFault)
  deriving DecidableEq, Repr

/-- The wording of the error. -/
def FlagError.message : FlagError → String
  | .helpWanted => "flag: help requested"
  | .badForm argument => "bad flag syntax: " ++ argument
  | .undefined name => "flag provided but not defined: -" ++ name
  | .missingValue flag => "flag needs an argument: -" ++ flag.name
  | .unsuitable flag value fault =>
      if flag.isSwitch then
        "invalid boolean value " ++ quoted value ++ " for -" ++ flag.name ++ ": " ++ fault.message
      else "invalid value " ++ quoted value ++ " for flag -" ++ flag.name ++ ": " ++ fault.message

/-- What flags have chosen.  Settings that no flag mentions are `none`. -/
structure Options where
  check : Bool := false
  config : String := ""
  dump : Bool := false
  image : String := ""
  heapLimit : Option Int64 := none
  maxDepth : Option Int64 := none
  timeout : Option Duration := none
  trace : Option Bool := none
  traceLog : Option String := none
  deriving DecidableEq, Repr, Inhabited

namespace Options

/-- The values of a switch. -/
def readSwitch (value : String) : Except FlagFault Bool :=
  if ["1", "t", "T", "TRUE", "true", "True"].contains value then .ok true
  else if ["0", "f", "F", "FALSE", "false", "False"].contains value then .ok false
  else .error .unreadable

/-- An integer value, with an optional base mark. -/
def readInteger (value : String) : Except FlagFault Int64 :=
  match readLiteral value with
  | .ok n => .ok (Int64.ofInt n)
  | .error .syntactic => .error .unreadable
  | .error .range => .error .outOfRange

/-- A duration value. -/
def readDuration (value : String) : Except FlagFault Duration :=
  match Duration.read (Utf8.encode value) with
  | .ok d => .ok d
  | .error _ => .error .unreadable

/-- Gives a flag its value. -/
def set (options : Options) (flag : Flag) (value : String) : Except FlagFault Options :=
  match flag with
  | .check => (readSwitch value).map fun check => { options with check }
  | .config => .ok { options with config := value }
  | .dump => (readSwitch value).map fun dump => { options with dump }
  | .image => .ok { options with image := value }
  | .heapLimit => (readInteger value).map fun limit => { options with heapLimit := some limit }
  | .maxDepth => (readInteger value).map fun limit => { options with maxDepth := some limit }
  | .timeout => (readDuration value).map fun d => { options with timeout := some d }
  | .trace => (readSwitch value).map fun trace => { options with trace := some trace }
  | .traceLog => .ok { options with traceLog := some value }

/-- The forms of an argument. -/
inductive Form where
  | operand
  | terminator
  | malformed
  | named (name : String) (value : Option String)
  deriving DecidableEq, Repr

/-- A flag without its hyphens: its name, and its value after the first equals sign. -/
def splitValue (text : List Char) : String × Option String :=
  match text.dropWhile (· != '=') with
  | [] => (String.ofList text, none)
  | _ :: value => (String.ofList (text.takeWhile (· != '=')), some (String.ofList value))

/-- The form of an argument. -/
def formOf (argument : String) : Form :=
  match argument.toList with
  | ['-', '-'] => .terminator
  | '-' :: '-' :: c :: rest => flagged (c :: rest)
  | '-' :: c :: rest => flagged (c :: rest)
  | _ => .operand
where
  /-- What follows the hyphens. -/
  flagged (text : List Char) : Form :=
    if text.head? == some '-' || text.head? == some '=' then .malformed
    else
      let (name, value) := splitValue text
      .named name value

/-- Gives a flag its value, or says why not. -/
def setChecked (options : Options) (flag : Flag) (value : String) : Except FlagError Options :=
  match options.set flag value with
  | .ok options => .ok options
  | .error fault => .error (.unsuitable flag value fault)

/-- Reads the flags at the start of the arguments; the rest are the operands. -/
def parseFrom : Options → List String → Except FlagError (Options × List String)
  | options, [] => .ok (options, [])
  | options, argument :: rest =>
      match formOf argument with
      | .operand => .ok (options, argument :: rest)
      | .terminator => .ok (options, rest)
      | .malformed => .error (.badForm argument)
      | .named name value =>
          match Flag.ofName? name with
          | none =>
              .error (if name = "help" ∨ name = "h" then .helpWanted else .undefined name)
          | some flag =>
              if flag.isSwitch then
                match options.setChecked flag (value.getD "true") with
                | .error error => .error error
                | .ok options => parseFrom options rest
              else
                match value with
                | some value =>
                    match options.setChecked flag value with
                    | .error error => .error error
                    | .ok options => parseFrom options rest
                | none =>
                    match rest with
                    | [] => .error (.missingValue flag)
                    | value :: rest =>
                        match options.setChecked flag value with
                        | .error error => .error error
                        | .ok options => parseFrom options rest

/-- Reads arguments. -/
def parse (arguments : List String) : Except FlagError (Options × List String) :=
  parseFrom {} arguments

/-- Settings with the choices of the flags in place of their own. -/
def override (options : Options) (settings : Settings) : Settings where
  trace := options.trace.getD settings.trace
  traceLog := options.traceLog.getD settings.traceLog
  timeout := options.timeout.getD settings.timeout
  maxDepth := options.maxDepth.getD settings.maxDepth
  heapLimit := options.heapLimit.getD settings.heapLimit

end Options

end StackMachine
