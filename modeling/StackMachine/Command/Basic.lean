import StackMachine.Command.Flags
import StackMachine.Command.Load
import StackMachine.Command.Stdin
import StackMachine.Dump
import StackMachine.Logging.Logger
import StackMachine.Machine.Basic

/-!
# The command line

A command loads the programs that its arguments name and runs them one after
another, checks them, or writes the image of one.  Settings, the exit code, the
unread input and the output carry over to the next command.
-/

namespace StackMachine

/-- Why a command fails. -/
inductive CommandError where
  | flags (error : FlagError)
  | unreadableSettings (path : String) (fault : FileFault)
  | settings (path : String) (error : SettingsError)
  /-- An image is made of one program only. -/
  | imageOperands (count : Nat)
  | load (error : LoadError)
  | create (name : String) (fault : FileFault)
  | run (name : String) (failure : RunFailure)
  deriving DecidableEq, Repr

/-- The wording of the error. -/
def CommandError.message : CommandError → String
  | .flags error => error.message
  | .unreadableSettings path fault => "parse error in " ++ path ++ ": " ++ fault.reading path
  | .settings path error =>
      match error with
      | .malformed => "parse error in " ++ path ++ ": " ++ error.message
      | .unsuitable _ => "parse error in " ++ path ++ ": " ++ error.message
      | .unknownKeys _ => "invalid config " ++ path ++ ": " ++ error.message
      | .negative _ _ => "invalid config " ++ path ++ ": " ++ error.message
  | .imageOperands count => s!"-o needs exactly one input file, got {count}"
  | .load error => error.message
  | .create name fault => fault.opening name
  | .run name failure => name ++ ": " ++ failure.message

/-- What the running of programs changes. -/
structure Session where
  input : Input := .empty
  sinks : Sinks := #[{}]
  /-- The dumps so far. -/
  dumps : String := ""
  /-- The trace lines so far. -/
  trace : List String := []

/-- How programs are run. -/
structure SessionSetup where
  settings : Settings
  dump : Bool := false
  /-- The number of instructions that a program may execute while its time has not run out. -/
  patience : Nat

namespace Session

/-- A time limit that has passed already leaves no time for any instruction. -/
def fuel (setup : SessionSetup) : Nat :=
  if setup.settings.timeout.nanoseconds < 0 then 0 else setup.patience

/-- The machine for a program. -/
def machine (setup : SessionSetup) (program : Program) (session : Session) : Machine :=
  Machine.new program session.sinks
    ([.input session.input, .output 0, .maxDepth setup.settings.maxDepth,
      .heapLimit setup.settings.heapLimit]
      ++ (if setup.settings.trace then [.tracer {}] else []))

/-- Runs one program. -/
def runOne (setup : SessionSetup) (program : Program) (session : Session) :
    Option RunFailure × Session :=
  let (report, machine) := (session.machine setup program).run (fuel setup)
  (report.failure,
    { input := machine.input
      sinks := machine.output.sinks
      dumps :=
        if setup.dump then session.dumps ++ Dump.document (some machine.memory) none
        else session.dumps
      trace := session.trace ++ report.lines })

/-- Runs programs in order up to the first that fails. -/
def run (setup : SessionSetup) : List (String × Program) → Session →
    Option CommandError × Session
  | [], session => (none, session)
  | (name, program) :: rest, session =>
      match session.runOne setup program with
      | (some failure, session) => (some (.run name failure), session)
      | (none, session) => run setup rest session

end Session

/-- What lasts from one command to the next. -/
structure Command where
  settings : Settings := {}
  log : Logger := {}
  stdin : Stdin := {}
  /-- Where the programs write. -/
  stdout : Sink := {}

/-- What a command has done. -/
structure CommandReport where
  /-- The output of the programs. -/
  output : Array UInt8 := #[]
  /-- The trace lines. -/
  trace : List String := []
  /-- The image to be written, with the name of its file. -/
  image : Option (String × Bytes) := none

namespace Command

/-- Writes a text to where the log goes. -/
def tell (text : String) (command : Command) : Command :=
  { command with log := { command.log with accepted := command.log.accepted ++ text } }

/-- Logs an error. -/
def fail (error : CommandError) (command : Command) : Command :=
  { command with log := command.log.error error.message }

/-- The settings that a command starts from: those of the file that a flag names, else those of
the command before. -/
def fileSettings (options : Options) (files : Files) (old : Settings) :
    Except CommandError Settings :=
  if options.config.isEmpty then .ok old
  else
    match files.read options.config with
    | .error fault => .error (.unreadableSettings options.config fault)
    | .ok document =>
        match Settings.read document with
        | .error error => .error (.settings options.config error)
        | .ok settings => .ok settings

/-- What arguments ask for. -/
inductive Request where
  /-- The usage text. -/
  | help
  | refused (error : CommandError)
  | work (options : Options) (operands : List String)

/-- Settles the settings and what is to be done.  A bad flag is explained on the spot. -/
def prepare (files : Files) (arguments : List String) (command : Command) : Request × Command :=
  match Options.parse arguments with
  | .error .helpWanted => (.help, command)
  | .error error => (.refused (.flags error), command.tell (error.message ++ "\n" ++ usageText))
  | .ok (options, operands) =>
      match fileSettings options files command.settings with
      | .error error => (.refused error, command)
      | .ok settings =>
          let command := { command with settings := options.override settings }
          if operands.isEmpty then (.help, command)
          else if !options.image.isEmpty && operands.length != 1 then
            (.refused (.imageOperands operands.length), command)
          else (.work options operands, command)

/-- Runs programs on the input that the command has left.  The report holds what they have added
to the output. -/
def runPrograms (patience : Nat) (dump : Bool) (programs : List (String × Program))
    (command : Command) : CommandReport × Command :=
  let setup : SessionSetup := { settings := command.settings, dump, patience }
  let (error, session) :=
    Session.run setup programs { input := command.stdin.input, sinks := #[command.stdout] }
  let stdout := (session.sinks[0]?).getD command.stdout
  let later :=
    { command.tell session.dumps with stdin := command.stdin.after session.input, stdout }
  ({ output := stdout.received.extract command.stdout.received.size, trace := session.trace },
    match error with
    | some error => later.fail error
    | none => later)

/-- Does what the options say with the files that the operands name. -/
def work (files : Files) (patience : Nat) (options : Options) (operands : List String)
    (command : Command) : CommandReport × Command :=
  match files.loadPrograms operands with
  | .error error => ({}, command.fail (.load error))
  | .ok programs =>
      if !options.image.isEmpty then
        match files.creationFault options.image, programs with
        | some fault, _ => ({}, command.fail (.create options.image fault))
        | none, program :: _ =>
            ({ image := some (options.image, Image.encode program) }, command)
        | none, [] => ({}, command)
      else if options.check then ({}, command)
      else command.runPrograms patience options.dump (operands.zip programs)

/-- Carries out a command. -/
def execute (files : Files) (patience : Nat) (arguments : List String) (command : Command) :
    CommandReport × Command :=
  match command.prepare files arguments with
  | (.help, command) => ({}, command.tell usageText)
  | (.refused error, command) => ({}, command.fail error)
  | (.work options operands, command) => command.work files patience options operands

end Command

end StackMachine
