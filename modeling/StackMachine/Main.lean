import StackMachine.Command.Basic

/-!
# The program

Reads the files that the arguments name, carries the command out and delivers what
it has written.
-/

namespace StackMachine.Shell

/-- The fault behind an error of the file system. -/
def faultOf : IO.Error → FileFault
  | .noFileOrDirectory _ _ _ => .missing
  | .inappropriateType _ _ _ => .isDirectory
  | error => .other (toString error)

/-- The contents of a file. -/
def readFile (name : String) : IO (Except FileFault Bytes) := do
  try
    let contents ← IO.FS.readBinFile name
    return .ok contents.toList
  catch error =>
    return .error (faultOf error)

/-- Everything that a stream delivers. -/
partial def readAll (stream : IO.FS.Stream) (bytes : ByteArray) : IO Bytes := do
  let block ← stream.read 4096
  if block.isEmpty then return bytes.toList else readAll stream (bytes ++ block)

/-- The files that arguments name, as they are now. -/
def filesOf (arguments : List String) : IO Files := do
  let names := match Options.parse arguments with
    | .ok (options, operands) => options.config :: operands
    | .error _ => []
  let contents ← names.mapM fun name => return (name, ← readFile name)
  return { read := fun name => (contents.lookup name).getD (.error .missing) }

/-- A program that can ask for input. -/
def asksInput (program : Program) : Bool :=
  program.functions.any fun function =>
    function.body.code.any fun token => token.opcode == .call && token.name == "readint"

/-- One of the programs that arguments name can ask for input. -/
def anyAsksInput (files : Files) (arguments : List String) : Bool :=
  match Options.parse arguments with
  | .error _ => false
  | .ok (_, operands) =>
      match files.loadPrograms operands with
      | .error _ => false
      | .ok programs => programs.any asksInput

/-- The number of instructions that a program may execute: more than it ever will. -/
def patience : Nat := 0x4000000000000000

/-- Writes an image; gives the fault if that fails. -/
def writeImage (image : Option (String × Bytes)) : IO (Option FileFault) := do
  match image with
  | none => return none
  | some (name, bytes) =>
      try
        IO.FS.writeBinFile name bytes.toByteArray
        return none
      catch error =>
        return some (faultOf error)

/-- Delivers trace lines to the file that the settings name, else to a stream. -/
def writeTrace (settings : Settings) (lines : List String) (stream : IO.FS.Stream) : IO Unit := do
  let text := String.join (lines.map (· ++ "\n"))
  if settings.traceLog.isEmpty then stream.putStr text
  else
    let file ← IO.FS.Handle.mk settings.traceLog .append
    file.putStr text

end StackMachine.Shell

section

open StackMachine StackMachine.Shell

/-- Carries out the command that the arguments give. -/
def main (arguments : List String) : IO UInt32 := do
  let stdout ← IO.getStdout
  let stderr ← IO.getStderr
  let files ← filesOf arguments
  let unread ←
    if anyAsksInput files arguments then readAll (← IO.getStdin) .empty else pure []
  let command : Command := { stdin := { unread } }
  let (report, after) := command.execute files patience arguments
  let (report, after) ←
    match ← writeImage report.image with
    | none => pure (report, after)
    | some fault =>
        let files := { files with creationFault := fun _ => some fault }
        pure (command.execute files patience arguments)
  stdout.write ⟨report.output⟩
  stdout.flush
  unless report.trace.isEmpty do
    writeTrace after.settings report.trace stderr
  stderr.putStr after.log.accepted
  return UInt32.ofNat after.log.exitCode

end
