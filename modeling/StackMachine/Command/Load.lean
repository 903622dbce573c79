import StackMachine.Command.Files
import StackMachine.Image.Basic
import StackMachine.Program.Assemble

/-!
# Loading programs from files

A file is an image if its name says so, and a source otherwise.
-/

namespace StackMachine

/-- Why a program cannot be loaded. -/
inductive LoadError where
  | unreadable (name : String) (fault : FileFault)
  | notAssembled (error : AssemblyError)
  | unreadableImage (name : String) (fault : FileFault)
  | notImage (name : String) (error : ImageError)
  deriving DecidableEq, Repr

/-- The wording of the error.  Only errors inside an image need the name of the file added. -/
def LoadError.message : LoadError → String
  | .unreadable name fault => fault.reading name
  | .notAssembled error => error.message
  | .unreadableImage name .isDirectory =>
      name ++ ": " ++ FileFault.isDirectory.reading name
  | .unreadableImage name fault => fault.reading name
  | .notImage name error => name ++ ": " ++ error.message

/-- The program of a file. -/
def Files.loadProgram (files : Files) (name : String) : Except LoadError Program :=
  if name.endsWith Image.extension then
    match files.read name with
    | .error fault => .error (.unreadableImage name fault)
    | .ok contents =>
        match Image.decode contents with
        | .error error => .error (.notImage name error)
        | .ok program => .ok program
  else
    match files.read name with
    | .error fault => .error (.unreadable name fault)
    | .ok contents =>
        match Source.assemble ⟨name, .ofBytes contents⟩ with
        | .error error => .error (.notAssembled error)
        | .ok program => .ok program

/-- The programs of files in order, or an error if there is any. -/
def Files.loadPrograms (files : Files) : List String → Except LoadError (List Program)
  | [] => .ok []
  | name :: rest => do
      let program ← files.loadProgram name
      let programs ← files.loadPrograms rest
      return program :: programs

end StackMachine
