import StackMachine.Memory
import StackMachine.Program.Basic
import StackMachine.Yaml.Scalar

/-!
# Dumps

A dump shows the memory of a machine, a program or both as a YAML document.
-/

namespace StackMachine

namespace Dump

/-- A key with a list of texts, empty or one to a line. -/
def listLines (key : String) (items : List String) : String :=
  if items.isEmpty then s!"  {key}: []\n"
  else s!"  {key}:\n" ++ String.join (items.map fun item => "  - " ++ Yaml.scalarLine 4 item)

/-- The section of a memory. -/
def memorySection (m : Memory) : String :=
  "memory:\n" ++ listLines "stack" (m.bottomUp.map Atom.diagnostic)
    ++ listLines "heap" (m.heap.toList.map Atom.diagnostic)

/-- The labels of a function by id, if it has any. -/
def labelLines (labels : LabelTable) : String :=
  if labels.isEmpty then ""
  else
    "  labels:\n" ++ String.join (labels.toList.map fun (id, position) =>
      s!"    {id.toInt}: {position.toInt}\n")

/-- The entry of a function. -/
def functionEntry (function : Function) : String :=
  "- name: " ++ Yaml.scalarLine 8 function.name
    ++ "  header: " ++ Yaml.scalarLine 10 function.header.text
    ++ labelLines function.body.labels
    ++ listLines "code" (function.body.code.toList.map Token.text)

/-- The section of a program; a program without functions has none. -/
def programSection (program : Program) : String :=
  if program.functions.isEmpty then ""
  else "functions:\n" ++ String.join (program.functions.map functionEntry)

/-- The document of a memory and a program, either of which may be left out. -/
def document (memory : Option Memory) (program : Option Program) : String :=
  let text := (memory.map memorySection).getD "" ++ (program.map programSection).getD ""
  if text.isEmpty then "\x7b\x7d\n" else text

end Dump

end StackMachine
