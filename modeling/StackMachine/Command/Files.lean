import StackMachine.Text.Utf8

/-!
# Files

What a command may do with files, and a tree of files to do it with.
-/

namespace StackMachine

/-- Why a file cannot be used. -/
inductive FileFault where
  | missing
  | notDirectory
  | isDirectory
  | other (text : String)
  deriving DecidableEq, Repr

namespace FileFault

/-- The fault by itself. -/
def text : FileFault → String
  | .missing => "no such file or directory"
  | .notDirectory => "not a directory"
  | .isDirectory => "is a directory"
  | .other text => text

/-- The wording of a failure to open a file. -/
def opening (name : String) (fault : FileFault) : String := "open " ++ name ++ ": " ++ fault.text

/-- The wording of a failure to get at the contents of a file: a directory can be opened, but not
read. -/
def reading (name : String) (fault : FileFault) : String :=
  if fault = .isDirectory then "read " ++ name ++ ": " ++ fault.text else fault.opening name

end FileFault

/-- The files that a command sees. -/
structure Files where
  /-- The contents of a file. -/
  read : String → Except FileFault Bytes
  /-- Why a file cannot be created or replaced. -/
  creationFault : String → Option FileFault := fun _ => none

/-- A file or a directory. -/
inductive Entry where
  | file (contents : Bytes)
  | directory
  deriving DecidableEq, Repr

/-- The files and directories below a working directory, by the parts of their paths. -/
structure FileTree where
  entries : List (List String × Entry) := []
  deriving DecidableEq, Repr

namespace FileTree

/-- What a path leads to.  The empty path is the working directory. -/
def entry? (tree : FileTree) (path : List String) : Option Entry :=
  if path.isEmpty then some .directory else tree.entries.lookup path

/-- Goes from a directory along the parts of a name.  All but the last must be there. -/
def walk (tree : FileTree) : List String → List String → Except FileFault (List String)
  | current, [] => .ok current
  | current, part :: rest =>
      match tree.entry? current with
      | none => .error .missing
      | some (.file _) => .error .notDirectory
      | some .directory =>
          if part = "" ∨ part = "." then walk tree current rest
          else if part = ".." then walk tree current.dropLast rest
          else walk tree (current ++ [part]) rest

/-- The path of a name. -/
def resolve (tree : FileTree) (name : String) : Except FileFault (List String) :=
  if name.isEmpty then .error .missing else tree.walk [] (name.splitOn "/")

/-- The contents of a file. -/
def read (tree : FileTree) (name : String) : Except FileFault Bytes :=
  match tree.resolve name with
  | .error fault => .error fault
  | .ok path =>
      match tree.entry? path with
      | none => .error .missing
      | some .directory => .error .isDirectory
      | some (.file contents) => .ok contents

/-- Why a file cannot be created or replaced. -/
def creationFault (tree : FileTree) (name : String) : Option FileFault :=
  match tree.resolve name with
  | .error fault => some fault
  | .ok path => if tree.entry? path = some .directory then some .isDirectory else none

/-- The tree as a command sees it. -/
def files (tree : FileTree) : Files := ⟨tree.read, tree.creationFault⟩

/-- The tree with an entry added or replaced. -/
def insert (tree : FileTree) (path : List String) (entry : Entry) : FileTree :=
  ⟨tree.entries.filter (·.1 != path) ++ [(path, entry)]⟩

/-- The directories that lead to a path. -/
def parents (path : List String) : List (List String) :=
  (List.range (path.length - 1)).map fun n => path.take (n + 1)

/-- The tree with an entry and the directories on the way to it. -/
def place (tree : FileTree) (name : String) (entry : Entry) : FileTree :=
  let path := (name.splitOn "/").filter (!·.isEmpty)
  let tree := (parents path).foldl (fun tree path => tree.insert path .directory) tree
  tree.insert path entry

/-- The tree with new contents for a file that can be created. -/
def store (tree : FileTree) (name : String) (contents : Bytes) : FileTree :=
  match tree.resolve name with
  | .error _ => tree
  | .ok path => tree.insert path (.file contents)

/-- The files of a tree that another does not have, or not with these contents. -/
def changesSince (tree old : FileTree) : List (String × Bytes) :=
  tree.entries.filterMap fun (path, entry) =>
    match entry with
    | .directory => none
    | .file contents =>
        if old.entries.lookup path = some entry then none
        else some ("/".intercalate path, contents)

end FileTree

end StackMachine
