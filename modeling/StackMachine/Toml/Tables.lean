import StackMachine.Text.Quoted
import StackMachine.Toml.Document

/-!
# What the statements of a TOML document define

Statements are taken in order and build up a tree of tables.  A table comes into
being *implicitly* when it is only mentioned on the way to another key; such a
table may be defined once more, any other definition is final.  Which paths count
as implicit is kept beside the tree.
-/

namespace StackMachine.Toml

/-- A place in the tree: a final value, a table, or an array of tables with the newest first. -/
inductive Node where
  | leaf (value : Value)
  | table (entries : List (String × Node))
  | tables (items : List (List (String × Node)))
  deriving Repr

/-- The entries of a table in the order of their definition. -/
abbrev Entries := List (String × Node)

/-- Replaces the entry of a key, or adds one at the end. -/
def setEntry (key : String) (node : Node) : Entries → Entries
  | [] => [(key, node)]
  | (k, old) :: rest =>
      if k == key then (k, node) :: rest else (k, old) :: setEntry key node rest

/-- Changes the table that a path leads to; in an array of tables the path leads through the
newest.  There must be a table all along the path. -/
def changeAt (change : Entries → Option Entries) : Path → Entries → Option Entries
  | [], entries => change entries
  | key :: path, entries =>
      match entries.lookup key with
      | some (.table inner) =>
          (changeAt change path inner).map fun inner => setEntry key (.table inner) entries
      | some (.tables (newest :: older)) =>
          (changeAt change path newest).map fun newest =>
            setEntry key (.tables (newest :: older)) entries
      | _ => none

/-- What a path leads to; in an array of tables the path leads through the newest. -/
def find? : Path → Entries → Option Node
  | [], _ => none
  | [key], entries => entries.lookup key
  | key :: path, entries =>
      match entries.lookup key with
      | some (.table inner) => find? path inner
      | some (.tables (newest :: _)) => find? path newest
      | _ => none

/-- A document under construction. -/
structure Tables where
  root : Entries := []
  /-- Tables that have only been mentioned. -/
  implicit : List Path := []
  /-- Keys whose value is an array. -/
  arrays : List Path := []
  /-- The paths that statements have named, the newest first. -/
  named : List Path := []
  deriving Repr

namespace Tables

/-- Says that a table has only been mentioned. -/
def mention (path : Path) (t : Tables) : Tables := { t with implicit := path :: t.implicit }

/-- Takes such a remark back. -/
def settle (path : Path) (t : Tables) : Tables :=
  { t with implicit := t.implicit.filter (· != path) }

/-- Puts a path on the list of named ones. -/
def name (path : Path) (t : Tables) : Tables := { t with named := path :: t.named }

/-- Where the kind of a key is kept: an empty last part counts as none. -/
def kindPath (path : Path) : Path :=
  if path.getLast? == some "" && path.length != 1 then path.dropLast else path

/-- Notes whether the value of a key is an array. -/
def noteKind (path : Path) (isArray : Bool) (t : Tables) : Tables :=
  let path := kindPath path
  let others := t.arrays.filter (· != path)
  { t with arrays := if isArray then path :: others else others }

/-- Puts a node at the end of a path. -/
def put (path : Path) (node : Node) (t : Tables) : Option Tables :=
  (changeAt (fun entries => some (setEntry (path.getLast?.getD "") node entries))
    path.dropLast t.root).map fun root => { t with root }

/-- Gives a key its value.  A table that has only been mentioned keeps its entries; an array that
has only been mentioned is replaced. -/
def define (path : Path) (node : Node) (t : Tables) : Option Tables :=
  match find? path t.root with
  | none => t.put path node
  | some _ =>
      if !t.implicit.contains path then none
      else if t.arrays.contains path then (t.put path node).map (settle path)
      else some (t.settle path)

/-- Makes sure of a table on the way to a key. -/
def pass (path : Path) (t : Tables) : Option Tables :=
  match find? path t.root with
  | none => (t.put path (.table [])).map (mention path)
  | some _ => some t

/-- The proper beginnings of a path, shortest first. -/
def beginnings (path : Path) : List Path :=
  (List.range (path.length - 1)).map fun n => path.take (n + 1)

/-- Makes sure of all tables on the way to a key. -/
def passAll (path : Path) (t : Tables) : Option Tables :=
  (beginnings path).foldlM (fun t path => t.pass path) t

/-- Opens a table. -/
def openTable (path : Path) (t : Tables) : Option Tables := do
  (← t.passAll path).define path (.table [])

/-- Opens a new table at the end of an array of tables. -/
def openItem (path : Path) (t : Tables) : Option Tables := do
  let t ← t.passAll path
  match find? path t.root with
  | none => t.put path (.tables [[]])
  | some (.tables items) => t.put path (.tables ([] :: items))
  | some _ => none

/-- Opens the tables that the parts of a dotted key before its last one name. -/
def openDotted (context path : Path) (t : Tables) : Option Tables :=
  (beginnings path).foldlM (fun t path =>
    (t.mention (context ++ path)).openTable (context ++ path)) t

/-- Whether a value is an array. -/
def isArrayValue : Value → Bool
  | .array _ => true
  | _ => false

mutual

/-- The tables inside a value.  `isItem` says that the value stands in an array. -/
def enter (path : Path) (isItem : Bool) : Value → Tables → Option Tables
  | .text _, t => some t
  | .scalar _, t => some t
  | .array items, t => enterItems path items (t.noteKind path true)
  | .table pairs, t =>
      let t := t.mention path
      match if isItem then t.openItem path else t.openTable path with
      | none => none
      | some t => enterPairs path pairs t

/-- The tables inside the items of an array. -/
def enterItems (path : Path) : List Value → Tables → Option Tables
  | [], t => some t
  | item :: rest, t =>
      match enter path true item t with
      | none => none
      | some t => enterItems path rest t

/-- The pairs of an inline table. -/
def enterPairs (context : Path) : List (Path × Value) → Tables → Option Tables
  | [], t => some t
  | (path, value) :: rest, t =>
      match t.openDotted context path with
      | none => none
      | some t =>
          let path := context ++ path
          match enter path false value (t.name path) with
          | none => none
          | some t =>
              match t.define path (.leaf value) with
              | none => none
              | some t => enterPairs context rest (t.noteKind path (isArrayValue value))

end

/-- Carries out statements.  The context is the path of the last header. -/
def build : (context : Path) → List Statement → Tables → Option Tables
  | _, [], t => some t
  | context, statement :: rest, t =>
      match statement with
      | .table path =>
          match t.openTable path with
          | none => none
          | some t => build path rest ((t.noteKind path false).name path)
      | .tableItem path =>
          match t.openItem path with
          | none => none
          | some t => build path rest ((t.noteKind path false).name path)
      | .pair path value =>
          match enterPairs context [(path, value)] t with
          | none => none
          | some t => build context rest t

end Tables

/-- The tables of a document. -/
def tables? (bytes : Bytes) : Option Tables := do
  let statements ← read? bytes
  Tables.build [] statements {}

/-- A key as messages show it: a part that is not made of key characters is put in quotes. -/
def keyText (path : Path) : String :=
  ".".intercalate (path.map part)
where
  /-- The form of one part. -/
  part (text : String) : String :=
    if text.isEmpty || text.any (!isKeyChar ·) then
      String.ofList ('"' :: text.toList.flatMap shown ++ ['"'])
    else text
  /-- The form of a character between the quotes. -/
  shown (c : Char) : List Char :=
    match c with
    | '"' => ['\\', '"']
    | '\\' => ['\\', '\\']
    | '\x08' => ['\\', 'b']
    | '\t' => ['\\', 't']
    | '\n' => ['\\', 'n']
    | '\x0c' => ['\\', 'f']
    | '\r' => ['\\', 'r']
    | c =>
        if c.toNat < 0x20 || c.toNat == 0x7F then '\\' :: 'u' :: hexadecimal 4 c.toNat
        else [c]

end StackMachine.Toml
