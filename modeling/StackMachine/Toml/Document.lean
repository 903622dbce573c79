import StackMachine.Text.Utf8
import StackMachine.Toml.Scalars

/-!
# TOML documents

A document is a sequence of statements: table headers and pairs of a key and a
value.  This module reads the notation only; what the statements define together
is decided elsewhere.
-/

namespace StackMachine.Toml

/-- The parts of a dotted key. -/
abbrev Path := List String

/-- The value of a key. -/
inductive Value where
  | text (content : String)
  | scalar (content : Scalar)
  | array (items : List Value)
  | table (pairs : List (Path × Value))
  deriving Repr

/-- A statement of a document. -/
inductive Statement where
  | table (path : Path)
  | tableItem (path : Path)
  | pair (path : Path) (value : Value)
  deriving Repr

/-! ## Keys -/

/-- Characters of a key that needs no quotes. -/
def isKeyChar (c : Char) : Bool :=
  c.isAlphanum || c == '_' || c == '-'

/-- What follows blanks. -/
def skipBlanks (text : List Char) : List Char := text.dropWhile isBlank

/-- One part of a key: a string on one line, or a nonempty run of key characters. -/
def keyPart? (text : List Char) : Option (String × List Char) :=
  match text with
  | '"' :: rest => (basicString rest).map fun (part, rest) => (String.ofList part, rest)
  | '\'' :: rest => (literalString rest).map fun (part, rest) => (String.ofList part, rest)
  | _ =>
      let part := text.takeWhile isKeyChar
      if part.isEmpty then none else some (String.ofList part, text.dropWhile isKeyChar)

/-- A dotted key and the text behind it, blanks skipped.  The number bounds its parts. -/
def key? : Nat → List Char → Option (Path × List Char)
  | 0, _ => none
  | parts + 1, text =>
      match keyPart? (skipBlanks text) with
      | none => none
      | some (part, rest) =>
          match skipBlanks rest with
          | '.' :: rest => (key? parts rest).map fun (path, rest) => (part :: path, rest)
          | rest => some ([part], rest)

/-! ## Values -/

/-- What follows blanks, line ends and comments. -/
def skipGap : (comment : Bool) → List Char → List Char
  | _, [] => []
  | true, c :: rest => skipGap (c != '\n') rest
  | false, c :: rest =>
      if isBlank c || isNewline c then skipGap false rest
      else if c == '#' then skipGap true rest
      else c :: rest

mutual

/-- A value, with blanks before it.  The number bounds the steps; each step passes at least one
character. -/
def value? : Nat → List Char → Option (Value × List Char)
  | 0, _ => none
  | steps + 1, text =>
      match skipBlanks text with
      | '[' :: rest => (items? steps rest).map fun (items, rest) => (.array items, rest)
      | '\x7b' :: rest => (pairs? steps rest).map fun (pairs, rest) => (.table pairs, rest)
      | rest =>
          match string? rest with
          | some (content, rest) => some (.text (String.ofList content), rest)
          | none => (scalar? rest).map fun (content, rest) => (.scalar content, rest)

/-- The items of an array up to its end.  A comma may follow the last. -/
def items? : Nat → List Char → Option (List Value × List Char)
  | 0, _ => none
  | steps + 1, text =>
      match skipGap false text with
      | ']' :: rest => some ([], rest)
      | rest =>
          match value? steps rest with
          | none => none
          | some (item, rest) =>
              match skipGap false rest with
              | ',' :: rest => (items? steps rest).map fun (items, rest) => (item :: items, rest)
              | ']' :: rest => some ([item], rest)
              | _ => none

/-- The pairs of an inline table up to its end.  A comma may follow the last. -/
def pairs? : Nat → List Char → Option (List (Path × Value) × List Char)
  | 0, _ => none
  | steps + 1, text =>
      match skipGap false text with
      | '\x7d' :: rest => some ([], rest)
      | rest =>
          match key? steps rest with
          | some (path, '=' :: rest) =>
              match value? steps rest with
              | none => none
              | some (value, rest) =>
                  match skipGap false rest with
                  | ',' :: rest =>
                      (pairs? steps rest).map fun (pairs, rest) => ((path, value) :: pairs, rest)
                  | '\x7d' :: rest => some ([(path, value)], rest)
                  | _ => none
          | _ => none

end

/-! ## Statements -/

/-- One statement at its first character. -/
def statement? (steps : Nat) (text : List Char) : Option (Statement × List Char) :=
  match text with
  | '[' :: '[' :: rest =>
      match key? steps rest with
      | some (path, ']' :: ']' :: rest) => some (.tableItem path, rest)
      | _ => none
  | '[' :: rest =>
      match key? steps rest with
      | some (path, ']' :: rest) => some (.table path, rest)
      | _ => none
  | _ =>
      match key? steps text with
      | some (path, '=' :: rest) =>
          (value? steps rest).map fun (value, rest) => (.pair path value, rest)
      | _ => none

/-- A statement takes a line of its own, which may end in a comment. -/
def endsLine (text : List Char) : Bool :=
  (skipBlanks text).head?.all fun c => isNewline c || c == '#'

/-- All statements of a text.  The number bounds the steps. -/
def statements? : Nat → List Char → Option (List Statement)
  | 0, _ => none
  | steps + 1, text =>
      match skipGap false text with
      | [] => some []
      | rest =>
          match statement? steps rest with
          | none => none
          | some (statement, rest) =>
              if endsLine rest then (statements? steps rest).map (statement :: ·) else none

/-- Characters that may not stand anywhere: controls, and a carriage return that is not part of a
line end. -/
def hasForbidden : List Char → Bool
  | [] => false
  | '\r' :: rest => rest.head? != some '\n' || hasForbidden rest
  | c :: rest =>
      (c.toNat < 0x20 && c != '\t' && c != '\n') || c.toNat == 0x7F || hasForbidden rest

/-- Skips a byte order mark. -/
def skipMark : Bytes → Bytes
  | 0xEF :: 0xBB :: 0xBF :: rest => rest
  | 0xFF :: 0xFE :: rest => rest
  | 0xFE :: 0xFF :: rest => rest
  | bytes => bytes

/-- The statements of a document.  It must be well-formed UTF-8. -/
def read? (bytes : Bytes) : Option (List Statement) := do
  let text ← Utf8.decodeStrict (skipMark bytes)
  guard !hasForbidden text
  statements? (2 * text.length + 2) text

end StackMachine.Toml
