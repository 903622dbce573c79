import StackMachine.Number.Integer

/-!
# Strings of TOML documents

Basic strings have escapes, literal strings have none; each comes in a form for one
line and a form for several.  The readers begin behind the opening quotes and
return the text and what follows the closing ones.
-/

namespace StackMachine.Toml

/-- The space and the tab. -/
def isBlank (c : Char) : Bool := c == ' ' || c == '\t'

/-- The characters of a line end. -/
def isNewline (c : Char) : Bool := c == '\n' || c == '\r'

/-- The character with the code point that exactly `count` hexadecimal digits spell, and the width
of its escape behind the backslash. -/
def codePoint? (count : Nat) (text : List Char) : Option (Char × Nat) := do
  let digits ← (text.take count).mapM alphanumericValue?
  let code := digits.foldl (fun n digit => n * 16 + digit) 0
  if digits.length = count ∧ digits.all (· < 16) ∧ code.isValidChar then
    return (Char.ofNat code, count + 1)
  else none

/-- The character that an escape stands for, and its width behind the backslash. -/
def escape? : List Char → Option (Char × Nat)
  | [] => none
  | c :: rest =>
      match c with
      | 'b' => some ('\x08', 1)
      | 't' => some ('\t', 1)
      | 'n' => some ('\n', 1)
      | 'f' => some ('\x0c', 1)
      | 'r' => some ('\r', 1)
      | 'e' => some ('\x1b', 1)
      | '"' => some ('"', 1)
      | '\\' => some ('\\', 1)
      | 'x' => codePoint? 2 rest
      | 'u' => codePoint? 4 rest
      | 'U' => codePoint? 8 rest
      | _ => none

/-- The rest of a basic string on one line. -/
def basicString : List Char → Option (List Char × List Char)
  | [] => none
  | c :: rest =>
      if c == '"' then some ([], rest)
      else if isNewline c then none
      else if c == '\\' then
        match escape? rest with
        | none => none
        | some (char, width) =>
            (basicString (rest.drop width)).map fun (text, rest) => (char :: text, rest)
      else (basicString rest).map fun (text, rest) => (c :: text, rest)
termination_by text => text.length
decreasing_by
  all_goals simp only [List.length_cons, List.length_drop]
  all_goals omega

/-- The rest of a literal string on one line. -/
def literalString : List Char → Option (List Char × List Char)
  | [] => none
  | c :: rest =>
      if c == '\'' then some ([], rest)
      else if isNewline c then none
      else (literalString rest).map fun (text, rest) => (c :: text, rest)

/-- The length of the run of a character at the start of a text. -/
def runLength (c : Char) (text : List Char) : Nat := (text.takeWhile (· == c)).length

/-- The rest of a basic string over several lines.  Fewer than three quotes belong to the text, and
so do up to two before the closing three, or three behind an escaped backslash.  A backslash at
the end of a line takes all white space behind it away. -/
def basicBlock : (escaped : Bool) → List Char → Option (List Char × List Char)
  | _, [] => none
  | escaped, c :: rest =>
      if c == '"' then
        let more := runLength '"' rest
        let quotes := List.replicate (more - 2) '"'
        if more < 2 then
          (basicBlock false rest).map fun (text, rest) => (c :: text, rest)
        else if more < (if escaped then 6 else 5) then some (quotes, rest.drop more)
        else none
      else if c == '\\' then
        if (rest.dropWhile isBlank).head?.any isNewline then
          basicBlock false (rest.dropWhile fun c => isBlank c || isNewline c)
        else
          match escape? rest with
          | none => none
          | some (char, width) =>
              (basicBlock (char == '\\') (rest.drop width)).map fun (text, rest) =>
                (char :: text, rest)
      else (basicBlock false rest).map fun (text, rest) => (c :: text, rest)
termination_by _ text => text.length
decreasing_by
  · simp
  · have := (List.dropWhile_suffix (l := rest) fun c => isBlank c || isNewline c).length_le
    simp only [List.length_cons]
    omega
  · simp only [List.length_cons, List.length_drop]
    omega
  · simp

/-- The rest of a literal string over several lines.  Fewer than three quotes belong to the text,
and so do up to two before the closing three. -/
def literalBlock : List Char → Option (List Char × List Char)
  | [] => none
  | c :: rest =>
      if c == '\'' then
        let more := runLength '\'' rest
        if more < 2 then (literalBlock rest).map fun (text, rest) => (c :: text, rest)
        else if more < 5 then some (List.replicate (more - 2) '\'', rest.drop more)
        else none
      else (literalBlock rest).map fun (text, rest) => (c :: text, rest)

/-- A line end directly behind the opening quotes does not belong to the text. -/
def skipFirstNewline : List Char → List Char
  | '\n' :: rest => rest
  | '\r' :: '\n' :: rest => rest
  | text => text

/-- A string of any form. -/
def string? : List Char → Option (List Char × List Char)
  | '"' :: '"' :: '"' :: rest => basicBlock false (skipFirstNewline rest)
  | '\'' :: '\'' :: '\'' :: rest => literalBlock (skipFirstNewline rest)
  | '"' :: rest => basicString rest
  | '\'' :: rest => literalString rest
  | _ => none

end StackMachine.Toml
