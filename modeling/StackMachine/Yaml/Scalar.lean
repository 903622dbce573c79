import StackMachine.Yaml.Resolve

/-!
# Writing text scalars

A text is written plain if nothing in it could be misread, else in single quotes,
else in double quotes; a text with line feeds is written as a literal block if
possible.  Long lines are folded at single spaces.
-/

namespace StackMachine.Yaml

/-- Characters that can only be written as escapes. -/
def isSpecial (c : Char) : Bool :=
  !(c == '\n' || (0x20 ≤ c.toNat && c.toNat ≤ 0x7E) || (0xA0 ≤ c.toNat && c.toNat ≤ 0xD7FF)
    || (0xE000 ≤ c.toNat && c.toNat ≤ 0xFFFD && c.toNat != 0xFEFF))

/-- Characters that end a line. -/
def isBreak (c : Char) : Bool :=
  c == '\n' || c == '\r' || c.toNat == 0x85 || c.toNat == 0x2028 || c.toNat == 0x2029

/-- The space and the tab. -/
def isGap (c : Char) : Bool := c == ' ' || c == '\t'

/-- A gap or the end of the text follows. -/
def gapFollows (rest : List Char) : Bool := rest.head?.all isGap

/-- Two neighbouring characters of a text satisfy two conditions. -/
def hasPair (first second : Char → Bool) : List Char → Bool
  | a :: b :: rest => (first a && second b) || hasPair first second (b :: rest)
  | _ => false

/-- A colon before a gap, or a number sign after a gap or a break, from the second character on. -/
def hasInnerIndicator : (previous : Char) → List Char → Bool
  | _, [] => false
  | previous, c :: rest =>
      (c == ':' && gapFollows rest) || (c == '#' && (isGap previous || isBreak previous))
        || hasInnerIndicator c rest

/-- The first characters of a text would be taken for structure. -/
def hasLeadingIndicator : List Char → Bool
  | [] => false
  | text@(c :: rest) =>
      "---".toList.isPrefixOf text || "...".toList.isPrefixOf text
        || "#,[]\x7b\x7d&*!|>'\"%@`".toList.contains c
        || ((c == '?' || c == ':' || c == '-') && gapFollows rest)

/-- Something in a text would be taken for structure. -/
def hasIndicator (text : List Char) : Bool :=
  hasLeadingIndicator text
    || (match text with
      | c :: rest => hasInnerIndicator c rest
      | [] => false)

/-- A space or a break begins or ends a text. -/
def hasBlankEdge (text : List Char) : Bool :=
  let blank (c : Char) : Bool := c == ' ' || isBreak c
  text.head?.any blank || text.getLast?.any blank

/-- The styles of a scalar. -/
inductive Style where
  | plain
  | singleQuoted
  | doubleQuoted
  | literal
  deriving DecidableEq, Repr

/-- The style of a text. -/
def styleOf (text : String) : Style :=
  let chars := text.toList
  let special := chars.any isSpecial
  let spaceBreak := hasPair (· == ' ') isBreak chars
  if chars.contains '\n' then
    if special || spaceBreak || chars.getLast? == some ' ' then .doubleQuoted else .literal
  else if resolves text then .doubleQuoted
  else if !(special || chars.any isBreak || hasBlankEdge chars || hasIndicator chars) then .plain
  else if special || spaceBreak || hasPair isBreak (· == ' ') chars then .doubleQuoted
  else .singleQuoted

/-- Lines longer than this are folded where possible. -/
def lineWidth : Nat := 80

/-- The indentation of the lines after the first of a scalar. -/
def indent : List Char := [' ', ' ', ' ', ' ']

/-- A plain text from a column on.  `spaced` says whether the last character was a space. -/
def plainFrom : (column : Nat) → (spaced : Bool) → List Char → List Char
  | _, _, [] => []
  | column, spaced, c :: rest =>
      if c == ' ' then
        if !spaced && lineWidth < column && rest.head? != some ' ' then
          '\n' :: indent ++ plainFrom indent.length true rest
        else c :: plainFrom (column + 1) true rest
      else c :: plainFrom (column + 1) false rest

/-- The inside of single quotes from a column on.  `first` marks the first character, `broken`
that the last one was a break. -/
def singleFrom : (column : Nat) → (first spaced broken : Bool) → List Char → List Char
  | _, _, _, _, [] => []
  | column, first, spaced, broken, c :: rest =>
      if c == ' ' then
        if !spaced && lineWidth < column && !first && !rest.isEmpty && rest.head? != some ' ' then
          '\n' :: indent ++ singleFrom indent.length false true false rest
        else c :: singleFrom (column + 1) false true broken rest
      else if isBreak c then c :: singleFrom 0 false spaced true rest
      else
        let column := if broken then indent.length else column
        let written := if c == '\'' then [c, c] else [c]
        (if broken then indent else []) ++ written
          ++ singleFrom (column + written.length) false false false rest

/-- A number in upper-case hexadecimal, padded with zeros to a width. -/
def upperHexadecimal (width code : Nat) : List Char :=
  let digits := (Nat.toDigits 16 code).map Char.toUpper
  List.replicate (width - digits.length) '0' ++ digits

/-- The escape of a character, without its backslash. -/
def escapeCode (c : Char) : List Char :=
  match c.toNat with
  | 0x00 => ['0']
  | 0x07 => ['a']
  | 0x08 => ['b']
  | 0x09 => ['t']
  | 0x0A => ['n']
  | 0x0B => ['v']
  | 0x0C => ['f']
  | 0x0D => ['r']
  | 0x1B => ['e']
  | 0x22 => ['"']
  | 0x5C => ['\\']
  | 0x85 => ['N']
  | 0xA0 => ['_']
  | 0x2028 => ['L']
  | 0x2029 => ['P']
  | code =>
      if code ≤ 0xFF then 'x' :: upperHexadecimal 2 code
      else if code ≤ 0xFFFF then 'u' :: upperHexadecimal 4 code
      else 'U' :: upperHexadecimal 8 code

/-- The inside of double quotes from a column on.  A fold before a second space needs a backslash
to keep that space. -/
def doubleFrom : (column : Nat) → (first spaced : Bool) → List Char → List Char
  | _, _, _, [] => []
  | column, first, spaced, c :: rest =>
      if isSpecial c || isBreak c || c == '"' || c == '\\' then
        let escape := '\\' :: escapeCode c
        escape ++ doubleFrom (column + escape.length) false false rest
      else if c == ' ' then
        if !spaced && lineWidth < column && !first && !rest.isEmpty then
          let kept := if rest.head? == some ' ' then ['\\'] else []
          '\n' :: indent ++ kept ++ doubleFrom (indent.length + kept.length) false true rest
        else c :: doubleFrom (column + 1) false true rest
      else c :: doubleFrom (column + 1) false false rest

/-- The lines of a literal block.  `broken` says that a line begins. -/
def literalFrom : (broken : Bool) → List Char → List Char
  | _, [] => []
  | broken, c :: rest =>
      if isBreak c then c :: literalFrom true rest
      else (if broken then indent else []) ++ c :: literalFrom false rest

/-- How a literal block says that it is indented and how it ends. -/
def literalHints (text : List Char) : List Char :=
  (if text.head?.any (fun c => c == ' ' || isBreak c) then ['2'] else [])
    ++ (match text.reverse with
      | last :: before =>
          if !isBreak last then ['-'] else if before.head?.all isBreak then ['+'] else []
      | [] => ['-'])

/-- A text as a scalar that begins in a column, with the line end after it.  A literal block that
ends in a break has its line end already. -/
def scalarLine (column : Nat) (text : String) : String :=
  let chars := text.toList
  match styleOf text with
  | .plain => String.ofList (plainFrom column false chars) ++ "\n"
  | .singleQuoted =>
      String.ofList ('\'' :: singleFrom (column + 1) true false false chars) ++ "'\n"
  | .doubleQuoted => String.ofList ('"' :: doubleFrom (column + 1) true false chars) ++ "\"\n"
  | .literal =>
      String.ofList ('|' :: literalHints chars ++ '\n' :: literalFrom true chars)
        ++ (if chars.getLast?.any isBreak then "" else "\n")

end StackMachine.Yaml
