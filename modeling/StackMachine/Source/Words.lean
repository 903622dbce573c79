import StackMachine.Text.Blank

/-!
# Words of a source text

A source text is a sequence of words between separators and comments.  The
separators are the space and the two line-end characters; a comment runs from a
semicolon at the start of a word to the end of its line.  A word that begins with a
double quote is a literal: everything up to the next double quote, line ends
included.  Any other word runs up to the next separator, which is consumed.
-/

namespace StackMachine

/-- A named source text. -/
structure Source where
  name : String
  input : Input
  deriving DecidableEq, Repr

/-- A position in a source text. -/
structure Cursor where
  /-- The text that is left. -/
  text : List Char
  /-- The number of line feeds before this position. -/
  row : Nat := 0
  /-- The row on which the last word read began. -/
  wordRow : Nat := 0
  deriving DecidableEq, Repr

/-- The characters between words. -/
def isSeparator (c : Char) : Bool := c == ' ' || c == '\n' || c == '\r'

/-- Passes over separators and comments.  The flag says whether the text begins inside a
comment; the result is the row and the text of the next word. -/
def skipGap : Bool → Nat → List Char → Nat × List Char
  | _, row, [] => (row, [])
  | comment, row, c :: rest =>
      if c == '\n' then skipGap false (row + 1) rest
      else if comment || isSeparator c then skipGap comment row rest
      else if c == ';' then skipGap true row rest
      else (row, c :: rest)

/-- The number of line feeds in a text. -/
def lineFeeds (text : List Char) : Nat := text.count '\n'

/-- What reading a word of a source gives. -/
inductive NextWord where
  | word (text : String) (after : Cursor)
  /-- The text ended before a word began. -/
  | ended
  /-- A literal that began on a row lacks its closing quote. -/
  | unterminated (literal : String) (row : Nat)
  /-- The device behind the source failed before the end of a word was seen. -/
  | failed (fault : ReadFault)
  deriving DecidableEq, Repr

namespace Cursor

/-- The start of a text. -/
def start (text : List Char) : Cursor := ⟨text, 0, 0⟩

/-- The literal after an opening quote on row `row`. -/
def literal (fault : Option ReadFault) (row : Nat) (text : List Char) : NextWord :=
  let content := text.takeWhile (· != '"')
  match text.dropWhile (· != '"'), fault with
  | _ :: after, _ => .word (String.ofList content) ⟨after, row + lineFeeds content, row⟩
  | [], none => .unterminated (String.ofList content) row
  | [], some fault => .failed fault

/-- The bare word on row `row` that begins with the character `first`. -/
def bareWord (fault : Option ReadFault) (row : Nat) (first : Char) (text : List Char) : NextWord :=
  let content := first :: text.takeWhile (fun c => !isSeparator c)
  match text.dropWhile (fun c => !isSeparator c), fault with
  | separator :: after, _ =>
      .word (String.ofList content) ⟨after, row + lineFeeds [separator], row⟩
  | [], none => .word (String.ofList content) ⟨[], row, row⟩
  | [], some fault => .failed fault

/-- Reads the next word of a text that ends with a fault or simply ends. -/
def nextWord (fault : Option ReadFault) (cursor : Cursor) : NextWord :=
  match skipGap false cursor.row cursor.text, fault with
  | (_, []), none => .ended
  | (_, []), some fault => .failed fault
  | (row, first :: rest), _ =>
      if first == '"' then literal fault row rest else bareWord fault row first rest

end Cursor

theorem length_skipGap_le (comment : Bool) (row : Nat) (text : List Char) :
    (skipGap comment row text).2.length ≤ text.length := by
  induction text generalizing comment row with
  | nil => simp [skipGap]
  | cons c rest ih =>
      unfold skipGap
      split
      · exact Nat.le_succ_of_le (ih _ _)
      split
      · exact Nat.le_succ_of_le (ih _ _)
      split
      · exact Nat.le_succ_of_le (ih _ _)
      · exact Nat.le_refl _

namespace Cursor

theorem length_literal_le {fault : Option ReadFault} {row : Nat} {text : List Char}
    {word : String} {after : Cursor} (h : literal fault row text = .word word after) :
    after.text.length ≤ text.length := by
  have shorter := (List.dropWhile_suffix (l := text) (· != '"')).length_le
  unfold literal at h
  split at h
  · next rest _ split_eq =>
      simp only [NextWord.word.injEq] at h
      rw [← h.2]
      rw [split_eq] at shorter
      exact Nat.le_of_succ_le shorter
  · simp at h
  · simp at h

theorem length_bareWord_le {fault : Option ReadFault} {row : Nat} {first : Char}
    {text : List Char} {word : String} {after : Cursor}
    (h : bareWord fault row first text = .word word after) :
    after.text.length ≤ text.length := by
  have shorter := (List.dropWhile_suffix (l := text) fun c => !isSeparator c).length_le
  unfold bareWord at h
  split at h
  · next rest _ split_eq =>
      simp only [NextWord.word.injEq] at h
      rw [← h.2]
      rw [split_eq] at shorter
      exact Nat.le_of_succ_le shorter
  · simp only [NextWord.word.injEq] at h
    rw [← h.2]
    exact Nat.zero_le _
  · simp at h

/-- Reading a word consumes at least one character. -/
theorem length_nextWord_lt {fault : Option ReadFault} {cursor after : Cursor} {word : String}
    (h : nextWord fault cursor = .word word after) :
    after.text.length < cursor.text.length := by
  have shorter := length_skipGap_le false cursor.row cursor.text
  unfold nextWord at h
  split at h
  · simp at h
  · simp at h
  · next row first rest gap =>
      rw [gap] at shorter
      simp only [List.length_cons] at shorter
      split at h
      · exact Nat.lt_of_le_of_lt (length_literal_le h) shorter
      · exact Nat.lt_of_le_of_lt (length_bareWord_le h) shorter

end Cursor

end StackMachine
