import StackMachine.Text.Printable

/-!
# Quoted text in messages

Messages show a text between double quotes.  Printable characters stand for
themselves except the quote and the backslash; the common controls have letter
escapes; every other character is written as its code point in hexadecimal, with
two, four or eight digits.
-/

namespace StackMachine

/-- A number in lower-case hexadecimal, padded with zeros to a width. -/
def hexadecimal (width code : Nat) : List Char :=
  let digits := Nat.toDigits 16 code
  List.replicate (width - digits.length) '0' ++ digits

namespace Quoted

/-- The form of one character between the quotes. -/
def character (c : Char) : List Char :=
  if c == '"' || c == '\\' then ['\\', c]
  else if isPrintable c then [c]
  else match c.toNat with
    | 0x07 => ['\\', 'a']
    | 0x08 => ['\\', 'b']
    | 0x0C => ['\\', 'f']
    | 0x0A => ['\\', 'n']
    | 0x0D => ['\\', 'r']
    | 0x09 => ['\\', 't']
    | 0x0B => ['\\', 'v']
    | code =>
        if code < 0x20 || code == 0x7F then '\\' :: 'x' :: hexadecimal 2 code
        else if code < 0x10000 then '\\' :: 'u' :: hexadecimal 4 code
        else '\\' :: 'U' :: hexadecimal 8 code

end Quoted

/-- A text as messages show it. -/
def quoted (text : String) : String :=
  String.ofList ('"' :: text.toList.flatMap Quoted.character ++ ['"'])

end StackMachine
