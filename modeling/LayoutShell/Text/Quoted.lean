import LayoutShell.Text.Extending
import LayoutShell.Text.Printable

/-!
# Quoted text

Text in messages is quoted so that every character is visible: quotes, backslashes and the common
controls have short escapes, and other characters that do not print, or that would attach to the
character before them, are given by their number.
-/

namespace LayoutShell.Text

/-- The hexadecimal digits of a number, in lower case. -/
def hexDigits (n : Nat) : List Char := Nat.toDigits 16 n

/-- A character inside a quoted text. -/
def quoteChar (c : Char) : List Char :=
  if c = '"' then ['\\', '"']
  else if c = '\\' then ['\\', '\\']
  else if c = '\n' then ['\\', 'n']
  else if c = '\r' then ['\\', 'r']
  else if c = '\t' then ['\\', 't']
  else if c = '\x00' then ['\\', '0']
  else if isExtending c || !isPrintable c then
    ['\\', 'u', '\x7b'] ++ hexDigits c.toNat ++ ['\x7d']
  else [c]

/-- A text in double quotes. -/
def quoted (s : List Char) : List Char := '"' :: s.flatMap quoteChar ++ ['"']

end LayoutShell.Text
