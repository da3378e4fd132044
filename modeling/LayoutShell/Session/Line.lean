import LayoutShell.Text.Cluster
import LayoutShell.Text.Utf8

/-!
# Lines of input

* `splitLines` cuts bytes after each line feed.
* `lineText` is the text of a line without its end, and `typedText` what is left of it after its
  backspaces.
-/

namespace LayoutShell.Session

open Text

/-- Puts a byte before the first of some lines. -/
def extendFirst (b : UInt8) : List (List UInt8) → List (List UInt8)
  | [] => [[b]]
  | line :: rest => (b :: line) :: rest

/-- The lines of some bytes, each with its line feed; the last one may have none. -/
def splitLines : List UInt8 → List (List UInt8)
  | [] => []
  | b :: rest => if b = 0x0A then [b] :: splitLines rest else extendFirst b (splitLines rest)

/-- Removes a line feed at the end, and a carriage return before it. -/
def dropLineEnd (line : List Char) : List Char :=
  match line.reverse with
  | '\n' :: '\r' :: rest => rest.reverse
  | '\n' :: rest => rest.reverse
  | _ => line

/-- The text of a line, unless its bytes are no text. -/
def lineText (line : List UInt8) : Option (List Char) := (decode line).map dropLineEnd

/-- What a line of input comes to. -/
inductive Typed
  | text (line : List Char)
  /-- The bytes are no text. -/
  | undecodable
  /-- A backspace would split a character. -/
  | split
  deriving DecidableEq

/-- A line as it was typed. -/
def typedText (line : List UInt8) : Typed :=
  match lineText line with
  | none => .undecodable
  | some text =>
    match eraseBackspaces text with
    | some text => .text text
    | none => .split

end LayoutShell.Session
