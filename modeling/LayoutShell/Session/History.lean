import LayoutShell.Files.Access
import LayoutShell.Session.Line

/-!
# The history of lines

Lines are remembered between sessions in a file. Its first line tells the format, in which a
backslash and a line feed are written by a backslash and a second character. A file without that
first line holds its lines as they are.

* `History.add` remembers a line.
* `History.load` and `History.save` read and write the file.
-/

namespace LayoutShell.Session

open Files Text

/-- The lines that are remembered. -/
structure History where
  /-- The oldest line first. -/
  entries : List (List Char)
  /-- A line was added since the file was read. -/
  changed : Bool
  deriving DecidableEq

namespace History

def empty : History := ⟨[], false⟩

/-- The number of lines that are remembered. -/
def capacity : Nat := 100

/-- Remembers a line, unless it is empty or the same as the last one. -/
def add (h : History) (line : List Char) : History :=
  if line.isEmpty ∨ h.entries.getLast? = some line then h
  else ⟨(if h.entries.length = capacity then h.entries.tail else h.entries) ++ [line], true⟩

/-! ## The file -/

/-- The first line of the file. -/
def formatLine : List Char := "#V2".toList

def escapeChar (c : Char) : List Char :=
  if c = '\\' then ['\\', '\\'] else if c = '\n' then ['\\', 'n'] else [c]

def escape (line : List Char) : List Char := line.flatMap escapeChar

/-- The line that was escaped, unless there is a backslash before anything else. -/
def unescape? : List Char → Option (List Char)
  | [] => some []
  | '\\' :: '\\' :: rest => (unescape? rest).map ('\\' :: ·)
  | '\\' :: 'n' :: rest => (unescape? rest).map ('\n' :: ·)
  | c :: rest => if c = '\\' then none else (unescape? rest).map (c :: ·)

/-- A line that was not escaped is taken as it is. -/
def unescape (line : List Char) : List Char := (unescape? line).getD line

/-- The text of the file. -/
def render (h : History) : List Char :=
  (formatLine :: h.entries.map escape).flatMap (· ++ ['\n'])

/-- Adds lines of the file. A line that is no text ends the reading, and what was read before it
counts as changed. -/
def addLines (read : List Char → List Char) (h : History) : List (List UInt8) → History
  | [] => { h with changed := false }
  | line :: rest =>
    match lineText line with
    | some text => addLines read (h.add (read text)) rest
    | none => h

/-- The history in the content of the file. -/
def ofBytes (content : List UInt8) : History :=
  match splitLines content with
  | [] => empty
  | first :: rest =>
    if lineText first = some formatLine then addLines unescape empty rest
    else addLines id empty (first :: rest)

/-- Reads the file; without one nothing is remembered. -/
def load (t : FileTree) (path : String) : History :=
  match t.read path with
  | .ok content => ofBytes content
  | .error _ => empty

/-- Writes the file, if a line was added. A file that cannot be written is left as it is. -/
def save (h : History) (t : FileTree) (path : String) : FileTree :=
  if h.changed then (t.write path (encode h.render)).toOption.getD t else t

end History

end LayoutShell.Session
