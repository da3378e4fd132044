/-!
# Places in a YAML text

A cursor is a place in a text with its line and column. Line breaks are carriage returns, line
feeds, and the three Unicode line breaks; a carriage return with a line feed is one break.

* `Cursor.advance`, `Cursor.skipWhile` and `Cursor.skipBreak` move a cursor.
* `Cursor.takeWhile` and `Cursor.takeBreak` also give the characters that they pass over.
-/

namespace LayoutShell.Yaml

def isBreak (c : Char) : Bool :=
  c == '\r' || c == '\n' || c == '\x85' || c == '\u2028' || c == '\u2029'

def isBlank (c : Char) : Bool := c == ' ' || c == '\t'

/-- The characters of names. -/
def isWordChar (c : Char) : Bool := c.isAlphanum || c == '_' || c == '-'

/-- The characters that a text may hold. -/
def isAllowed (c : Char) : Bool :=
  let n := c.toNat
  n == 9 || n == 10 || n == 13 || (0x20 ≤ n && n ≤ 0x7E) || n == 0x85 ||
    (0xA0 ≤ n && n ≤ 0xD7FF) || (0xE000 ≤ n && n ≤ 0xFFFD) || 0x10000 ≤ n

/-- A place in a text. -/
structure Cursor where
  rest : List Char
  /-- The number of bytes before it. -/
  index : Nat
  line : Nat
  column : Nat
  deriving DecidableEq

namespace Cursor

/-- The place before a text. -/
def start (text : List Char) : Cursor := ⟨text, 0, 0, 0⟩

/-- The next character. -/
def next? (c : Cursor) : Option Char := c.rest.head?

/-- The next character is `ch`. -/
def sees (c : Cursor) (ch : Char) : Bool := c.next? == some ch

def atEnd (c : Cursor) : Bool := c.rest.isEmpty

/-- The `n`-th next character is a blank or a break, or the text ends before it. -/
def gapAt (c : Cursor) (n : Nat) : Bool :=
  match c.rest[n]? with
  | none => true
  | some ch => isBlank ch || isBreak ch

/-- The next character is a line break. -/
def atBreak (c : Cursor) : Bool :=
  match c.next? with
  | some ch => isBreak ch
  | none => false

/-- The next character is a blank. -/
def atBlank (c : Cursor) : Bool :=
  match c.next? with
  | some ch => isBlank ch
  | none => false

/-- Moves over `n` characters of a line. -/
def advanceBy (n : Nat) (c : Cursor) : Cursor :=
  ⟨c.rest.drop n, c.index + ((c.rest.take n).map Char.utf8Size).foldl (· + ·) 0, c.line, c.column + n⟩

/-- Moves over one character of a line. -/
def advance (c : Cursor) : Cursor := c.advanceBy 1

/-- Passes over the characters of a line that satisfy `p`, which also sees their column. -/
def takeFrom (p : Nat → Char → Bool) (line : Nat) :
    List Char → Nat → Nat → List Char × Cursor
  | [], index, column => ([], ⟨[], index, line, column⟩)
  | ch :: rest, index, column =>
    if p column ch then
      let (taken, c) := takeFrom p line rest (index + ch.utf8Size) (column + 1)
      (ch :: taken, c)
    else ([], ⟨ch :: rest, index, line, column⟩)

/-- The characters of a line as long as they satisfy `p`. -/
def takeWhile (p : Char → Bool) (c : Cursor) : List Char × Cursor :=
  takeFrom (fun _ => p) c.line c.rest c.index c.column

def skipWhile (p : Char → Bool) (c : Cursor) : Cursor := (c.takeWhile p).2

def skipBlanks (c : Cursor) : Cursor := c.skipWhile isBlank

/-- Moves to the next line break or the end. -/
def skipLine (c : Cursor) : Cursor := c.skipWhile (!isBreak ·)

/-- Moves over a line break, if there is one. -/
def skipBreak (c : Cursor) : Cursor :=
  match c.rest with
  | '\r' :: '\n' :: rest => ⟨rest, c.index + 2, c.line + 1, 0⟩
  | ch :: rest => if isBreak ch then ⟨rest, c.index + ch.utf8Size, c.line + 1, 0⟩ else c
  | [] => c

/-- The text of a line break, if there is one: a line feed, or one of the last two Unicode breaks
as it is. -/
def breakText (c : Cursor) : List Char :=
  match c.next? with
  | some ch =>
    if ch = '\u2028' ∨ ch = '\u2029' then [ch] else if isBreak ch then ['\n'] else []
  | none => []

/-- The text of a line break and the place after it. -/
def takeBreak (c : Cursor) : List Char × Cursor := (c.breakText, c.skipBreak)

/-- Three characters `ch` at the start of a line, followed by a gap. -/
def atMarker (c : Cursor) (ch : Char) : Bool :=
  c.column == 0 && c.rest.take 3 == [ch, ch, ch] && c.gapAt 3

/-- The start or the end marker of a document. -/
def atDocumentMarker (c : Cursor) : Bool := c.atMarker '-' || c.atMarker '.'

/-- Moves over blanks and a comment to the end of the line, which must hold nothing else. -/
def endLine? (c : Cursor) : Option Cursor :=
  let c := c.skipBlanks
  let c := if c.sees '#' then c.skipLine else c
  if c.atEnd || c.atBreak then some c.skipBreak else none

end Cursor

end LayoutShell.Yaml
