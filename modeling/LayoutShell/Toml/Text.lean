/-!
# Space, keys and strings of a TOML text

Readers take the characters that are left and return what they read with the rest, or fail.

* `lineEnd` reads the end of a line, and `gap` what may stand between the items of an array.
* `key` reads a dotted key, and `string` a string of any of the four kinds.
-/

namespace LayoutShell.Toml

/-! ## Space -/

def isSpace (c : Char) : Bool := c == ' ' || c == '\t'

def skipSpace (s : List Char) : List Char := s.dropWhile isSpace

/-- The characters of comments and of literal strings: no control character but a tab. -/
def isPrintable (c : Char) : Bool := c == '\t' || (' ' ≤ c && c ≠ '\x7f')

/-- Reads a line feed, possibly after a carriage return. -/
def newline : List Char → Option (List Char)
  | '\n' :: rest => some rest
  | '\r' :: '\n' :: rest => some rest
  | _ => none

/-- Passes over a comment, if there is one. -/
def skipComment : List Char → List Char
  | '#' :: rest => rest.dropWhile isPrintable
  | s => s

/-- Reads the rest of a line that holds nothing more than a comment; the text may end there. -/
def lineEnd (s : List Char) : Option (List Char) :=
  match skipComment (skipSpace s) with
  | [] => some []
  | rest => newline rest

/-- Passes over space and line breaks. -/
def skipBlank : List Char → List Char
  | '\r' :: '\n' :: rest => skipBlank rest
  | c :: rest => if isSpace c ∨ c = '\n' then skipBlank rest else c :: rest
  | [] => []

/-- Reads space, line breaks and comments; a comment ends with a line break. -/
def gap : Nat → List Char → Option (List Char)
  | 0, _ => none
  | fuel + 1, s =>
    match skipBlank s with
    | '#' :: rest => do gap fuel (← newline (rest.dropWhile isPrintable))
    | rest => some rest

/-! ## Strings -/

def hexDigit? (c : Char) : Option Nat :=
  if '0' ≤ c ∧ c ≤ '9' then some (c.toNat - '0'.toNat)
  else if 'a' ≤ c ∧ c ≤ 'f' then some (c.toNat - 'a'.toNat + 10)
  else if 'A' ≤ c ∧ c ≤ 'F' then some (c.toNat - 'A'.toNat + 10)
  else none

/-- The value of exactly `count` hexadecimal digits. -/
def hexValue : Nat → Nat → List Char → Option (Nat × List Char)
  | value, 0, s => some (value, s)
  | value, count + 1, c :: rest => do hexValue (value * 16 + (← hexDigit? c)) count rest
  | _, _ + 1, [] => none

/-- A character by its number in `count` hexadecimal digits. -/
def numbered (count : Nat) (s : List Char) : Option (Char × List Char) := do
  let (value, rest) ← hexValue 0 count s
  if value.isValidChar then return (Char.ofNat value, rest) else none

/-- The character that stands after a backslash. -/
def escaped : List Char → Option (Char × List Char)
  | 'b' :: rest => some ('\x08', rest)
  | 't' :: rest => some ('\t', rest)
  | 'n' :: rest => some ('\n', rest)
  | 'f' :: rest => some ('\x0c', rest)
  | 'r' :: rest => some ('\r', rest)
  | '"' :: rest => some ('"', rest)
  | '\\' :: rest => some ('\\', rest)
  | 'u' :: rest => numbered 4 rest
  | 'U' :: rest => numbered 8 rest
  | _ => none

/-- Puts a character before a text that was read. -/
def before (c : Char) (read : Option (List Char × List Char)) : Option (List Char × List Char) :=
  read.map fun (text, rest) => (c :: text, rest)

/-- Reads a string in double quotes after the first one. -/
def basic : Nat → List Char → Option (List Char × List Char)
  | 0, _ => none
  | fuel + 1, s =>
    match s with
    | [] => none
    | '"' :: rest => some ([], rest)
    | '\\' :: rest => do
      let (c, rest) ← escaped rest
      before c (basic fuel rest)
    | c :: rest => if isPrintable c then before c (basic fuel rest) else none

/-- Reads a string in single quotes after the first one. -/
def literal : List Char → Option (List Char × List Char)
  | [] => none
  | c :: rest =>
    if c = '\'' then some ([], rest)
    else if isPrintable c then before c (literal rest)
    else none

/-- Up to two quotes after three of them belong to the text, which ends with the last three. -/
def closing (quote : Char) (rest : List Char) : List Char × List Char :=
  let more := (rest.takeWhile (· == quote)).take 2
  (more, rest.drop more.length)

/-- What follows a backslash at the end of a line, up to the next character that is no space. -/
def continuation (s : List Char) : Option (List Char) := (newline (skipSpace s)).map skipBlank

/-- Reads a string in three double quotes after the first ones. -/
def longBasic : Nat → List Char → Option (List Char × List Char)
  | 0, _ => none
  | fuel + 1, s =>
    match s with
    | [] => none
    | '"' :: '"' :: '"' :: rest => some (closing '"' rest)
    | '\r' :: '\n' :: rest => before '\n' (longBasic fuel rest)
    | '\\' :: rest =>
      match continuation rest with
      | some rest => longBasic fuel rest
      | none => do
        let (c, rest) ← escaped rest
        before c (longBasic fuel rest)
    | c :: rest => if c = '\n' ∨ isPrintable c then before c (longBasic fuel rest) else none

/-- Reads a string in three single quotes after the first ones. -/
def longLiteral : List Char → Option (List Char × List Char)
  | [] => none
  | '\'' :: '\'' :: '\'' :: rest => some (closing '\'' rest)
  | '\r' :: '\n' :: rest => before '\n' (longLiteral rest)
  | c :: rest => if c = '\n' ∨ isPrintable c then before c (longLiteral rest) else none

/-- A line break right after the first quotes does not count. -/
def dropNewline (s : List Char) : List Char := (newline s).getD s

/-- Reads a string of any kind. -/
def string : List Char → Option (List Char × List Char)
  | '"' :: '"' :: '"' :: rest => longBasic (rest.length + 1) (dropNewline rest)
  | '\'' :: '\'' :: '\'' :: rest => longLiteral (dropNewline rest)
  | '"' :: rest => basic (rest.length + 1) rest
  | '\'' :: rest => literal rest
  | _ => none

/-! ## Keys -/

def isBareKeyChar (c : Char) : Bool := c.isAlphanum || c == '_' || c == '-'

/-- Reads one part of a key: bare, or in quotes on one line. -/
def keyPart : List Char → Option (List Char × List Char)
  | '"' :: rest => basic (rest.length + 1) rest
  | '\'' :: rest => literal rest
  | s =>
    let part := s.takeWhile isBareKeyChar
    if part.isEmpty then none else some (part, s.drop part.length)

/-- Reads the parts of a key with space around them. -/
def keyParts : Nat → List Char → Option (List String × List Char)
  | 0, _ => none
  | fuel + 1, s => do
    let (part, rest) ← keyPart (skipSpace s)
    match skipSpace rest with
    | '.' :: rest =>
      let (parts, rest) ← keyParts fuel rest
      return (String.ofList part :: parts, rest)
    | rest => return ([String.ofList part], rest)

/-- Keys and brackets nest to fewer levels than this. -/
def nestingLimit : Nat := 80

/-- A dotted key: the tables on the way, and the name in the last of them. -/
structure Key where
  path : List String
  name : String

/-- Reads a dotted key. -/
def key (s : List Char) : Option (Key × List Char) := do
  let (parts, rest) ← keyParts (s.length + 1) s
  if nestingLimit ≤ parts.length then none
  else return (⟨parts.dropLast, ← parts.getLast?⟩, rest)

end LayoutShell.Toml
