import LayoutShell.Yaml.Cursor

/-!
# Scalars of a YAML text

Scalars are plain, in single or double quotes, or blocks of lines. Line breaks inside plain and
quoted scalars are folded: a single break becomes a space, and of several the first is dropped.

* `Scalar.plain`, `Scalar.quoted` and `Scalar.block` read a scalar and give its text and the place
  after it, or nothing if it is malformed.
-/

namespace LayoutShell.Yaml.Scalar

/-- The white space between two pieces of a scalar. -/
structure Gap where
  /-- Blanks before the first break. -/
  blanks : List Char
  /-- A line break was passed, or escaped. -/
  broken : Bool
  firstBreak : List Char
  laterBreaks : List Char

namespace Gap

def none : Gap := ⟨[], false, [], []⟩

/-- What the white space counts for. -/
def fold (g : Gap) : List Char :=
  if g.broken then
    if g.firstBreak.head? = some '\n' then
      if g.laterBreaks.isEmpty then [' '] else g.laterBreaks
    else g.firstBreak ++ g.laterBreaks
  else g.blanks

/-- Adds a line break. -/
def addBreak (g : Gap) (text : List Char) : Gap :=
  if g.broken then { g with laterBreaks := g.laterBreaks ++ text }
  else ⟨[], true, text, g.laterBreaks⟩

/-- Adds a blank, which counts only before the first break. -/
def addBlank (g : Gap) (c : Char) : Gap :=
  if g.broken then g else { g with blanks := g.blanks ++ [c] }

end Gap

/-- Passes over blanks and breaks. On a line that follows a break, a tab before column `indent` is
refused. -/
def takeGap (indent : Int) : Nat → Gap → Cursor → Option (Gap × Cursor)
  | 0, _, _ => none
  | fuel + 1, g, c =>
    match c.next? with
    | none => some (g, c)
    | some ch =>
      if isBlank ch then
        if g.broken ∧ (c.column : Int) < indent ∧ ch = '\t' then none
        else takeGap indent fuel (g.addBlank ch) c.advance
      else if isBreak ch then
        let (text, c) := c.takeBreak
        takeGap indent fuel (g.addBreak text) c
      else some (g, c)

/-! ## Plain scalars -/

/-- The characters that end a plain scalar in a flow collection. -/
def isFlowMark (c : Char) : Bool := c == ',' || c == '[' || c == ']' || c == '\x7b' || c == '\x7d'

/-- A plain scalar ends before this place. -/
def endsPlain (flow : Bool) (c : Cursor) : Bool :=
  match c.next? with
  | none => true
  | some ch =>
    isBlank ch || isBreak ch || (ch == ':' && c.gapAt 1) || (flow && isFlowMark ch)

/-- A colon that may not stand in a flow collection. -/
def badColon (flow : Bool) (c : Cursor) : Bool :=
  flow && c.sees ':' &&
    match c.rest[1]? with
    | some ch => isFlowMark ch || ch == '?'
    | none => false

/-- The characters up to a gap or the end of a plain scalar. -/
def takePiece (flow : Bool) : Nat → Cursor → Option (List Char × Cursor)
  | 0, _ => none
  | fuel + 1, c =>
    match c.next? with
    | none => some ([], c)
    | some ch =>
      if c.gapAt 0 then some ([], c)
      else if badColon flow c then none
      else if endsPlain flow c then some ([], c)
      else (takePiece flow fuel c.advance).map fun (piece, c) => (ch :: piece, c)

/-- The pieces of a plain scalar with the gaps between them; also tells whether the last gap holds
a line break. -/
def plainFrom (flow : Bool) (indent : Int) (g : Gap) :
    Nat → Cursor → Option (List Char × Bool × Cursor)
  | 0, _ => none
  | fuel + 1, c =>
    if c.atDocumentMarker ∨ c.sees '#' then some ([], g.broken, c)
    else do
      let (piece, c) ← takePiece flow (c.rest.length + 1) c
      let text := if piece.isEmpty then [] else g.fold ++ piece
      let g := if piece.isEmpty then g else Gap.none
      if !(c.atBlank || c.atBreak) then return (text, g.broken, c)
      else
        let (g, c) ← takeGap indent (c.rest.length + 1) g c
        if !flow ∧ (c.column : Int) < indent then return (text, g.broken, c)
        else
          let (more, broken, c) ← plainFrom flow indent g fuel c
          return (text ++ more, broken, c)

/-- A plain scalar inside a block of the given indentation. -/
def plain (flow : Bool) (indent : Int) (c : Cursor) : Option (List Char × Bool × Cursor) :=
  plainFrom flow (indent + 1) Gap.none (c.rest.length + 1) c

/-! ## Quoted scalars -/

/-- The character that a letter after a backslash stands for. -/
def escape? (c : Char) : Option Char :=
  match c with
  | '0' => some '\x00'
  | 'a' => some '\x07'
  | 'b' => some '\x08'
  | 't' | '\t' => some '\t'
  | 'n' => some '\n'
  | 'v' => some '\x0b'
  | 'f' => some '\x0c'
  | 'r' => some '\r'
  | 'e' => some '\x1b'
  | ' ' => some ' '
  | '"' => some '"'
  | '/' => some '/'
  | '\\' => some '\\'
  | 'N' => some '\x85'
  | '_' => some '\xa0'
  | 'L' => some '\u2028'
  | 'P' => some '\u2029'
  | _ => none

/-- The number of hexadecimal digits after a letter. -/
def escapeLength? (c : Char) : Option Nat :=
  match c with
  | 'x' => some 2
  | 'u' => some 4
  | 'U' => some 8
  | _ => none

/-- The value of a hexadecimal digit. -/
def hexDigit? (c : Char) : Option Nat :=
  if '0' ≤ c ∧ c ≤ '9' then some (c.toNat - '0'.toNat)
  else if 'a' ≤ c ∧ c ≤ 'f' then some (c.toNat - 'a'.toNat + 10)
  else if 'A' ≤ c ∧ c ≤ 'F' then some (c.toNat - 'A'.toNat + 10)
  else none

/-- The value of exactly `count` hexadecimal digits at the start of a text. -/
def hexValue? (value : Nat) : Nat → List Char → Option Nat
  | 0, _ => some value
  | _, [] => none
  | count + 1, c :: rest => do hexValue? (value * 16 + (← hexDigit? c)) count rest

/-- The character escaped at a backslash, and the place after it. -/
def takeEscape (c : Cursor) : Option (Char × Cursor) := do
  let letter ← c.rest[1]?
  match escape? letter with
  | some ch => return (ch, c.advanceBy 2)
  | none =>
    let count ← escapeLength? letter
    let value ← hexValue? 0 count (c.rest.drop 2)
    if value.isValidChar then return (Char.ofNat value, c.advanceBy (2 + count)) else none

/-- The characters up to a gap or the closing quote; also tells whether an escaped line break ends
them. -/
def takeQuotedPiece (quote : Char) : Nat → Cursor → Option (List Char × Bool × Cursor)
  | 0, _ => none
  | fuel + 1, c =>
    match c.next? with
    | none => some ([], false, c)
    | some ch =>
      if c.gapAt 0 then some ([], false, c)
      else if quote = '\'' ∧ ch = '\'' ∧ c.rest[1]? = some '\'' then
        (takeQuotedPiece quote fuel (c.advanceBy 2)).map fun (piece, cut, c) =>
          ('\'' :: piece, cut, c)
      else if ch = quote then some ([], false, c)
      else if quote = '"' ∧ ch = '\\' then
        if c.advance.atBreak then some ([], true, c.advance.skipBreak)
        else do
          let (d, c) ← takeEscape c
          let (piece, cut, c) ← takeQuotedPiece quote fuel c
          return (d :: piece, cut, c)
      else
        (takeQuotedPiece quote fuel c.advance).map fun (piece, cut, c) => (ch :: piece, cut, c)

/-- The text up to the closing quote, and the place after it. -/
def quotedFrom (quote : Char) : Nat → Cursor → Option (List Char × Cursor)
  | 0, _ => none
  | fuel + 1, c =>
    if c.atDocumentMarker ∨ c.atEnd then none
    else do
      let (piece, cut, c) ← takeQuotedPiece quote (c.rest.length + 1) c
      if c.sees quote then return (piece, c.advance)
      else
        let (g, c) ← takeGap 0 (c.rest.length + 1) { Gap.none with broken := cut } c
        let (more, c) ← quotedFrom quote fuel c
        return (piece ++ g.fold ++ more, c)

/-- A scalar in quotes. -/
def quoted (quote : Char) (c : Cursor) : Option (List Char × Cursor) :=
  quotedFrom quote (c.rest.length + 1) c.advance

/-! ## Block scalars -/

/-- What happens to the line breaks at the end of a block. -/
inductive Chomping
  /-- All are dropped. -/
  | strip
  /-- The first is kept. -/
  | clip
  /-- All are kept. -/
  | keep
  deriving DecidableEq

def chomping? (c : Cursor) : Option Chomping :=
  if c.sees '+' then some .keep else if c.sees '-' then some .strip else none

/-- The indentation that a digit asks for. -/
def increment? (c : Cursor) : Option Nat :=
  match c.next? with
  | some ch => if ch.isDigit then some (ch.toNat - '0'.toNat) else none
  | none => none

/-- The header of a block after its indicator: chomping and indentation in either order, the latter
not zero. -/
def blockHeader (c : Cursor) : Option (Chomping × Option Nat × Cursor) :=
  let checked := fun (chomping : Chomping) (increment : Option Nat) (c : Cursor) =>
    if increment = some 0 then none else some (chomping, increment, c)
  match chomping? c with
  | some chomping =>
    let c := c.advance
    match increment? c with
    | some n => checked chomping (some n) c.advance
    | none => checked chomping none c
  | none =>
    match increment? c with
    | some n =>
      let c := c.advance
      match chomping? c with
      | some chomping => checked chomping (some n) c.advance
      | none => checked .clip (some n) c
    | none => checked .clip none c

/-- Passes over indentation and empty lines. An indentation of zero is not known yet: it becomes
that of the deepest line, and at least `least`. -/
def takeBreaks (least : Nat) : Nat → Nat → Nat → List Char → Cursor →
    Option (Nat × List Char × Cursor)
  | 0, _, _, _, _ => none
  | fuel + 1, indent, deepest, breaks, c =>
    let inside := fun column => indent = 0 ∨ column < indent
    let c := (Cursor.takeFrom (fun column ch => inside column ∧ ch = ' ') c.line c.rest c.index
      c.column).2
    let deepest := max deepest c.column
    if inside c.column ∧ c.sees '\t' then none
    else if c.atBreak then
      let (text, c) := c.takeBreak
      takeBreaks least fuel indent deepest (breaks ++ text) c
    else some (if indent = 0 then max deepest least else indent, breaks, c)

/-- The lines of a block: the text, the break after its last line and the breaks after that. `last`
and `breaks` are those before the first line, and `blank` tells whether the line before them begins
with a blank. -/
def blockLines (literal : Bool) (indent : Nat) : Nat → List Char → List Char → Bool → Cursor →
    Option (List Char × List Char × List Char × Cursor)
  | 0, _, _, _, _ => none
  | fuel + 1, last, breaks, blank, c =>
    if c.column = indent ∧ !c.atEnd then do
      let nowBlank := c.atBlank
      let joint := if !literal ∧ last.head? = some '\n' ∧ !blank ∧ !nowBlank then
          if breaks.isEmpty then [' '] else []
        else last
      let (line, c) := c.takeWhile (!isBreak ·)
      let (next, c) := c.takeBreak
      let (_, later, c) ← takeBreaks 1 (c.rest.length + 1) indent 0 [] c
      let (text, last, trailing, c) ← blockLines literal indent fuel next later nowBlank c
      return (joint ++ breaks ++ line ++ text, last, trailing, c)
    else some ([], last, breaks, c)

/-- A block scalar at its indicator, inside a block of the given indentation. -/
def block (literal : Bool) (parent : Int) (c : Cursor) : Option (List Char × Cursor) := do
  let (chomping, increment, c) ← blockHeader c.advance
  let c ← c.endLine?
  let indent := match increment with
    | some n => (if 0 ≤ parent then parent.toNat + n else n)
    | none => 0
  let least := max 1 (parent + 1).toNat
  let (indent, breaks, c) ← takeBreaks least (c.rest.length + 1) indent 0 [] c
  let (text, last, trailing, c) ← blockLines literal indent (c.rest.length + 1) [] breaks false c
  let tail := match chomping with
    | .strip => []
    | .clip => last
    | .keep => last ++ trailing
  return (text ++ tail, c)

end LayoutShell.Yaml.Scalar
