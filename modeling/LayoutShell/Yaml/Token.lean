import LayoutShell.Yaml.Tag

/-!
# Tokens of a YAML text

A text is cut into tokens. In block style the nesting shows in the columns of lines, so the scanner
keeps the columns of the open collections and adds tokens where collections begin and end. A key
shows only when its colon is met; the scanner remembers where the last possible key began, on the
same line and at most 1024 bytes back, and adds the key token there.

* `Scanner.step` reads one token, and `Token.scan` all tokens of a text.
-/

namespace LayoutShell.Yaml

inductive Token
  | directive (d : Directive)
  | documentStart
  | documentEnd
  | blockSequence
  | blockMapping
  | blockEnd
  | flowSequence
  | flowSequenceEnd
  | flowMapping
  | flowMappingEnd
  | blockEntry
  | flowEntry
  | key
  | value
  | alias (name : List Char)
  | anchor (name : List Char)
  | tag (handle suffix : List Char)
  | scalar (isPlain : Bool) (text : List Char)
  deriving DecidableEq

/-- A place where a key may have begun. -/
structure PossibleKey where
  /-- The block collection around it cannot go on unless it is a key. -/
  required : Bool
  /-- The number of tokens before it. -/
  position : Nat
  /-- The number of bytes before it. -/
  index : Nat
  line : Nat
  column : Nat
  deriving DecidableEq

/-- The state of the scan. -/
structure Scanner where
  cursor : Cursor
  tokens : Array Token
  /-- The column of the innermost block collection, `-1` outside of all. -/
  indent : Int
  /-- The columns of the block collections around it. -/
  outer : List Int
  /-- A possible key at each level of flow collections, the innermost first. -/
  keys : List (Option PossibleKey)
  /-- A key may begin here. -/
  keyAllowed : Bool

namespace Scanner

def start (text : List Char) : Scanner := ⟨Cursor.start text, #[], -1, [], [none], true⟩

/-- The scan is inside a flow collection. -/
def inFlow (s : Scanner) : Bool := 1 < s.keys.length

def push (s : Scanner) (t : Token) : Scanner := { s with tokens := s.tokens.push t }

/-- Moves on by `n` characters after adding a token. -/
def emit (s : Scanner) (n : Nat) (t : Token) : Scanner :=
  { s.push t with cursor := s.cursor.advanceBy n }

/-! ## Indentation -/

/-- Opens a block collection at a deeper column; its token goes before the token at `position`. -/
def roll (s : Scanner) (column position : Nat) (t : Token) : Scanner :=
  if !s.inFlow ∧ s.indent < column then
    { s with
      tokens := s.tokens.insertIdxIfInBounds position t
      indent := column
      outer := s.indent :: s.outer }
  else s

/-- Closes the block collections that are deeper than a column. -/
def unrollFrom (column indent : Int) (tokens : Array Token) :
    List Int → Array Token × Int × List Int
  | [] => (tokens, indent, [])
  | i :: outer =>
    if column < indent then unrollFrom column i (tokens.push .blockEnd) outer
    else (tokens, indent, i :: outer)

def unroll (s : Scanner) (column : Int) : Scanner :=
  if s.inFlow then s
  else
    let (tokens, indent, outer) := unrollFrom column s.indent s.tokens s.outer
    { s with tokens := tokens, indent := indent, outer := outer }

/-! ## Possible keys -/

/-- Gives up the possible key at the current level; a required one cannot be given up. -/
def dropKey (s : Scanner) : Option Scanner :=
  match s.keys with
  | some k :: rest => if k.required then none else some { s with keys := none :: rest }
  | _ => some s

/-- Remembers that a key may begin here. -/
def saveKey (s : Scanner) : Option Scanner :=
  if s.keyAllowed then do
    let s ← s.dropKey
    let required := !s.inFlow && s.indent == s.cursor.column
    let k : PossibleKey :=
      ⟨required, s.tokens.size, s.cursor.index, s.cursor.line, s.cursor.column⟩
    return { s with keys := some k :: s.keys.tail }
  else some s

/-- A key ends on its line, within 1024 bytes. -/
def isStale (c : Cursor) (k : PossibleKey) : Bool :=
  k.line < c.line || k.index + 1024 < c.index

/-- Gives up the possible keys that are too far back. -/
def dropStaleKeys (s : Scanner) : Option Scanner :=
  let stale := fun k : Option PossibleKey => k.any (isStale s.cursor)
  if s.keys.any fun k => stale k && k.any (·.required) then none
  else some { s with keys := s.keys.map fun k => if stale k then none else k }

/-! ## Reading tokens -/

/-- Moves over space, comments and line breaks to the next token. Tabs count as space only where no
key may begin, and a byte order mark only at the start of a line. -/
def toNextToken : Nat → Scanner → Scanner
  | 0, s => s
  | fuel + 1, s =>
    let c := s.cursor
    let c := if c.column = 0 ∧ c.sees '\uFEFF' then c.advance else c
    let c := c.skipWhile fun ch => ch == ' ' || ((s.inFlow || !s.keyAllowed) && ch == '\t')
    let c := if c.sees '#' then c.skipLine else c
    if c.atBreak then
      toNextToken fuel { s with cursor := c.skipBreak, keyAllowed := s.keyAllowed || !s.inFlow }
    else { s with cursor := c }

/-- Ends all block collections and possible keys before a directive or a document marker. -/
def endBlocks (s : Scanner) : Option Scanner := do
  let s ← (s.unroll (-1)).dropKey
  return { s with keyAllowed := false }

def readDirective (s : Scanner) : Option Scanner := do
  let s ← s.endBlocks
  let (d, c) ← takeDirective s.cursor
  return { s.push (.directive d) with cursor := c }

def readMarker (s : Scanner) (t : Token) : Option Scanner := do
  return (← s.endBlocks).emit 3 t

def openFlow (s : Scanner) (t : Token) : Option Scanner := do
  let s ← s.saveKey
  return { s.emit 1 t with keys := none :: s.keys, keyAllowed := true }

def closeFlow (s : Scanner) (t : Token) : Option Scanner := do
  let s ← s.dropKey
  let keys := if s.inFlow then s.keys.tail else s.keys
  return { s.emit 1 t with keys := keys, keyAllowed := false }

def readFlowEntry (s : Scanner) : Option Scanner := do
  let s ← s.dropKey
  return { s.emit 1 .flowEntry with keyAllowed := true }

/-- A dash that begins an entry; outside of flow collections it needs a place where a key could
begin. -/
def readBlockEntry (s : Scanner) : Option Scanner :=
  if !s.inFlow ∧ !s.keyAllowed then none
  else do
    let s ← (s.roll s.cursor.column s.tokens.size .blockSequence).dropKey
    return { s.emit 1 .blockEntry with keyAllowed := true }

/-- A question mark that begins a key. -/
def readKey (s : Scanner) : Option Scanner :=
  if !s.inFlow ∧ !s.keyAllowed then none
  else do
    let s ← (s.roll s.cursor.column s.tokens.size .blockMapping).dropKey
    return { s.emit 1 .key with keyAllowed := !s.inFlow }

/-- A colon. If a key may have begun before it, that was one. -/
def readValue (s : Scanner) : Option Scanner :=
  match s.keys with
  | some k :: rest =>
    let s := { s with
      tokens := s.tokens.insertIdxIfInBounds k.position .key
      keys := none :: rest }
    let s := s.roll k.column k.position .blockMapping
    some { s.emit 1 .value with keyAllowed := false }
  | _ =>
    if !s.inFlow ∧ !s.keyAllowed then none
    else
      let s := s.roll s.cursor.column s.tokens.size .blockMapping
      some { s.emit 1 .value with keyAllowed := !s.inFlow }

def readAnchor (s : Scanner) (token : List Char → Token) : Option Scanner := do
  let s ← s.saveKey
  let (name, c) ← takeAnchor s.cursor
  return { s.push (token name) with cursor := c, keyAllowed := false }

def readTag (s : Scanner) : Option Scanner := do
  let s ← s.saveKey
  let (handle, suffix, c) ← takeTag s.inFlow s.cursor
  return { s.push (.tag handle suffix) with cursor := c, keyAllowed := false }

def readBlockScalar (s : Scanner) (literal : Bool) : Option Scanner := do
  let s ← s.dropKey
  let (text, c) ← Scalar.block literal s.indent s.cursor
  return { s.push (.scalar false text) with cursor := c, keyAllowed := true }

def readQuoted (s : Scanner) (quote : Char) : Option Scanner := do
  let s ← s.saveKey
  let (text, c) ← Scalar.quoted quote s.cursor
  return { s.push (.scalar false text) with cursor := c, keyAllowed := false }

/-- A plain scalar; if it ends with a line break, a key may begin after it. -/
def readPlain (s : Scanner) : Option Scanner := do
  let s ← s.saveKey
  let (text, broken, c) ← Scalar.plain s.inFlow s.indent s.cursor
  return { s.push (.scalar true text) with cursor := c, keyAllowed := broken }

/-- The characters that begin no plain scalar. -/
def isIndicator (c : Char) : Bool := "-?:,[]\x7b\x7d#&*!|>'\"%@\x60".toList.contains c

/-- A plain scalar begins here: with a character that is no indicator, with a dash before something
else than a blank, or outside of flow collections with a question mark or a colon before something
else than a gap. -/
def startsPlain (s : Scanner) (ch : Char) : Bool :=
  let c := s.cursor
  let blankNext := match c.rest[1]? with
    | some d => isBlank d
    | none => false
  !(c.gapAt 0 || isIndicator ch) || (ch == '-' && !blankNext) ||
    (!s.inFlow && (ch == '?' || ch == ':') && !c.gapAt 1)

/-- Reads the token at the cursor. -/
def readToken (s : Scanner) (ch : Char) : Option Scanner :=
  let c := s.cursor
  if c.column = 0 ∧ ch = '%' then s.readDirective
  else if c.atMarker '-' then s.readMarker .documentStart
  else if c.atMarker '.' then s.readMarker .documentEnd
  else if ch = '[' then s.openFlow .flowSequence
  else if ch = '\x7b' then s.openFlow .flowMapping
  else if ch = ']' then s.closeFlow .flowSequenceEnd
  else if ch = '\x7d' then s.closeFlow .flowMappingEnd
  else if ch = ',' then s.readFlowEntry
  else if ch = '-' ∧ c.gapAt 1 then s.readBlockEntry
  else if ch = '?' ∧ (s.inFlow ∨ c.gapAt 1) then s.readKey
  else if ch = ':' ∧ (s.inFlow ∨ c.gapAt 1) then s.readValue
  else if ch = '*' then s.readAnchor .alias
  else if ch = '&' then s.readAnchor .anchor
  else if ch = '!' then s.readTag
  else if ch = '|' ∧ !s.inFlow then s.readBlockScalar true
  else if ch = '>' ∧ !s.inFlow then s.readBlockScalar false
  else if ch = '\'' ∨ ch = '"' then s.readQuoted ch
  else if s.startsPlain ch then s.readPlain
  else none

/-- Ends the scan at the end of the text. -/
def finish (s : Scanner) : Option (Array Token) := do
  return (← (s.unroll (-1)).dropKey).tokens

/-- Reads one token; `none` inside at the end of the text. -/
def step (s : Scanner) : Option (Option Scanner × Scanner) := do
  let s := toNextToken (s.cursor.rest.length + 1) s
  let s ← s.dropStaleKeys
  let s := s.unroll s.cursor.column
  match s.cursor.next? with
  | none => return (none, s)
  | some ch => return (some (← s.readToken ch), s)

/-- Reads tokens to the end of the text. -/
def run : Nat → Scanner → Option (Array Token)
  | 0, _ => none
  | fuel + 1, s => do
    match ← s.step with
    | (none, s) => s.finish
    | (some s, _) => run fuel s

end Scanner

/-- The tokens of a text, unless it is malformed. -/
def Token.scan (text : List Char) : Option (List Token) :=
  if text.all isAllowed then
    (Scanner.run (text.length + 1) (Scanner.start text)).map Array.toList
  else none

end LayoutShell.Yaml
