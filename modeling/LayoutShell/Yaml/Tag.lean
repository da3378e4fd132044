import LayoutShell.Text.Utf8
import LayoutShell.Yaml.Scalar

/-!
# Tags, anchors and directives of a YAML text

* `takeAnchor` reads the name of an anchor or an alias.
* `takeTag` reads a tag as a handle and a suffix; an empty handle means that the suffix is the whole
  tag.
* `takeDirective` reads a directive line.
-/

namespace LayoutShell.Yaml

/-- A line before a document. -/
inductive Directive
  | version (major minor : Nat)
  /-- Tags with this handle begin with `start`. -/
  | tag (handle start : List Char)
  deriving DecidableEq

/-! ## Anchors -/

/-- The characters that may follow an anchor, gaps aside. -/
def followsAnchor (c : Char) : Bool :=
  c == '?' || c == ':' || c == ',' || c == ']' || c == '\x7d' || c == '%' || c == '@' || c == '\x60'

/-- The name after `&` or `*`. -/
def takeAnchor (c : Cursor) : Option (List Char × Cursor) :=
  let (name, c) := c.advance.takeWhile isWordChar
  let ends := match c.next? with
    | some ch => c.gapAt 0 || followsAnchor ch
    | none => true
  if name.isEmpty ∨ !ends then none else some (name, c)

/-! ## Tags -/

/-- The characters of tags besides letters, digits and percent signs. -/
def isTagChar (c : Char) : Bool :=
  isWordChar c || ";/?:@&=+$.!~*'()".toList.contains c

/-- The characters allowed only between `<` and `>`. -/
def isVerbatimChar (c : Char) : Bool := isTagChar c || c == ',' || c == '[' || c == ']'

/-- The byte written by `%` and two hexadecimal digits. -/
def takeOctet? (c : Cursor) : Option (UInt8 × Cursor) :=
  if c.sees '%' then do
    let value ← Scalar.hexValue? 0 2 (c.rest.drop 1)
    return (value.toUInt8, c.advanceBy 3)
  else none

/-- The number of bytes of a character whose UTF-8 form begins with `b`. -/
def octetCount? (b : UInt8) : Option Nat :=
  if b < 0x80 then some 1
  else if 0xC0 ≤ b ∧ b < 0xE0 then some 2
  else if 0xE0 ≤ b ∧ b < 0xF0 then some 3
  else if 0xF0 ≤ b ∧ b < 0xF8 then some 4
  else none

/-- Further bytes of a character, each a continuation byte. -/
def takeOctets : Nat → Cursor → Option (List UInt8 × Cursor)
  | 0, c => some ([], c)
  | count + 1, c => do
    let (b, c) ← takeOctet? c
    if 0x80 ≤ b ∧ b < 0xC0 then
      let (more, c) ← takeOctets count c
      return (b :: more, c)
    else none

/-- The bytes of a character written by octets. -/
def takeEscaped (c : Cursor) : Option (List UInt8 × Cursor) := do
  let (b, c) ← takeOctet? c
  let (more, c) ← takeOctets ((← octetCount? b) - 1) c
  return (b :: more, c)

/-- The bytes of a tag or of a part of one. -/
def takeTagBytes (allowed : Char → Bool) : Nat → Cursor → Option (List UInt8 × Cursor)
  | 0, _ => none
  | fuel + 1, c =>
    match c.next? with
    | none => some ([], c)
    | some ch =>
      if ch = '%' then do
        let (bytes, c) ← takeEscaped c
        let (more, c) ← takeTagBytes allowed fuel c
        return (bytes ++ more, c)
      else if allowed ch then
        (takeTagBytes allowed fuel c.advance).map fun (more, c) =>
          (Text.encodeChar ch ++ more, c)
      else some ([], c)

/-- A tag text, which must not be empty unless something was read before it. -/
def takeTagText (allowed : Char → Bool) (before : List Char) (c : Cursor) :
    Option (List Char × Cursor) := do
  let (bytes, c) ← takeTagBytes allowed (c.rest.length + 1) c
  if before.isEmpty ∧ bytes.isEmpty then none
  else
    let text := (Text.decode bytes).getD (bytes.map fun b => Char.ofNat b.toNat)
    return (before.drop 1 ++ text, c)

/-- An exclamation mark, a name and possibly another exclamation mark. -/
def takeHandle (c : Cursor) : List Char × Cursor :=
  let (name, c) := c.advance.takeWhile isWordChar
  if c.sees '!' then ('!' :: name ++ ['!'], c.advance) else ('!' :: name, c)

/-- The handle and the suffix of a tag at `!`. -/
def takeTagParts (c : Cursor) : Option (List Char × List Char × Cursor) :=
  if c.rest[1]? = some '<' then do
    let (suffix, c) ← takeTagText isVerbatimChar [] (c.advanceBy 2)
    if c.sees '>' then return ([], suffix, c.advance) else none
  else
    let (handle, c) := takeHandle c
    if 2 ≤ handle.length ∧ handle.getLast? = some '!' then do
      let (suffix, c) ← takeTagText isTagChar [] c
      return (handle, suffix, c)
    else do
      let (suffix, c) ← takeTagText isTagChar handle c
      if suffix.isEmpty then return ([], ['!'], c) else return (['!'], suffix, c)

/-- A tag, which ends at a gap, or at a comma in a flow collection. -/
def takeTag (flow : Bool) (c : Cursor) : Option (List Char × List Char × Cursor) := do
  let (handle, suffix, c) ← takeTagParts c
  if c.gapAt 0 ∨ flow ∧ c.sees ',' then return (handle, suffix, c) else none

/-! ## Directives -/

/-- A number of at most nine digits. -/
def takeVersionNumber (c : Cursor) : Option (Nat × Cursor) :=
  let (digits, c) := c.takeWhile Char.isDigit
  if digits.isEmpty ∨ 9 < digits.length then none
  else some (digits.foldl (fun n d => n * 10 + (d.toNat - '0'.toNat)) 0, c)

def takeVersion (c : Cursor) : Option (Directive × Cursor) := do
  let (major, c) ← takeVersionNumber c.skipBlanks
  if c.sees '.' then
    let (minor, c) ← takeVersionNumber c.advance
    return (.version major minor, c)
  else none

def takeTagDirective (c : Cursor) : Option (Directive × Cursor) := do
  let c := c.skipBlanks
  if !c.sees '!' then none
  else
    let (handle, c) := takeHandle c
    if handle ≠ ['!'] ∧ handle.getLast? ≠ some '!' then none
    else if !c.atBlank then none
    else
      let (start, c) ← takeTagText isVerbatimChar [] c.skipBlanks
      if c.gapAt 0 then return (.tag handle start, c) else none

/-- A directive at `%`, with the rest of its line. -/
def takeDirective (c : Cursor) : Option (Directive × Cursor) := do
  let (name, c) := c.advance.takeWhile isWordChar
  if name.isEmpty ∨ !c.gapAt 0 then none
  else
    let (directive, c) ←
      if name = "YAML".toList then takeVersion c
      else if name = "TAG".toList then takeTagDirective c
      else none
    return (directive, ← c.endLine?)

end LayoutShell.Yaml
