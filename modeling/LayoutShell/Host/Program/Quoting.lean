import LayoutShell.Host.ByteString

/-!
# Names in messages

Messages show file names in quotes where a name could be misread.

* `nameInMessage` quotes a name if it must, and `quotedName` always.
-/

namespace LayoutShell.Host

/-- How a character of a name is shown. -/
inductive NameChar
  | plain
  /-- Needs quotes of either kind. -/
  | quotable
  /-- Needs single quotes. -/
  | active
  | quote
  | unprintable
  deriving DecidableEq

/-- The kind of a character; `first` says that the name begins with it. -/
def nameChar (first : Bool) (c : Char) : NameChar :=
  if c = '\'' then .quote
  else if c < ' ' ∨ '\x7f' ≤ c then .unprintable
  else if c = ' ' then .quotable
  else if c = '#' ∨ c = '~' then if first then .quotable else .plain
  else if "!\"$&()*;<=>?[\\^\x60|".toList.contains c then .active
  else .plain

/-- The escape for a character that cannot be printed. -/
def nameEscape (c : Char) : List Char :=
  match c with
  | '\x07' => "\\a".toList
  | '\x08' => "\\b".toList
  | '\t' => "\\t".toList
  | '\n' => "\\n".toList
  | '\x0b' => "\\v".toList
  | '\x0c' => "\\f".toList
  | '\r' => "\\r".toList
  | c =>
    let n := c.toNat
    let digit := fun k => Char.ofNat ('0'.toNat + n / k % 8)
    ['\\', digit 64, digit 8, digit 1]

/-- The characters of a name between single quotes; `escaping` says that escapes are being
written. -/
def quoteChars : Bool → List Char → List Char
  | _, [] => ['\'']
  | escaping, c :: rest =>
    if nameChar false c = .unprintable then
      (if escaping then [] else "'$'".toList) ++ nameEscape c ++ quoteChars true rest
    else
      (if escaping then "''".toList else []) ++
        (if c = '\'' then "'\\''".toList else [c]) ++ quoteChars false rest

/-- A name in quotes. -/
def quotedName (s : ByteString) : String :=
  let kinds := s.toList.zipIdx.map fun (c, i) => nameChar (i = 0) c
  let readable := kinds.all fun k => k = .plain ∨ k = .quotable ∨ k = .quote
  if kinds.contains .quote ∧ readable then "\"" ++ s ++ "\""
  else String.ofList ('\'' :: quoteChars false s.toList)

/-- A name, in quotes if it could be misread. -/
def nameInMessage (s : ByteString) : String :=
  let kinds := s.toList.zipIdx.map fun (c, i) => nameChar (i = 0) c
  if s.isEmpty ∨ kinds.any (· ≠ .plain) then quotedName s else s

end LayoutShell.Host
