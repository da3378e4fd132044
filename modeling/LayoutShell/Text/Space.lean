/-!
# White space

Text is cut at Unicode white space everywhere except inside markup, where only the four space
characters of markup count.

* `isSpace` is the Unicode property `White_Space`, and `isMarkupSpace` the four characters.
* `trim`, `trimLeft` and `trimRight` remove white space from the ends of a text.
* `words` cuts a text at every run of white space.
* `splitFirst` cuts a text at its first white space character.
-/

namespace LayoutShell.Text

/-- The characters with the Unicode property `White_Space`. -/
def isSpace (c : Char) : Bool :=
  let n := c.toNat
  (9 ≤ n && n ≤ 13) || n == 0x20 || n == 0x85 || n == 0xA0 || n == 0x1680 ||
    (0x2000 ≤ n && n ≤ 0x200A) || n == 0x2028 || n == 0x2029 || n == 0x202F ||
    n == 0x205F || n == 0x3000

/-- The space characters of markup. -/
def isMarkupSpace (c : Char) : Bool :=
  c == ' ' || c == '\t' || c == '\r' || c == '\n'

/-- Drops the longest tail whose characters all satisfy `p`. -/
def dropRightWhile (p : Char → Bool) (s : List Char) : List Char :=
  (s.reverse.dropWhile p).reverse

def trimLeft (s : List Char) : List Char := s.dropWhile isSpace

def trimRight (s : List Char) : List Char := dropRightWhile isSpace s

def trim (s : List Char) : List Char := trimRight (trimLeft s)

/-- Nothing but white space. -/
def isBlank (s : List Char) : Bool := s.all isSpace

/-- Puts a word before other words, unless it is empty. -/
def pushWord (word : List Char) (rest : List (List Char)) : List (List Char) :=
  if word.isEmpty then rest else word :: rest

/-- The word that a text begins with, possibly empty, and the words after it. -/
def cutWords : List Char → List Char × List (List Char)
  | [] => ([], [])
  | c :: rest =>
    let (word, others) := cutWords rest
    if isSpace c then ([], pushWord word others) else (c :: word, others)

/-- The words of a text: what stands between its runs of white space. -/
def words (s : List Char) : List (List Char) :=
  let (word, others) := cutWords s
  pushWord word others

/-- The text before the first character satisfying `p` and the text after it. -/
def splitFirst (p : Char → Bool) : List Char → Option (List Char × List Char)
  | [] => none
  | c :: rest =>
    if p c then some ([], rest)
    else (splitFirst p rest).map fun (before, after) => (c :: before, after)

end LayoutShell.Text
