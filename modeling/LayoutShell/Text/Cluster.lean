import LayoutShell.Text.Joining

/-!
# Clusters of characters

A cluster is what a reader takes for one character: a letter with its marks, a flag, a family of
joined pictographs, a syllable.

* `clusters` cuts a text into clusters.
* `eraseBackspaces` lets each backspace take away the cluster before it.
-/

namespace LayoutShell.Text

/-- How far a conjunct of consonants has come. -/
inductive Conjunct
  | absent
  /-- A consonant and marks that extend it. -/
  | begun
  /-- With a linker among the marks. -/
  | linked
  deriving DecidableEq

/-- What a text ends with, as far as it decides whether the next character joins. -/
structure Ending where
  last : Joining
  /-- A pictograph with marks that extend it, and then possibly a joiner. -/
  pictograph : Bool
  /-- The flag halves at the end are odd in number. -/
  halfFlag : Bool
  conjunct : Conjunct
  deriving DecidableEq

namespace Ending

/-- The conjunct after one more character. -/
def nextConjunct (c : Conjunct) : Joining → Conjunct
  | .consonant => .begun
  | .linker => if c = .absent then .absent else .linked
  | .extend | .joiner => c
  | _ => .absent

/-- The ending after one more character. -/
def next (e : Ending) (j : Joining) : Ending where
  last := j
  pictograph := match j with
    | .pictograph => true
    | .extend | .linker | .nonJoiner => e.pictograph && e.last != .joiner
    | .joiner => e.pictograph && e.last != .joiner
    | _ => false
  halfFlag := j == .regional && !e.halfFlag
  conjunct := nextConjunct e.conjunct j

/-- The ending of a text of one character. -/
def start (j : Joining) : Ending := next ⟨.control, false, false, .absent⟩ j

end Ending

/-- Parts of one Hangul syllable. -/
def Jamo.joins : Jamo → Jamo → Bool
  | .leading, b => b != .trailing
  | .openSyllable, b | .vowel, b => b == .vowel || b == .trailing
  | .closedSyllable, b | .trailing, b => b == .trailing

def isBreaking (j : Joining) : Bool := j == .carriageReturn || j == .lineFeed || j == .control

/-- The next character belongs to the same cluster. -/
def Ending.joins (e : Ending) (j : Joining) : Bool :=
  if e.last = .carriageReturn ∧ j = .lineFeed then true
  else if isBreaking e.last || isBreaking j then false
  else
    match e.last, j with
    | .hangul a, .hangul b => a.joins b
    | _, .extend | _, .linker | _, .joiner | _, .nonJoiner | _, .spacing => true
    | .prepend, _ => true
    | .joiner, .pictograph => e.pictograph
    | .regional, .regional => e.halfFlag
    | _, .consonant => e.conjunct == .linked
    | _, _ => false

/-- Cuts a text after a first character; the cluster that is open is collected backwards. -/
def clustersFrom (e : Ending) (current : List Char) : List Char → List (List Char)
  | [] => [current.reverse]
  | c :: rest =>
    let j := Joining.ofChar c
    if e.joins j then clustersFrom (e.next j) (c :: current) rest
    else current.reverse :: clustersFrom (e.next j) [c] rest

/-- The clusters of a text. -/
def clusters : List Char → List (List Char)
  | [] => []
  | c :: rest => clustersFrom (Ending.start (Joining.ofChar c)) [c] rest

/-! ## Backspaces -/

/-- Takes `n` bytes from the end of a text that is given backwards; there is no text left if that
would split a character. -/
def dropBytes : Nat → List Char → Option (List Char)
  | 0, s => some s
  | _ + 1, [] => some []
  | n + 1, c :: rest =>
    if c.utf8Size ≤ n + 1 then dropBytes (n + 1 - c.utf8Size) rest else none

/-- A text being typed: its characters backwards, and the sizes of the clusters that a backspace can
take away, the last one first. -/
structure Typing where
  text : List Char
  sizes : List Nat

namespace Typing

/-- Types a cluster. Sizes are kept in a byte, so the size of a large cluster wraps around. -/
def type (t : Typing) (cluster : List Char) : Typing :=
  ⟨cluster.reverse ++ t.text, (cluster.map Char.utf8Size).foldl (· + ·) 0 % 256 :: t.sizes⟩

/-- Takes away the last cluster, if there is one. -/
def erase (t : Typing) : Option Typing :=
  match t.sizes with
  | [] => some t
  | n :: sizes => (dropBytes n t.text).map (⟨·, sizes⟩)

/-- Types a cluster, or takes one away if it is a backspace. -/
def press (t : Typing) (cluster : List Char) : Option Typing :=
  if cluster = ['\x08'] then t.erase else some (t.type cluster)

end Typing

/-- Each backspace takes away the cluster before it, if there is one. The clusters are those of the
text as it was typed. There is no text left if a character would be split. -/
def eraseBackspaces (s : List Char) : Option (List Char) :=
  ((clusters s).foldlM Typing.press ⟨[], []⟩).map (·.text.reverse)

end LayoutShell.Text
