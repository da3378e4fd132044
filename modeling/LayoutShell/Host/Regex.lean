import LayoutShell.Host.Pattern

/-!
# Regular expressions

A regular expression matches stretches of a text. Of all matches the leftmost is taken, and of those
the longest. Groups remember what they match.

* `Regex.ends` lists the places where a match can end, in order of preference.
* `Regex.find?` finds the first match from a place on.
-/

namespace LayoutShell.Host

/-- A place between characters that something holds of. -/
inductive Anchor
  | lineStart
  | lineEnd
  | textStart
  | textEnd
  | wordStart
  | wordEnd
  | wordEdge
  | noWordEdge
  deriving DecidableEq

inductive Regex
  | empty
  | any
  | char (c : Char)
  | choice (negated : Bool) (choices : List Choice)
  | anchor (a : Anchor)
  | group (number : Nat) (body : Regex)
  /-- What a group has matched, once more. -/
  | again (number : Nat)
  | sequence (first second : Regex)
  | either (first second : Regex)
  /-- The body at least a number of times, and at most another if it is given. -/
  | repeated (least : Nat) (most? : Option Nat) (body : Regex)
  deriving DecidableEq

namespace Regex

/-- What an expression is matched against. -/
structure Subject where
  text : Array Char
  ignoreCase : Bool := false
  /-- Lines begin after line feeds and end before them. -/
  manyLines : Bool := false

/-- A place in a text, with what the groups have matched. -/
structure Place where
  position : Nat
  groups : List (Nat × Nat × Nat) := []
  deriving DecidableEq

def isWordChar (c : Char) : Bool := c.isAlphanum || c == '_'

namespace Subject

def wordAt (s : Subject) (i : Nat) : Bool := (s.text[i]?).any isWordChar

def wordBefore (s : Subject) (i : Nat) : Bool := i ≠ 0 && s.wordAt (i - 1)

def holds (s : Subject) (i : Nat) : Anchor → Bool
  | .lineStart => i = 0 || (s.manyLines && s.text[i - 1]? = some '\n')
  | .lineEnd => i = s.text.size || (s.manyLines && s.text[i]? = some '\n')
  | .textStart => i = 0
  | .textEnd => i = s.text.size
  | .wordStart => !s.wordBefore i && s.wordAt i
  | .wordEnd => s.wordBefore i && !s.wordAt i
  | .wordEdge => s.wordBefore i != s.wordAt i
  | .noWordEdge => s.wordBefore i == s.wordAt i

def isSame (s : Subject) (a b : Char) : Bool :=
  a == b || (s.ignoreCase && a.toLower == b.toLower)

def isIn (s : Subject) (choices : List Choice) (c : Char) : Bool :=
  choices.any fun choice =>
    choice.accepts c || (s.ignoreCase && (choice.accepts c.toLower || choice.accepts c.toUpper))

/-- The text between two places stands also at a third. -/
def standsAt (s : Subject) (first last i : Nat) : Bool :=
  i + (last - first) ≤ s.text.size &&
    (List.range (last - first)).all fun k =>
      match s.text[first + k]?, s.text[i + k]? with
      | some a, some b => s.isSame a b
      | _, _ => false

end Subject

/-- Some part of an expression refers to a group. -/
def refers : Regex → Bool
  | again _ => true
  | group _ body | repeated _ _ body => body.refers
  | sequence a b | either a b => a.refers || b.refers
  | _ => false

/-- Drops places that were reached before; the groups matter only if they are referred to. -/
def distinct (exact : Bool) (places : List Place) : List Place :=
  (places.foldl (fun kept p =>
    if kept.any fun k => k.position = p.position && (!exact || k == p) then kept
    else p :: kept) []).reverse

/-- Places that are farther away come first. -/
def farthestFirst (places : List Place) : List Place :=
  places.mergeSort fun a b => decide (b.position ≤ a.position)

/-- The places that are reached by going a step again and again. -/
def iterate (exact : Bool) (step : Place → List Place) :
    Nat → List Place → List Place → List Place
  | 0, _, reached => reached
  | fuel + 1, places, reached =>
    let next := distinct exact (places.flatMap fun p =>
      (step p).filter fun q => p.position < q.position)
    let fresh := next.filter fun q =>
      !reached.any fun k => k.position = q.position && (!exact || k == q)
    if fresh.isEmpty then reached else iterate exact step fuel fresh (reached ++ fresh)

/-- The places that are reached by going a step a number of times. -/
def iterateTimes (exact : Bool) (step : Place → List Place) : Nat → List Place → List Place
  | 0, places => places
  | n + 1, places => iterateTimes exact step n (distinct exact (places.flatMap step))

/-- The places where a match that begins at a place can end. -/
def ends (exact : Bool) (s : Subject) : Regex → Place → List Place
  | empty, p => [p]
  | any, p => if p.position < s.text.size then [{ p with position := p.position + 1 }] else []
  | char c, p =>
    if (s.text[p.position]?).any (s.isSame c) then [{ p with position := p.position + 1 }] else []
  | choice negated choices, p =>
    if (s.text[p.position]?).any fun c => s.isIn choices c != negated then
      [{ p with position := p.position + 1 }]
    else []
  | anchor a, p => if s.holds p.position a then [p] else []
  | group n body, p =>
    (ends exact s body p).map fun q =>
      { q with groups := (n, p.position, q.position) :: q.groups.filter (·.1 ≠ n) }
  | again n, p =>
    match p.groups.lookup n with
    | some (first, last) =>
      if s.standsAt first last p.position then
        [{ p with position := p.position + (last - first) }]
      else []
    | none => []
  | sequence a b, p => distinct exact ((ends exact s a p).flatMap (ends exact s b))
  | either a b, p => distinct exact (farthestFirst (ends exact s a p ++ ends exact s b p))
  | repeated least most? body, p =>
    let step := ends exact s body
    let first := iterateTimes exact step least [p]
    let more := most?.elim (s.text.size + 1) (· - least)
    farthestFirst (iterate exact step more first first)

/-- The longest match at a position. -/
def matchAt? (r : Regex) (s : Subject) (i : Nat) : Option Place :=
  (ends r.refers s r { position := i }).foldl (fun best p =>
    match best with
    | some b => if b.position < p.position then some p else best
    | none => some p) none

/-- A match: where it begins and ends, and what the groups match. -/
structure Match where
  start : Nat
  stop : Nat
  groups : List (Nat × Nat × Nat)

/-- The first match that begins at one of some positions. -/
def findFrom (r : Regex) (s : Subject) : Nat → Nat → Option Match
  | 0, _ => none
  | fuel + 1, i =>
    match r.matchAt? s i with
    | some p => some ⟨i, p.position, p.groups⟩
    | none => findFrom r s fuel (i + 1)

/-- The first match that does not begin before a position. -/
def find? (r : Regex) (s : Subject) (i : Nat) : Option Match :=
  r.findFrom s (s.text.size + 1 - i) i

/-- The text that a group matches. -/
def Match.groupText (m : Match) (s : Subject) (n : Nat) : List Char :=
  let (first, last) := if n = 0 then (m.start, m.stop) else (m.groups.lookup n).getD (0, 0)
  (s.text.extract first last).toList

end Regex

end LayoutShell.Host
