/-!
# Patterns

A pattern matches texts: `*` any text, `?` any character, and brackets one of several characters.
Quoted characters stand for themselves.

* `Pattern.ofMarked` reads a pattern from characters that are marked as active or quoted.
* `Pattern.accepts` decides whether a text matches.
* `Pattern.trim` cuts a matching part from the start or the end of a text, and `Pattern.trimAll`
  from several texts.
-/

namespace LayoutShell.Host

/-- A choice of characters inside brackets. -/
inductive Choice
  /-- The characters between two bounds. -/
  | range (least greatest : Char)
  /-- The characters of a named class. -/
  | named (name : String)
  deriving DecidableEq

namespace Choice

def isGraphic (c : Char) : Bool := '!' ≤ c && c ≤ '~'

/-- The class with a name. -/
def class? (name : String) : Option (Char → Bool) :=
  match name with
  | "alpha" => some Char.isAlpha
  | "digit" => some Char.isDigit
  | "alnum" => some Char.isAlphanum
  | "upper" => some Char.isUpper
  | "lower" => some Char.isLower
  | "space" => some fun c => " \t\n\x0b\x0c\r".toList.contains c
  | "blank" => some fun c => c == ' ' || c == '\t'
  | "punct" => some fun c => isGraphic c && !c.isAlphanum
  | "print" => some fun c => c == ' ' || isGraphic c
  | "graph" => some isGraphic
  | "cntrl" => some fun c => c.toNat < 32 || c.toNat == 127
  | "xdigit" => some fun c => c.isDigit || "abcdefABCDEF".toList.contains c
  | _ => none

def accepts (c : Char) : Choice → Bool
  | range least greatest => least ≤ c && c ≤ greatest
  | named name => (class? name).any (· c)

end Choice

/-- A part of a pattern. -/
inductive PatternItem
  | char (c : Char)
  | anyChar
  | anyText
  | choice (negated : Bool) (choices : List Choice)
  deriving DecidableEq

abbrev Pattern := List PatternItem

namespace Pattern

/-- A character and whether it may have a special meaning. -/
abbrev Marked := Char × Bool

/-- The name of a class after its opening bracket, and the rest. -/
def takeClass? (s : List Marked) : Option (String × List Marked) :=
  match s with
  | (':', true) :: rest =>
    let name := (rest.takeWhile fun m => m.1.isAlpha).map (·.1)
    match rest.drop name.length with
    | (':', true) :: (']', true) :: rest =>
      let name := String.ofList name
      if (Choice.class? name).isSome then some (name, rest) else none
    | _ => none
  | _ => none

/-- The choices up to the closing bracket, and the rest; `first` says that a closing bracket here
stands for itself. -/
def takeChoices : Nat → Bool → List Marked → Option (List Choice × List Marked)
  | 0, _, _ => none
  | _, _, [] => none
  | fuel + 1, first, (c, active) :: rest =>
    if c = ']' ∧ active ∧ !first then some ([], rest)
    else
      match (if c = '[' ∧ active then takeClass? rest else none) with
      | some (name, rest) =>
        (takeChoices fuel false rest).map fun (choices, rest) => (.named name :: choices, rest)
      | none =>
        match rest with
        | ('-', true) :: (d, activeEnd) :: rest' =>
          if d = ']' ∧ activeEnd then
            (takeChoices fuel false rest).map fun (choices, rest) => (.range c c :: choices, rest)
          else
            (takeChoices fuel false rest').map fun (choices, rest) => (.range c d :: choices, rest)
        | _ =>
          (takeChoices fuel false rest).map fun (choices, rest) => (.range c c :: choices, rest)

/-- The choice after an opening bracket, and the rest. -/
def takeChoice? (s : List Marked) : Option (PatternItem × List Marked) :=
  let (negated, s) := match s with
    | ('!', true) :: rest => (true, rest)
    | s => (false, s)
  (takeChoices (s.length + 1) true s).map fun (choices, rest) => (.choice negated choices, rest)

/-- Reads a pattern. -/
def readFrom : Nat → List Marked → Pattern
  | 0, _ => []
  | _, [] => []
  | fuel + 1, (c, active) :: rest =>
    if !active then .char c :: readFrom fuel rest
    else if c = '*' then .anyText :: readFrom fuel rest
    else if c = '?' then .anyChar :: readFrom fuel rest
    else if c = '[' then
      match takeChoice? rest with
      | some (item, rest) => item :: readFrom fuel rest
      | none => .char c :: readFrom fuel rest
    else .char c :: readFrom fuel rest

/-- The pattern of marked characters. -/
def ofMarked (s : List Marked) : Pattern := readFrom (s.length + 1) s

/-- The pattern of characters that may all have a special meaning; a backslash quotes the next
one. -/
def marked : List Char → List Marked
  | '\\' :: c :: rest => (c, false) :: marked rest
  | c :: rest => (c, true) :: marked rest
  | [] => []

def ofText (s : List Char) : Pattern := ofMarked (marked s)

/-- The item accepts a single character. -/
def acceptsChar (c : Char) : PatternItem → Bool
  | .char d => c == d
  | .anyChar => true
  | .anyText => false
  | .choice negated choices => (choices.any (Choice.accepts c)) != negated

/-- A text matches a pattern. -/
def accepts (p : Pattern) (s : List Char) : Bool :=
  match p, s with
  | [], s => s.isEmpty
  | .anyText :: rest, [] => accepts rest []
  | .anyText :: rest, c :: s => accepts rest (c :: s) || accepts (.anyText :: rest) s
  | _ :: _, [] => false
  | item :: rest, c :: s => acceptsChar c item && accepts rest s
termination_by (p.length, s.length)

/-- The pattern has an active mark. -/
def isActive (p : Pattern) : Bool :=
  p.any fun
    | .char _ => false
    | _ => true

/-- The text without its shortest or longest part that matches, at its start or its end. -/
def trim (p : Pattern) (atEnd longest : Bool) (s : List Char) : List Char :=
  let sizes := List.range (s.length + 1)
  let sizes := if longest then sizes.reverse else sizes
  let cut := fun n => if atEnd then s.drop (s.length - n) else s.take n
  match sizes.find? fun n => p.accepts (cut n) with
  | some n => if atEnd then s.take (s.length - n) else s.drop n
  | none => s

/-- Trims texts that stand one after another. A part matches if it does so up to the end of the
first text it touches, and what follows goes with it. -/
def trimAll (p : Pattern) (atEnd longest : Bool) (texts : List (List Char)) : List (List Char) :=
  let inText := fun c => c != '\x00'
  let s := ['\x00'].intercalate texts
  let places := if atEnd = longest then List.range ((s.takeWhile inText).length + 1)
    else (List.range (s.length + 1)).reverse
  let cut := fun n => (if atEnd then s.drop n else s.take n).takeWhile inText
  match places.find? fun n => p.accepts (cut n) with
  | some n => (if atEnd then s.take n else s.drop n).splitOn '\x00'
  | none => texts

end Pattern

end LayoutShell.Host
