import LayoutShell.Host.Regex

/-!
# Commands that edit streams

A stream editor goes through lines and applies commands to each. A command has addresses that select
lines.

* `Sed.Command` is a command with its addresses, and `Sed.Action` what it does.
-/

namespace LayoutShell.Host.Sed

/-- A regular expression with its flags; none stands for the last one that was used. -/
structure Search where
  regex? : Option Regex
  ignoreCase : Bool := false
  manyLines : Bool := false

/-- What selects a line. -/
inductive Address
  | line (n : Nat)
  /-- Every line from `first` on in steps. -/
  | steps (first step : Nat)
  | last
  | matching (s : Search)

/-- The end of a range of lines. -/
inductive RangeEnd
  | upTo (a : Address)
  /-- This many lines after the first. -/
  | after (n : Nat)
  /-- The next line whose number is a multiple; none is next for zero. -/
  | multiple (n : Nat)

/-- The lines that a command applies to. -/
structure Selection where
  first? : Option Address := none
  range? : Option RangeEnd := none
  negated : Bool := false

/-- A change of the case of letters. -/
inductive CaseChange
  | upper
  | lower
  /-- Ends `upper` and `lower`. -/
  | plain
  | upperNext
  | lowerNext
  deriving DecidableEq

/-- A piece of a replacement. -/
inductive Piece
  | text (s : List Char)
  /-- What a group matches; the whole match for 0. -/
  | group (n : Nat)
  | case (c : CaseChange)

/-- A replacement of matches. -/
structure Substitution where
  search : Search
  replacement : List Piece
  everywhere : Bool := false
  /-- The first match that is replaced. -/
  number : Nat := 1
  prints : Bool := false
  file? : Option String := none

/-- What a command does. -/
inductive Action
  /-- Begins a block; `stop` is the command after it. -/
  | block (stop : Nat)
  | nothing
  | append (text : List Char)
  | insert (text : List Char)
  | change (text : List Char)
  | branch (label : String)
  /-- Branches if a substitution was made since the last line was read, or if none was. -/
  | branchIf (made : Bool) (label : String)
  | delete
  | deleteLine
  | get
  | getAppend
  | hold
  | holdAppend
  | exchange
  | list (width? : Option Nat)
  | next
  | nextAppend
  | print
  | printLine
  | quit (status : Nat) (silent : Bool)
  | readFile (path : String)
  | substitute (s : Substitution)
  | write (path : String) (onlyLine : Bool)
  | translate (pairs : List (Char × Char))
  | clear
  | lineNumber
  | fileName

structure Command where
  selection : Selection
  action : Action

/-- A script: its commands and the places of its labels. -/
structure Script where
  commands : Array Command := #[]
  labels : List (String × Nat) := []

end LayoutShell.Host.Sed
