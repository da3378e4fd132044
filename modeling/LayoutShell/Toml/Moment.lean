/-!
# Dates and times of a TOML text

A moment has a date, a time or both, and an offset only with both. Its days exist in the calendar.

* `moment` reads a moment, and `Moment.render` writes one.
-/

namespace LayoutShell.Toml

structure Date where
  year : Nat
  month : Nat
  day : Nat
  deriving DecidableEq

structure Time where
  hour : Nat
  minute : Nat
  second : Nat
  nanosecond : Nat
  deriving DecidableEq

/-- The distance of a local time from universal time. -/
inductive Offset
  | universal
  | minutes (n : Int)
  deriving DecidableEq

structure Moment where
  date? : Option Date
  time? : Option Time
  offset? : Option Offset
  deriving DecidableEq

/-! ## Reading -/

/-- The number that exactly `count` decimal digits write. -/
def fixedDigits : Nat → Nat → List Char → Option (Nat × List Char)
  | value, 0, s => some (value, s)
  | value, count + 1, c :: rest =>
    if c.isDigit then fixedDigits (value * 10 + (c.toNat - '0'.toNat)) count rest else none
  | _, _ + 1, [] => none

/-- A number of two digits in a range. -/
def twoDigits (least greatest : Nat) (s : List Char) : Option (Nat × List Char) := do
  let (n, rest) ← fixedDigits 0 2 s
  if least ≤ n ∧ n ≤ greatest then return (n, rest) else none

/-- Reads one character. -/
def mark (c : Char) : List Char → Option (List Char)
  | [] => none
  | d :: rest => if d = c then some rest else none

def isLeapYear (year : Nat) : Bool := year % 4 == 0 && (year % 100 != 0 || year % 400 == 0)

def daysInMonth (year month : Nat) : Nat :=
  if month = 2 then if isLeapYear year then 29 else 28
  else if month = 4 ∨ month = 6 ∨ month = 9 ∨ month = 11 then 30
  else 31

def date (s : List Char) : Option (Date × List Char) := do
  let (year, s) ← fixedDigits 0 4 s
  let (month, s) ← twoDigits 1 12 (← mark '-' s)
  let (day, s) ← twoDigits 1 (daysInMonth year month) (← mark '-' s)
  return (⟨year, month, day⟩, s)

/-- Reads the parts of a second, of which the first nine digits count. -/
def secondFraction : List Char → Option (Nat × List Char)
  | '.' :: rest =>
    let ds := rest.takeWhile Char.isDigit
    if ds.isEmpty then none
    else do
      let kept := ds.take 9
      let (n, _) ← fixedDigits 0 kept.length kept
      return (n * Nat.pow 10 (9 - kept.length), rest.drop ds.length)
  | s => some (0, s)

def time (s : List Char) : Option (Time × List Char) := do
  let (hour, s) ← twoDigits 0 23 s
  let (minute, s) ← twoDigits 0 59 (← mark ':' s)
  let (second, s) ← twoDigits 0 60 (← mark ':' s)
  let (nanosecond, s) ← secondFraction s
  return (⟨hour, minute, second, nanosecond⟩, s)

def hoursAndMinutes (s : List Char) : Option (Nat × List Char) := do
  let (hours, s) ← twoDigits 0 23 s
  let (minutes, s) ← twoDigits 0 59 (← mark ':' s)
  return (hours * 60 + minutes, s)

/-- Reads an offset; `none` inside where there is none. -/
def offset : List Char → Option (Option Offset × List Char)
  | [] => some (none, [])
  | c :: rest =>
    if c = 'Z' ∨ c = 'z' then some (some .universal, rest)
    else if c = '+' then do
      let (n, rest) ← hoursAndMinutes rest
      return (some (.minutes n), rest)
    else if c = '-' then do
      let (n, rest) ← hoursAndMinutes rest
      return (some (.minutes (-n)), rest)
    else some (none, c :: rest)

/-- Reads what follows a date: a time with an offset, or nothing. -/
def afterDate (d : Date) (s : List Char) : Option (Moment × List Char) :=
  let divided := match s with
    | c :: rest => if c = 'T' ∨ c = 't' ∨ c = ' ' then time rest else none
    | [] => none
  match divided with
  | some (t, rest) => do
    let (o, rest) ← offset rest
    return (⟨some d, some t, o⟩, rest)
  | none => some (⟨some d, none, none⟩, s)

/-- Reads a moment. -/
def moment (s : List Char) : Option (Moment × List Char) :=
  match date s with
  | some (d, rest) => afterDate d rest
  | none => do
    let (t, rest) ← time s
    return (⟨none, some t, none⟩, rest)

/-! ## Writing -/

/-- A number with zeros before it, up to a width. -/
def padded (width n : Nat) : String :=
  let ds := Nat.toDigits 10 n
  String.ofList (List.replicate (width - ds.length) '0' ++ ds)

def Date.render (d : Date) : String :=
  padded 4 d.year ++ "-" ++ padded 2 d.month ++ "-" ++ padded 2 d.day

/-- The digits after a point, without zeros at the end. -/
def renderFraction (nanosecond : Nat) : String :=
  if nanosecond = 0 then ""
  else
    let ds := (padded 9 nanosecond).toList
    "." ++ String.ofList (ds.reverse.dropWhile (· == '0')).reverse

def Time.render (t : Time) : String :=
  padded 2 t.hour ++ ":" ++ padded 2 t.minute ++ ":" ++ padded 2 t.second ++
    renderFraction t.nanosecond

def Offset.render : Offset → String
  | .universal => "Z"
  | .minutes n =>
    (if n < 0 then "-" else "+") ++ padded 2 (n.natAbs / 60) ++ ":" ++ padded 2 (n.natAbs % 60)

/-- The text of a moment. -/
def Moment.render (m : Moment) : String :=
  let date := (m.date?.map Date.render).getD ""
  let divider := if m.date?.isSome ∧ m.time?.isSome then "T" else ""
  let time := (m.time?.map Time.render).getD ""
  date ++ divider ++ time ++ (m.offset?.map Offset.render).getD ""

end LayoutShell.Toml
