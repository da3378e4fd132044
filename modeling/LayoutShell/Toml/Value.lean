import LayoutShell.Toml.Text
import LayoutShell.Toml.Number
import LayoutShell.Toml.Moment

/-!
# Values of a TOML text

A table remembers how it came about, since that decides what may be added to it later.

* `Table.addEntry` adds what a line `key = value` says.
* `value` reads a value.
-/

namespace LayoutShell.Toml

/-- How a table came about. -/
inductive Origin
  /-- Written in braces: nothing can be added. -/
  | inline
  /-- By a header of its own. -/
  | header
  /-- As a step on the way of a header. -/
  | implied
  /-- As a step on the way of a dotted key. -/
  | dotted
  deriving DecidableEq

inductive Value
  | text (s : String)
  | integer (n : Int)
  | float (x : Float64)
  | boolean (b : Bool)
  | moment (m : Moment)
  | array (items : List Value)
  | table (origin : Origin) (entries : List (String × Value))
  /-- Tables with headers in double brackets. -/
  | tables (items : List (List (String × Value)))

/-- The entries of a table. -/
abbrev Table := List (String × Value)

namespace Table

/-- Replaces the value of a key, or adds the key. -/
def set (key : String) (v : Value) : Table → Table
  | [] => [(key, v)]
  | (k, w) :: rest => if k = key then (k, v) :: rest else (k, w) :: set key v rest

/-- A path may go through a table, unless it is closed or, for a dotted key, has a header. -/
def isOpen (byKey : Bool) : Origin → Bool
  | .inline => false
  | .header => !byKey
  | .implied | .dotted => true

/-- Changes the table at the end of a path, making those that are missing on the way. The path of
several tables under one name goes through the last of them. -/
def alter (byKey : Bool) (change : Origin → Table → Option Table) :
    List String → Origin → Table → Option Table
  | [], origin, t => change origin t
  | step :: path, _, t =>
    match t.lookup step with
    | none => do
      let origin := if byKey then .dotted else .implied
      return t.set step (.table origin (← alter byKey change path origin []))
    | some (.table origin inner) =>
      if isOpen byKey origin then do
        return t.set step (.table origin (← alter byKey change path origin inner))
      else none
    | some (.tables items) => do
      let last ← alter byKey change path .header (← items.getLast?)
      return t.set step (.tables (items.dropLast ++ [last]))
    | some _ => none

/-- Adds an entry to a table. Its key must be new, and a dotted key must end in a table made by
dotted keys. -/
def addEntry (key : Key) (v : Value) : Origin → Table → Option Table :=
  alter true (fun origin t =>
    if (origin == .dotted) == key.path.isEmpty ∨ (t.lookup key.name).isSome then none
    else some (t ++ [(key.name, v)])) key.path

/-- The table of several entries. -/
def ofEntries (entries : List (Key × Value)) : Option Table :=
  entries.foldlM (fun t (key, v) => addEntry key v .header t) []

end Table

/-! ## Reading -/

/-- Reads a word. -/
def keyword (name : List Char) (s : List Char) : Option (List Char) :=
  if name.isPrefixOf s then some (s.drop name.length) else none

/-- Reads a value that holds no others. -/
def scalar (s : List Char) : Option (Value × List Char) :=
  match s with
  | [] => none
  | c :: _ =>
    if c = '"' ∨ c = '\'' then (string s).map fun (text, rest) => (.text (String.ofList text), rest)
    else if c = 't' then (keyword "true".toList s).map fun rest => (.boolean true, rest)
    else if c = 'f' then (keyword "false".toList s).map fun rest => (.boolean false, rest)
    else
      ((moment s).map fun (m, rest) => (.moment m, rest)) <|>
      ((float s).map fun (x, rest) => (.float x, rest)) <|>
      ((integer s).map fun (n, rest) => (.integer n, rest))

mutual

/-- Reads a value inside `depth` brackets. -/
def value : Nat → Nat → List Char → Option (Value × List Char)
  | 0, _, _ => none
  | fuel + 1, depth, s =>
    match s with
    | '[' :: rest =>
      if nestingLimit ≤ depth + 1 then none
      else do
        let (items, rest) ← arrayItems fuel (depth + 1) rest
        return (.array items, rest)
    | '\x7b' :: rest =>
      if nestingLimit ≤ depth + 1 then none
      else do
        let (entries, rest) ← tableEntries fuel (depth + 1) true rest
        return (.table .inline (← Table.ofEntries entries), rest)
    | _ => scalar s

/-- Reads the items of an array and the closing bracket; a comma may stand after the last. -/
def arrayItems : Nat → Nat → List Char → Option (List Value × List Char)
  | 0, _, _ => none
  | fuel + 1, depth, s => do
    match ← gap (s.length + 1) s with
    | ']' :: rest => return ([], rest)
    | s =>
      let (item, s) ← value fuel depth s
      match ← gap (s.length + 1) s with
      | ']' :: rest => return ([item], rest)
      | ',' :: rest =>
        let (items, rest) ← arrayItems fuel depth rest
        return (item :: items, rest)
      | _ => none

/-- Reads the entries of a table in braces and the closing brace, all on one line. -/
def tableEntries : Nat → Nat → Bool → List Char → Option (List (Key × Value) × List Char)
  | 0, _, _, _ => none
  | fuel + 1, depth, first, s =>
    match skipSpace s with
    | '\x7d' :: rest => if first then some ([], rest) else none
    | s => do
      let (k, s) ← key s
      let (v, s) ← value fuel depth (skipSpace (← mark '=' s))
      match skipSpace s with
      | '\x7d' :: rest => return ([(k, v)], rest)
      | ',' :: rest =>
        let (entries, rest) ← tableEntries fuel depth false rest
        return ((k, v) :: entries, rest)
      | _ => none

end

end LayoutShell.Toml
