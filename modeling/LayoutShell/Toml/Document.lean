import LayoutShell.Toml.Value

/-!
# TOML documents

A document is a list of statements, one on a line: headers and entries. Headers change the table to
which entries are added.

* `Statement.scan` reads the statements of a text.
* `Document.ofStatements` collects them in a table, and `Document.read` does both.
-/

namespace LayoutShell.Toml

inductive Statement
  /-- The header of a table. -/
  | table (key : Key)
  /-- The header of one more table of several under one name. -/
  | element (key : Key)
  | entry (key : Key) (value : Value)

namespace Statement

/-- Reads what stands on a line: a header, an entry, or nothing. -/
def read (s : List Char) : Option (Option Statement × List Char) :=
  match s with
  | [] => some (none, [])
  | '#' :: _ | '\n' :: _ | '\r' :: _ => some (none, s)
  | '[' :: '[' :: rest => do
    let (k, rest) ← key rest
    return (some (.element k), ← mark ']' (← mark ']' rest))
  | '[' :: rest => do
    let (k, rest) ← key rest
    return (some (.table k), ← mark ']' rest)
  | _ => do
    let (k, rest) ← key s
    let rest := skipSpace (← mark '=' rest)
    let (v, rest) ← value (2 * rest.length + 2) 0 rest
    return (some (.entry k v), rest)

/-- Reads all lines. -/
def scanLines : Nat → List Char → Option (List Statement)
  | 0, _ => none
  | fuel + 1, s =>
    match skipSpace s with
    | [] => some []
    | s => do
      let (statement?, rest) ← read s
      let statements ← scanLines fuel (← lineEnd rest)
      return statement?.toList ++ statements

/-- The statements of a text, which may begin with a byte order mark. -/
def scan (text : List Char) : Option (List Statement) :=
  match text with
  | '\uFEFF' :: rest => scanLines (rest.length + 1) rest
  | _ => scanLines (text.length + 1) text

end Statement

/-- A document while it is read: its table, and the path of the table that entries go to. -/
structure Document where
  root : Table
  path : List String

namespace Document

/-- Opens the table of a header; one that came about as a step of another header may be opened
once. -/
def openTable (key : Key) (d : Document) : Option Document := do
  let root ← Table.alter false (fun _ t =>
    match t.lookup key.name with
    | none => some (t.set key.name (.table .header []))
    | some (.table .implied inner) => some (t.set key.name (.table .header inner))
    | some _ => none) key.path .header d.root
  return ⟨root, key.path ++ [key.name]⟩

/-- Opens one more table of several under one name. -/
def openElement (key : Key) (d : Document) : Option Document := do
  let root ← Table.alter false (fun _ t =>
    match t.lookup key.name with
    | none => some (t.set key.name (.tables [[]]))
    | some (.tables items) => some (t.set key.name (.tables (items ++ [[]])))
    | some _ => none) key.path .header d.root
  return ⟨root, key.path ++ [key.name]⟩

/-- Adds an entry to the table that was opened last. -/
def addEntry (key : Key) (v : Value) (d : Document) : Option Document := do
  let root ← Table.alter false (fun _ t => Table.addEntry key v .header t) d.path .header d.root
  return { d with root := root }

def step (d : Document) : Statement → Option Document
  | .table key => d.openTable key
  | .element key => d.openElement key
  | .entry key v => d.addEntry key v

/-- The table that statements build. -/
def ofStatements (statements : List Statement) : Option Table := do
  return (← statements.foldlM step ⟨[], []⟩).root

/-- Reads a text. -/
def read (text : String) : Option Table := do ofStatements (← Statement.scan text.toList)

end Document

end LayoutShell.Toml
