import LayoutShell.Dict

/-!
# File trees

A file tree maps locations to entries. A location is the list of names that lead to it from the
working directory; the list `["/"]` is the root of the system, above which nothing else is known.
Locations are compared name by name, so the entries below a directory come in the order in which
a walk by name visits them.

* `FileTree.entry?` looks up a location, and `FileTree.children` lists a directory.
* `FileTree.put`, `FileTree.remove` and `FileTree.allowRunning` edit the tree.
-/

namespace LayoutShell.Files

/-- The names that lead to an entry. -/
abbrev Location := List String

instance : LE Location := List.instLE

instance : Std.IsLinearOrder Location := inferInstance

instance : Std.LawfulOrderLT Location := inferInstance

/-- What stands at a location. -/
inductive Entry
  | file (content : List UInt8)
  | directory
  /-- A symbolic link to the path `target`. -/
  | link (target : String)
  deriving DecidableEq

/-- The entries below the working directory and the system root. -/
structure FileTree where
  entries : Dict Location Entry
  /-- The files that may be run as programs. -/
  programs : List Location := []
  deriving DecidableEq

namespace FileTree

/-- Two directories and nothing in them. -/
def empty : FileTree := { entries := ∅ }

instance : Inhabited FileTree := ⟨empty⟩

/-- The root of the system. -/
def systemRoot : Location := ["/"]

def entry? (t : FileTree) (l : Location) : Option Entry :=
  if l = [] ∨ l = systemRoot then some .directory else t.entries.get? l

def isDirectory (t : FileTree) (l : Location) : Bool := t.entry? l = some .directory

/-- The name of `l` in the directory `parent`, if it stands directly in it. -/
def childName? (parent l : Location) : Option String :=
  if l.dropLast = parent then l.getLast? else none

/-- The names in a directory, in increasing order. -/
def children (t : FileTree) (l : Location) : List String :=
  t.entries.keys.filterMap (childName? l)

def put (t : FileTree) (l : Location) (e : Entry) : FileTree :=
  { t with entries := t.entries.insert l e }

/-- Removes a location and all below it. -/
def remove (t : FileTree) (l : Location) : FileTree where
  entries := t.entries.filter fun l' _ => !l.isPrefixOf l'
  programs := t.programs.filter fun l' => !l.isPrefixOf l'

/-- Lets a file be run as a program, or no longer. -/
def allowRunning (t : FileTree) (l : Location) (allowed : Bool) : FileTree :=
  let others := t.programs.filter (· ≠ l)
  { t with programs := if allowed then l :: others else others }

end FileTree

end LayoutShell.Files
