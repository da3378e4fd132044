import LayoutShell.Files.Access

/-!
# Changes of a file tree

Directories are made and removed, links are made, and entries are moved and copied. Each change says
why it fails.

* `FileTree.makeDirectory`, `FileTree.makeLink`, `FileTree.removeFile` and
  `FileTree.removeDirectory` change one entry.
* `FileTree.moveEntry` moves an entry with all below it.
-/

namespace LayoutShell.Files

/-- Why a change fails. -/
inductive ChangeError
  | access (e : FileError)
  /-- Something stands there already. -/
  | present
  | notEmpty
  | notAllowed
  deriving DecidableEq

namespace FileTree

/-- The location at which the last name of a path would stand. -/
def entryPlace (t : FileTree) (path : String) : Except FileError Location := do
  checkPath path
  let steps := Path.steps path
  match steps.getLast? with
  | none => .ok (startOf [] path)
  | some name =>
    let parent ← t.follow maxLinks (startOf [] path) steps.dropLast
    if !t.isDirectory parent then .error .notDirectory
    else if name = "." ∨ name = ".." then t.follow maxLinks parent [name]
    else if maxName < name.utf8ByteSize then .error .nameTooLong
    else .ok (parent ++ [name])

/-- Where a new entry is made. -/
def freePlace (t : FileTree) (path : String) : Except ChangeError Location := do
  let l ← (t.entryPlace path).mapError .access
  if (t.entry? l).isSome then .error .present else .ok l

def makeDirectory (t : FileTree) (path : String) : Except ChangeError FileTree := do
  return t.put (← t.freePlace path) .directory

def makeLink (t : FileTree) (target path : String) : Except ChangeError FileTree := do
  let l ← t.freePlace path
  if Path.endsInSlash path then .error (.access .notFound) else .ok (t.put l (.link target))

/-- Removes an entry that is no directory. -/
def removeFile (t : FileTree) (path : String) : Except ChangeError FileTree := do
  let l ← (t.locateEntry path).mapError .access
  if t.isDirectory l then .error (.access .isDirectory) else .ok (t.remove l)

/-- Removes an empty directory. -/
def removeDirectory (t : FileTree) (path : String) : Except ChangeError FileTree := do
  let l ← (t.locateEntry path).mapError .access
  if (Path.steps path).getLast? = some "." then .error .notAllowed
  else if !t.isDirectory l then .error (.access .notDirectory)
  else if !(t.children l).isEmpty ∨ l = [] then .error .notEmpty
  else .ok (t.remove l)

/-- The entries at a location and below it, with the names that lead to them from there. -/
def entriesAt (t : FileTree) (l : Location) : List (Location × Entry) :=
  t.entries.entries.filterMap fun (l', e) =>
    if l.isPrefixOf l' then some (l'.drop l.length, e) else none

/-- Moves an entry with all below it, in place of what stands there. -/
def moveEntry (t : FileTree) (a b : Location) : FileTree :=
  let cleared := t.remove b
  let moved := cleared.entriesAt a
  let programs := cleared.programs.filterMap fun l =>
    if a.isPrefixOf l then some (b ++ l.drop a.length) else none
  let rest := cleared.remove a
  let t := moved.foldl (fun t (l, e) => t.put (b ++ l) e) rest
  { t with programs := programs ++ t.programs }

end FileTree

end LayoutShell.Files
