import LayoutShell.Files.Access

/-!
# Discovery of layout files

Layouts are the files with extension `xml`, at any depth, below the directories of a resource
directory whose names begin with `layout`.

* `layoutDirectories` lists those directories in the order of their names.
* `layoutsBelow` walks one directory by name; links met on the way are not followed.
* `findLayouts` lists all layouts of a resource directory.
-/

namespace LayoutShell.Layout

open Files

/-- A walk met a directory that it cannot read. -/
structure WalkError where
  path : String
  cause : FileError
  deriving DecidableEq

def WalkError.message (e : WalkError) : String :=
  "IO error for operation on " ++ e.path ++ ": " ++ e.cause.message

/-- Why layouts cannot be listed. -/
inductive DiscoveryError
  /-- The resource directory `path` cannot be listed. -/
  | resources (path : String) (cause : FileError)
  /-- A layout directory cannot be walked. -/
  | walk (e : WalkError)
  deriving DecidableEq

def DiscoveryError.message : DiscoveryError → String
  | resources path cause => "Failed to read resource directory " ++ path ++ ": " ++ cause.message
  | walk e => "Failed to walk layout directory: " ++ e.message

/-- The names of layout directories begin with this word. -/
def isLayoutName (name : String) : Bool := "layout".toList.isPrefixOf name.toList

/-- The layout directories of a resource directory, by name. A link to a directory counts. -/
def layoutDirectories (t : FileTree) (resources : String) :
    Except DiscoveryError (List String) := do
  let names ← (t.list resources).mapError (.resources resources)
  return (names.filter fun name =>
    isLayoutName name && t.isDirectoryAt (Path.join resources name)).map (Path.join resources)

/-- All names but the last lead through directories, not links. -/
def isReachable (t : FileTree) (here : Location) : List String → Bool
  | [] | [_] => true
  | name :: rest =>
    t.entries.get? (here ++ [name]) = some .directory && isReachable t (here ++ [name]) rest

/-- The entries below a location with the names that lead to them, in the order of a walk by
name. -/
def entriesUnder (t : FileTree) (top : Location) : List (List String × Entry) :=
  t.entries.entries.filterMap fun (l, e) =>
    let names := l.drop top.length
    if top.isPrefixOf l ∧ isReachable t top names then some (names, e) else none

/-- The names lead to a layout file. -/
def isLayoutFile (names : List String) : Entry → Bool
  | .file _ => Path.extension? (names.getLastD "") == some "xml"
  | _ => false

/-- The layout files below a location, in the order of a walk by name. -/
def layoutsUnder (t : FileTree) (top : Location) : List (List String) :=
  ((entriesUnder t top).filter fun (names, e) => isLayoutFile names e).map (·.1)

/-- The path of the first directory below a location that a walk from `path` cannot read, since
its path is too long. -/
def unreadable? (t : FileTree) (path : String) (top : Location) : Option String :=
  (((entriesUnder t top).filter (·.2 = .directory)).map fun (names, _) =>
    Path.joinAll path names).find? (maxPath < ·.utf8ByteSize)

/-- The layout files below the directory `path`, or `path` itself if it is one. -/
def layoutsBelow (t : FileTree) (path : String) : Except WalkError (List String) := do
  let l ← (t.locateEntry path).mapError (.mk path)
  match t.entry? l with
  | some (.file _) =>
    return if Path.extension? (Path.fileName path) = some "xml" then [path] else []
  | _ =>
    let top ← (t.locate path).mapError (.mk path)
    if !t.isDirectory top then return []
    else
      match unreadable? t path top with
      | some directory => .error ⟨directory, .nameTooLong⟩
      | none => return (layoutsUnder t top).map (Path.joinAll path)

/-- The layout files of a resource directory. -/
def findLayouts (t : FileTree) (resources : String) : Except DiscoveryError (List String) := do
  let found ← (← layoutDirectories t resources).mapM fun directory =>
    (layoutsBelow t directory).mapError .walk
  return found.flatten

end LayoutShell.Layout
