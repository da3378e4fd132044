/-!
# Paths

A path is a text of names separated by slashes.

* `steps` are its names, empty ones left out.
* `join` appends a name, and `joinAll` several.
* `extension?` is what follows the last dot of a file name, if something precedes that dot.
-/

namespace LayoutShell.Files.Path

def isAbsolute (path : String) : Bool := path.toList.head? = some '/'

def endsInSlash (path : String) : Bool := path.toList.getLast? = some '/'

/-- The names of a path. -/
def steps (path : String) : List String :=
  ((path.toList.splitOn '/').filter (!·.isEmpty)).map String.ofList

/-- The path of `name` below `path`; an absolute `name` stands for itself. -/
def join (path name : String) : String :=
  if isAbsolute name then name
  else if path.isEmpty || endsInSlash path then path ++ name
  else path ++ "/" ++ name

/-- The path of the entry reached from `path` by `names`. -/
def joinAll (path : String) (names : List String) : String := names.foldl join path

/-- The name that a path ends in. -/
def fileName (path : String) : String := (steps path).getLastD ""

/-- What follows the last dot of a name, if something precedes that dot. -/
def extension? (name : String) : Option String :=
  let reversed := name.toList.reverse
  let extension := reversed.takeWhile (· ≠ '.')
  match reversed.dropWhile (· ≠ '.') with
  | _ :: _ :: _ => if name = ".." then none else some (String.ofList extension.reverse)
  | _ => none

end LayoutShell.Files.Path
