import LayoutShell.Files.Path
import LayoutShell.Files.Tree
import LayoutShell.Text.Utf8

/-!
# Access by path

Paths are resolved step by step from the working directory or the system root, following symbolic
links.

* `FileTree.locate` finds what a path designates, and `FileTree.locateEntry` does so without
  following a link at its end.
* `FileTree.read` and `FileTree.readText` read files, `FileTree.list` a directory.
* `FileTree.destination` finds where a file of a given path would be created, and `FileTree.write`
  creates it or replaces its content.
-/

namespace LayoutShell.Files

/-- Why a file operation fails. -/
inductive FileError
  | notFound
  | notDirectory
  | isDirectory
  | nameTooLong
  | tooManyLinks
  /-- The path holds a NUL character. -/
  | nulInPath
  /-- The file is not UTF-8. -/
  | notText
  deriving DecidableEq

def FileError.message : FileError → String
  | notFound => "No such file or directory (os error 2)"
  | notDirectory => "Not a directory (os error 20)"
  | isDirectory => "Is a directory (os error 21)"
  | nameTooLong => "File name too long (os error 36)"
  | tooManyLinks => "Too many levels of symbolic links (os error 40)"
  | nulInPath => "file name contained an unexpected NUL byte"
  | notText => "stream did not contain valid UTF-8"

/-- The longest name in bytes. -/
def maxName : Nat := 255

/-- The longest path in bytes. -/
def maxPath : Nat := 4095

/-- The number of links followed for one path. -/
def maxLinks : Nat := 40

namespace FileTree

/-- The parent of a location. The working directory stands in the system root, which is its own
parent. -/
def parentOf (l : Location) : Location :=
  if l = [] ∨ l = systemRoot then systemRoot else l.dropLast

/-- The location at which a path starts, as seen from the directory `here`. -/
def startOf (here : Location) (path : String) : Location :=
  if Path.isAbsolute path then systemRoot else here

/-- The steps of a path; a slash at its end asks for a directory. -/
def stepsOf (path : String) : List String :=
  if Path.endsInSlash path then Path.steps path ++ ["."] else Path.steps path

/-- The location reached from `here` by `steps`, following at most `links` links. -/
def follow (t : FileTree) (links : Nat) (here : Location) (steps : List String) :
    Except FileError Location :=
  match steps with
  | [] => .ok here
  | name :: rest =>
    if !t.isDirectory here then .error .notDirectory
    else if name = "." then t.follow links here rest
    else if name = ".." then t.follow links (parentOf here) rest
    else if maxName < name.utf8ByteSize then .error .nameTooLong
    else
      match t.entry? (here ++ [name]) with
      | none => .error .notFound
      | some (.link target) =>
        match links with
        | 0 => .error .tooManyLinks
        | links + 1 => t.follow links (startOf here target) (stepsOf target ++ rest)
      | some _ => t.follow links (here ++ [name]) rest
termination_by (links, steps.length)

/-- The paths that no file operation accepts. -/
def checkPath (path : String) : Except FileError Unit :=
  if '\x00' ∈ path.toList then .error .nulInPath
  else if path.isEmpty then .error .notFound
  else if maxPath < path.utf8ByteSize then .error .nameTooLong
  else .ok ()

/-- The location that a path designates. -/
def locate (t : FileTree) (path : String) : Except FileError Location := do
  checkPath path
  t.follow maxLinks (startOf [] path) (stepsOf path)

/-- The entry that a path designates. -/
def entryAt (t : FileTree) (path : String) : Except FileError Entry := do
  match t.entry? (← t.locate path) with
  | some e => .ok e
  | none => .error .notFound

/-- The location of the entry that a path names, which may be a link. -/
def locateEntry (t : FileTree) (path : String) : Except FileError Location := do
  checkPath path
  let steps := stepsOf path
  match steps.getLast? with
  | none => .ok (startOf [] path)
  | some name =>
    let here ← t.follow maxLinks (startOf [] path) steps.dropLast
    if name = "." ∨ name = ".." then t.follow maxLinks here [name]
    else if !t.isDirectory here then .error .notDirectory
    else if maxName < name.utf8ByteSize then .error .nameTooLong
    else if (t.entry? (here ++ [name])).isSome then .ok (here ++ [name])
    else .error .notFound

/-- Whether a path designates a directory. -/
def isDirectoryAt (t : FileTree) (path : String) : Bool :=
  match t.entryAt path with
  | .ok .directory => true
  | _ => false

/-- Whether a path designates anything. -/
def existsAt (t : FileTree) (path : String) : Bool :=
  match t.locate path with
  | .ok _ => true
  | .error _ => false

/-! ## Reading -/

/-- The bytes of a file. -/
def read (t : FileTree) (path : String) : Except FileError (List UInt8) := do
  match ← t.entryAt path with
  | .file content => .ok content
  | _ => .error .isDirectory

/-- The text of a file. -/
def readText (t : FileTree) (path : String) : Except FileError (List Char) := do
  match Text.decode (← t.read path) with
  | some text => .ok text
  | none => .error .notText

/-- The names in a directory. -/
def list (t : FileTree) (path : String) : Except FileError (List String) := do
  let l ← t.locate path
  if t.isDirectory l then .ok (t.children l) else .error .notDirectory

/-! ## Writing -/

/-- The location at which a file is created by `steps` from `here`, following at most `links` links.
A link at the end is followed, even if nothing stands there yet; `slash` says that a slash follows
the last step. -/
def target (t : FileTree) (links : Nat) (here : Location) (slash : Bool) (steps : List String) :
    Except FileError Location :=
  match steps with
  | [] => .error .isDirectory
  | name :: rest =>
    if !t.isDirectory here then .error .notDirectory
    else if rest.isEmpty ∧ (slash ∨ name = "." ∨ name = "..") then .error .isDirectory
    else if name = "." then t.target links here slash rest
    else if name = ".." then t.target links (parentOf here) slash rest
    else if maxName < name.utf8ByteSize then .error .nameTooLong
    else
      match t.entry? (here ++ [name]) with
      | some (.link next) =>
        match links with
        | 0 => .error .tooManyLinks
        | links + 1 =>
          let slash := if rest.isEmpty then Path.endsInSlash next else slash
          t.target links (startOf here next) slash (Path.steps next ++ rest)
      | found =>
        if !rest.isEmpty then
          if found.isNone then .error .notFound else t.target links (here ++ [name]) slash rest
        else if found = some .directory then .error .isDirectory
        else .ok (here ++ [name])
termination_by (links, steps.length)

/-- The location at which a path creates a file. -/
def destination (t : FileTree) (path : String) : Except FileError Location := do
  checkPath path
  t.target maxLinks (startOf [] path) (Path.endsInSlash path) (Path.steps path)

/-- Creates a file, or replaces the content of one. -/
def write (t : FileTree) (path : String) (content : List UInt8) : Except FileError FileTree := do
  return t.put (← t.destination path) (.file content)

/-! ## Directories -/

/-- Makes the directories that `steps` lead through from `here`, as far as they do not exist. -/
def makeDirectories (t : FileTree) (here : Location) :
    List String → Except FileError (FileTree × Location)
  | [] => .ok (t, here)
  | name :: rest =>
    match t.follow maxLinks here [name] with
    | .ok next =>
      if t.isDirectory next then t.makeDirectories next rest else .error .notDirectory
    | .error .notFound =>
      (t.put (here ++ [name]) .directory).makeDirectories (here ++ [name]) rest
    | .error e => .error e

/-- Puts an entry at a path, making the directories above it; a file goes where a link at the end
of the path leads. -/
def install (t : FileTree) (path : String) (e : Entry) : Except FileError FileTree := do
  let steps := Path.steps path
  match e with
  | .directory => return (← t.makeDirectories (startOf [] path) steps).1
  | .link _ =>
    let (t, parent) ← t.makeDirectories (startOf [] path) steps.dropLast
    return t.put (parent ++ [Path.fileName path]) e
  | .file content =>
    let (t, _) ← t.makeDirectories (startOf [] path) steps.dropLast
    t.write path content

end FileTree

end LayoutShell.Files
