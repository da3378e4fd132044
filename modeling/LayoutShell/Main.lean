import LayoutShell.CommandLine.Run
import LayoutShell.Host.Run

/-!
# The program

The program works on a file tree in memory. It is filled with the settings and the history that a
session may read, and what a session changes in it is written to the disk at the end.
-/

open LayoutShell LayoutShell.Files LayoutShell.Session LayoutShell.CommandLine

/-- Adds a file of the disk to a tree, if there is such a file. -/
def addFile (t : FileTree) (path : String) : IO FileTree := do
  try
    let content ← IO.FS.readBinFile path
    return (t.install path (.file content.toList)).toOption.getD t
  catch _ => return t

/-- Writes an entry of a tree to the disk, unless it was there before. -/
def saveEntry (before : FileTree) (l : Location) (e : Entry) : IO Unit :=
  let path := "/".intercalate l
  if before.entry? l = some e then return ()
  else
    match e with
    | .file content => IO.FS.writeBinFile path ⟨content.toArray⟩
    | .directory => IO.FS.createDirAll path
    | .link _ => return ()

/-- Reads a line of bytes, with its line feed. -/
partial def readLine (stream : IO.FS.Stream) (line : List UInt8) : IO (List UInt8) := do
  match (← stream.read 1).toList with
  | [b] => if b = 0x0A then return (b :: line).reverse else readLine stream (b :: line)
  | _ => return line.reverse

/-- Prints what a session has to say. -/
def printAll (d : Dialogue) : IO Dialogue := do
  let out ← IO.getStdout
  out.write ⟨(Printed.bytes d.printed).toArray⟩
  out.flush
  return { d with printed := [] }

/-- Takes lines from the standard input until the session ends. -/
partial def converseWithUser (shell : Shell) (prompt : String) (d : Dialogue) :
    IO (Dialogue × Ending) := do
  let d ← printAll (d.say prompt)
  let line ← readLine (← IO.getStdin) []
  match d.step shell (if line.isEmpty then none else some line) with
  | (d, none) => converseWithUser shell prompt d
  | (d, some ending) => return (← printAll d, ending)

/-- Runs a session on the standard input. -/
def runWithUser (o : Options) : IO UInt32 := do
  let files := o.config?.elim (Settings.candidates ".") ([·])
  let tree ← files.foldlM addFile FileTree.empty
  match settings o tree with
  | .error e =>
    IO.eprintln e.message
    return 1
  | .ok s =>
    let tree ← s.shell.historyFile?.toList.foldlM addFile tree
    let prompt := promptOn ((← IO.getEnv "TERM").getD "") s
    let (d, ending) ← converseWithUser (defaultShell Host.runCommand s) prompt (.start s tree)
    for (l, e) in (d.finalTree s ending).entries.entries do
      saveEntry tree l e
    if let .failed message := ending then IO.eprintln message
    return ending.status.toUInt32

def main (arguments : List String) : IO UInt32 := do
  match Request.parse arguments with
  | .error e =>
    IO.eprintln e.message
    return 2
  | .ok .help =>
    IO.print CommandLine.helpText
    return 0
  | .ok .version =>
    IO.print versionText
    return 0
  | .ok (.session o) => runWithUser o
