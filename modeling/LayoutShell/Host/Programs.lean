import LayoutShell.Host.Program.Columns
import LayoutShell.Host.Program.Compare
import LayoutShell.Host.Program.Edit
import LayoutShell.Host.Program.Encode
import LayoutShell.Host.Program.Find
import LayoutShell.Host.Program.Launchers
import LayoutShell.Host.Program.Listing
import LayoutShell.Host.Program.Numbers
import LayoutShell.Host.Program.Search
import LayoutShell.Host.Program.Sort
import LayoutShell.Host.Program.Transfer

/-!
# The programs of the system

* `Program.find?` gives the program with a name.
* `Program.isKnown` says which names belong to programs.
-/

namespace LayoutShell.Host.Program

/-- The programs that launch no others, by name. -/
def plainPrograms : List (String × (List ByteString → Run Nat)) :=
  [("true", fun _ => return 0), ("false", fun _ => return 1), ("mkdir", mkdir), ("rmdir", rmdir),
    ("rm", rm), ("touch", touch), ("ln", ln), ("chmod", chmod), ("truncate", truncate), ("cp", cp),
    ("mv", mv), ("cat", cat), ("ls", ls), ("basename", basename), ("dirname", dirname),
    ("readlink", readlink), ("realpath", realpath), ("mktemp", mktemp), ("stat", stat),
    ("head", head), ("tail", tail), ("wc", wc), ("tac", tac), ("rev", rev), ("nl", nl),
    ("tee", tee), ("paste", paste), ("fold", fold), ("expand", expand), ("unexpand", unexpand),
    ("comm", comm), ("yes", yes), ("sort", sort), ("uniq", uniq), ("cut", cut), ("tr", tr),
    ("sed", sed), ("grep", grep), ("egrep", egrep), ("fgrep", fgrep), ("seq", seq), ("expr", expr),
    ("cmp", cmp), ("diff", diff), ("od", od), ("base64", base64), ("cksum", cksum), ("sum", sum),
    ("md5sum", digestProgram "md5sum" Md5.digest), ("sha1sum", digestProgram "sha1sum" Sha1.digest),
    ("sha256sum", digestProgram "sha256sum" Sha256.digest), ("printenv", printenv), ("echo", echo),
    ("printf", print), ("pwd", ofBuiltin "pwd" Builtin.printDirectory), ("sleep", sleep),
    ("whoami", state "root"), ("id", identity), ("uname", state "Linux"), ("nproc", state "1"),
    ("hostname", state "localhost"), ("tty", terminal),
    ("date", state "Thu Jan  1 00:00:00 UTC 1970")]

/-- The programs that launch others, by name. -/
def launchers : List (String × Program) :=
  [("find", find), ("xargs", xargs), ("env", env), ("timeout", timeout), ("nohup", nohup),
    ("nice", nice)]

/-- A program has this name. -/
def isKnown (name : String) : Bool :=
  (plainPrograms.lookup name).isSome || (launchers.lookup name).isSome ||
    ["test", "[", "which", "sh", "dash"].contains name

/-- Shows where the programs with some names are. -/
def which (args : List ByteString) : Run Nat := do
  let m ← get
  let directories := (((← variableValue? "PATH").getD "").toList.splitOn ':').map String.ofList
  forAll args fun name => do
    let paths := if name.toList.contains '/' then [name] else directories.map (pathIn · name)
    match paths.find? fun path => (fileKind isKnown m path) matches .file _ true with
    | some path =>
      sayText (path ++ "\n")
      return 0
    | none => return 1

def find? (name : String) : Option Program :=
  match plainPrograms.lookup name, name with
  | some act, _ => some fun _ => act
  | none, "test" => some fun _ => ofBuiltin "test" (Builtin.condition isKnown)
  | none, "[" => some fun _ => ofBuiltin "[" (Builtin.bracket isKnown)
  | none, "which" => some fun _ => which
  | none, name => launchers.lookup name

end LayoutShell.Host.Program
