import LayoutShell.Host.Program.Filters
import LayoutShell.Host.Sed.Run

/-!
# The stream editor as a program

`sed` applies a script to files or to its input, and can replace files by the result.
-/

namespace LayoutShell.Host.Program

open Files

/-- The fragments of the script that options give, and the operands that are left. -/
def scriptFragments (o : Options) :
    Run (Except String (List Sed.Fragment × List ByteString)) := do
  let given := o.given.filter fun (c, _) => c = 'e' || c = 'f'
  if given.isEmpty then
    match o.operands with
    | [] => return .error ""
    | script :: rest => return .ok ([⟨script.toList, "-e expression #1", false⟩], rest)
  else
    let mut fragments : List Sed.Fragment := []
    let mut count := 0
    for (c, value?) in given do
      let value := value?.getD ""
      if c = 'e' then
        count := count + 1
        fragments := fragments ++ [⟨value.toList, "-e expression #" ++ toString count, false⟩]
      else
        match ← readOperand value with
        | .ok text =>
          let text := if text.getLast? = some '\n' then text.dropLast else text
          fragments := fragments ++ [⟨text, value, true⟩]
        | .error e => return .error ("couldn't open file " ++ value ++ ": " ++ errorText e)
    return .ok (fragments, o.operands)

/-- Writes what a script has written to files. -/
def writeTargets (paths : List String) (output : List (Sed.Target × List Char)) : Run Unit := do
  for path in paths.eraseDups do
    let text := (output.filterMap fun (target, s) =>
      if target = some path then some s else none).flatten
    if path = "/dev/stdout" ∨ path = "/dev/stderr" then
      if path = "/dev/stderr" then
        let _ ← write 2 text
    else
      let _ ← writeFile path text

/-- The text that goes to the output. -/
def ownOutput (output : List (Sed.Target × List Char)) : List Char :=
  (output.filterMap fun (target, s) =>
    if target.isNone ∨ target = some "/dev/stdout" then some s else none).flatten

/-- The name of a copy of a file: an ending, or a form in which a star stands for the name. -/
def backupName (ending path : ByteString) : ByteString :=
  if ending.toList.contains '*' then
    String.ofList (ending.toList.flatMap fun c => if c = '*' then path.toList else [c])
  else path ++ ending

/-- The usage of the editor. -/
def sedUsage : String :=
  "Usage: sed [OPTION]... \x7bscript-only-if-no-other-script\x7d [input-file]..."

def sed (args : List ByteString) : Run Nat :=
  withOptions "sed"
    ⟨"ne:f:Eri::sul:zbx", [("quiet", 'n'), ("silent", 'n'), ("expression", 'e'), ("file", 'f'),
      ("regexp-extended", 'E'), ("in-place", 'i'), ("separate", 's'), ("unbuffered", 'u'),
      ("line-length", 'l'), ("null-data", 'z'), ("posix", 'x')], true⟩ 1 args fun o => do
    match ← scriptFragments o with
    | .error "" =>
      warn sedUsage
      return 1
    | .error message => blame "sed" 1 message
    | .ok (fragments, operands) =>
      let startsSilent := match fragments.head? with
        | some f => f.text = ['#', 'n'] || f.text.take 3 = ['#', 'n', '\n']
        | none => false
      match Sed.parse (o.has 'E' || o.has 'r') fragments with
      | .error message => blame "sed" 1 message
      | .ok script =>
        let m ← get
        let delimiter := if o.has 'z' then '\x00' else '\n'
        let settings : Sed.Settings :=
          { silent := o.has 'n' || startsSilent, delimiter := delimiter
            width := ((o.argument? 'l').bind fun s => count? s.toList).getD 70
            readFile := fun path =>
              ((m.tree.read (resolveFrom m.here path)).toOption).map ofBytes }
        let mut status := 0
        let mut texts : List (ByteString × List Char) := []
        for path in (if operands.isEmpty then ["-"] else operands) do
          let found ← if o.has 'i' then readFile path else readOperand path
          match found with
          | .ok text => texts := texts ++ [(path, text)]
          | .error .isDirectory =>
            if o.has 'i' then
              status ← blame "sed" 4 ("couldn't edit " ++ path ++ ": not a regular file")
            else
              status ← blame "sed" 4 ("read error on " ++ path ++ ": Is a directory")
              break
          | .error e => status ← blame "sed" 2 ("can't read " ++ path ++ ": " ++ errorText e)
        let files := Sed.writtenFiles script
        if o.has 'i' then
          for (path, text) in texts do
            let (output, code) :=
              Sed.run settings script (Sed.linesFrom delimiter path text)
            match o.argument? 'i' with
            | some ending =>
              let _ ← writeFile (backupName ending path) text
            | none => pure ()
            writeTargets files output
            let _ ← writeFile path (ownOutput output)
            status := max status code
        else if o.has 's' then
          for (path, text) in texts do
            let (output, code) :=
              Sed.run settings script (Sed.linesFrom delimiter path text)
            writeTargets files output
            say (ownOutput output)
            status := max status code
        else
          let last := texts.length - 1
          let lines := texts.zipIdx.flatMap fun ((path, text), i) =>
            let lines := Sed.linesFrom delimiter path text
            if i = last then lines else lines.map fun line => { line with ended := true }
          let (output, code) := Sed.run settings script lines
          writeTargets files output
          say (ownOutput output)
          status := if code = 0 then status else code
        return status

end LayoutShell.Host.Program
