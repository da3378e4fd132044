import LayoutShell.Host.Change
import LayoutShell.Host.Condition
import LayoutShell.Host.Program.Options
import LayoutShell.Host.Program.Quoting

/-!
# Programs that change directories

`mkdir`, `rmdir`, `rm`, `touch`, `ln`, `chmod`, `cp`, `mv` and `truncate`.
-/

namespace LayoutShell.Host.Program

open Files

def changeText : ChangeError → String
  | .access e => errorText e
  | .present => "File exists"
  | .notEmpty => "Directory not empty"
  | .notAllowed => "Invalid argument"

/-- Changes the file tree at a path. -/
def change (f : FileTree → String → Except ChangeError FileTree) (path : ByteString) :
    Run (Except ChangeError Unit) := do
  match ← ask f path with
  | .ok t =>
    setTree t
    return .ok ()
  | .error e => return .error e

/-- Asks a question, which only a line that begins with `y` affirms. -/
def confirm (question : String) : Run Bool := do
  let _ ← write 2 question.toList
  let line := (← peekRest 0).takeWhile (· ≠ '\n')
  consume 0 (line.length + 1)
  return line.head? = some 'y' || line.head? = some 'Y'

def missingOperand (program what : String) : Run Nat :=
  blameUse program 1 ("missing " ++ what)

/-! ## Directories -/

/-- Makes a directory and those above it; gives the path at which that fails. -/
def makePath (verbose : Bool) (before : ByteString) : List ByteString → Run (Option String)
  | [] => return none
  | name :: rest => do
    let path := if before.isEmpty then name else before ++ name
    let failure? ← match ← change FileTree.makeDirectory path with
      | .ok () =>
        if verbose then sayText ("mkdir: created directory " ++ quotedName path ++ "\n")
        pure none
      | .error .present =>
        if ← ask FileTree.isDirectoryAt path then pure none
        else pure (some (if rest.isEmpty then "File exists" else "Not a directory"))
      | .error e => pure (some (changeText e))
    match failure? with
    | some text => return some (inQuotes path ++ ": " ++ text)
    | none => makePath verbose (path ++ "/") rest

def mkdir (args : List ByteString) : Run Nat :=
  withOptions "mkdir"
    ⟨"pvm:Z", [("parents", 'p'), ("verbose", 'v'), ("mode", 'm'), ("context", 'Z')], true⟩
    1 args fun o => do
    if o.operands.isEmpty then missingOperand "mkdir" "operand"
    else forAll o.operands fun path => do
      if o.has 'p' then
        let names := Path.steps path
        let start := if Path.isAbsolute path then "/" else ""
        if path.isEmpty then
          blame "mkdir" 1 "cannot create directory '': No such file or directory"
        else
          match ← makePath (o.has 'v') start names with
          | none => return 0
          | some text => blame "mkdir" 1 ("cannot create directory " ++ text)
      else
        match ← change FileTree.makeDirectory path with
        | .ok () =>
          if o.has 'v' then sayText ("mkdir: created directory " ++ quotedName path ++ "\n")
          return 0
        | .error e =>
          blame "mkdir" 1
            ("cannot create directory " ++ inQuotes path ++ ": " ++ changeText e)

/-- The paths of the directories above a path, the nearest first. -/
def pathsAbove (path : ByteString) : List ByteString :=
  let names := Path.steps path
  let start := if Path.isAbsolute path then "/" else ""
  (List.range (names.length - 1)).map fun i =>
    start ++ String.intercalate "/" (names.take (names.length - 1 - i))

def rmdir (args : List ByteString) : Run Nat :=
  withOptions "rmdir"
    ⟨"pvi", [("parents", 'p'), ("verbose", 'v'), ("ignore-fail-on-non-empty", 'i')], true⟩
    1 args fun o => do
    if o.operands.isEmpty then missingOperand "rmdir" "operand"
    else forAll o.operands fun path => do
      let removeOne := fun (path : ByteString) (what : String) => do
        if o.has 'v' then sayText ("rmdir: removing directory, " ++ quotedName path ++ "\n")
        match ← change FileTree.removeDirectory path with
        | .ok () => return (0, true)
        | .error e =>
          if e = .notEmpty ∧ o.has 'i' then return (0, false)
          else
            let status ← blame "rmdir" 1
              ("failed to remove " ++ what ++ quotedName path ++ ": " ++ changeText e)
            return (status, false)
      let (status, done) ← removeOne path ""
      if !(o.has 'p' && done) then return status
      let mut status := status
      for above in pathsAbove path do
        if status = 0 then status := (← removeOne above "directory ").1
      return status

/-! ## Removing -/

/-- How entries are removed. -/
structure Removal where
  recursive : Bool
  emptyToo : Bool
  force : Bool
  verbose : Bool
  asking : Bool

/-- The kind of an entry, as questions name it. -/
def kindName : Option Entry → String
  | some (.file []) => "regular empty file"
  | some (.file _) => "regular file"
  | some .directory => "directory"
  | some (.link _) => "symbolic link"
  | none => "file"

/-- Removes an entry and, if that is wanted, all below it. -/
def removeEntry (r : Removal) : Nat → ByteString → Run Nat
  | 0, _ => return 1
  | fuel + 1, path => do
    let m ← get
    let full ← resolve path
    match m.tree.locateEntry full with
    | .error e =>
      if r.force ∧ (e = .notFound ∨ e = .notDirectory) then return 0
      else blame "rm" 1 ("cannot remove " ++ quotedName path ++ ": " ++ errorText e)
    | .ok l =>
      if m.tree.isDirectory l then
        let names := m.tree.children l
        if !r.recursive ∧ !r.emptyToo then
          blame "rm" 1 ("cannot remove " ++ quotedName path ++ ": Is a directory")
        else if !r.recursive ∧ !names.isEmpty then
          blame "rm" 1 ("cannot remove " ++ quotedName path ++ ": Directory not empty")
        else
          if r.asking ∧ !names.isEmpty then
            if !(← confirm ("rm: descend into directory " ++ quotedName path ++ "? ")) then
              return 0
          let base := if Path.endsInSlash path then path else path ++ "/"
          let mut status := 0
          for name in names do
            status := max status (← removeEntry r fuel (base ++ ByteString.ofText name))
          if r.asking then
            if !(← confirm ("rm: remove directory " ++ quotedName path ++ "? ")) then
              return status
          if status ≠ 0 then return status
          match ← change FileTree.removeDirectory path with
          | .ok () =>
            if r.verbose then sayText ("removed directory " ++ quotedName path ++ "\n")
            return status
          | .error e =>
            blame "rm" 1 ("cannot remove " ++ quotedName path ++ ": " ++ changeText e)
      else
        if r.asking then
          let kind := kindName (m.tree.entry? l)
          if !(← confirm ("rm: remove " ++ kind ++ " " ++ quotedName path ++ "? ")) then
            return 0
        setTree (m.tree.remove l)
        if r.verbose then sayText ("removed " ++ quotedName path ++ "\n")
        return 0

def rm (args : List ByteString) : Run Nat :=
  withOptions "rm"
    ⟨"rRfidvI", [("recursive", 'r'), ("force", 'f'), ("verbose", 'v'), ("dir", 'd'),
      ("interactive", 'i')], true⟩ 1 args fun o => do
    let force := o.last? ['f', 'i'] = some 'f'
    if o.operands.isEmpty then
      if force then return 0 else missingOperand "rm" "operand"
    else
      let r : Removal :=
        { recursive := o.has 'r' || o.has 'R', emptyToo := o.has 'd', force := force
          verbose := o.has 'v', asking := o.last? ['f', 'i'] = some 'i' }
      forAll o.operands fun path => do
        let last := (Path.steps path).getLast?
        if r.recursive ∧ (last = some "." ∨ last = some "..") then
          blame "rm" 1
            ("refusing to remove '.' or '..' directory: skipping " ++ quotedName path)
        else removeEntry r 1000 path

/-! ## Files, links and rights -/

def touch (args : List ByteString) : Run Nat :=
  withOptions "touch"
    ⟨"acd:fhmr:t:", [("no-create", 'c'), ("date", 'd'), ("reference", 'r'),
      ("no-dereference", 'h')], true⟩ 1 args fun o => do
    if o.operands.isEmpty then missingOperand "touch" "file operand"
    else forAll o.operands fun path => do
      let full ← resolve path
      let t := (← get).tree
      if path = "-" ∨ (device? path).isSome ∨ t.existsAt full then return 0
      else if Path.endsInSlash path then
        match t.locate full with
        | .ok _ => return 0
        | .error e =>
          blame "touch" 1 ("setting times of " ++ quotedName path ++ ": " ++ errorText e)
      else if o.has 'c' then return 0
      else
        match ← writeFile path [] with
        | .ok () => return 0
        | .error e =>
          blame "touch" 1 ("cannot touch " ++ quotedName path ++ ": " ++ errorText e)

/-- The path of an entry in a directory. -/
def pathIn (directory name : ByteString) : ByteString :=
  if Path.endsInSlash directory then directory ++ name else directory ++ "/" ++ name

/-- The last name of a path. -/
def lastName (path : ByteString) : ByteString :=
  match (Path.steps path).getLast? with
  | some name => name
  | none => if path.isEmpty then "" else "/"

/-- Makes one link. -/
def linkOne (o : Options) (target path : ByteString) : Run Nat := do
  let isSoft := o.has 's'
  let kind := if isSoft then "symbolic link " else "hard link "
  let m ← get
  let full ← resolve path
  let source? : Except FileError Location := m.tree.locateEntry (← resolve target)
  let hardError? := match source? with
    | .ok l =>
      if m.tree.isDirectory l then
        some (nameInMessage target ++ ": hard link not allowed for directory")
      else none
    | .error e => some ("failed to access " ++ quotedName target ++ ": " ++ errorText e)
  match (if isSoft then none else hardError?) with
  | some message => blame "ln" 1 message
  | none =>
    if o.has 'f' then
      match m.tree.locateEntry full with
      | .ok l => if !m.tree.isDirectory l then setTree (m.tree.remove l)
      | .error _ => pure ()
    let made := match source?, isSoft with
      | .ok l, false => fun (t : FileTree) (p : String) => do
        return t.put (← t.freePlace p) ((t.entry? l).getD .directory)
      | _, _ => fun t p => t.makeLink target.toText p
    match ← change made path with
    | .ok () =>
      if o.has 'v' then
        let arrow := if isSoft then " -> " else " => "
        sayText (quotedName path ++ arrow ++ quotedName target ++ "\n")
      return 0
    | .error e =>
      let source := if !isSoft ∧ e ≠ .present then " => " ++ quotedName target else ""
      blame "ln" 1
        ("failed to create " ++ kind ++ quotedName path ++ source ++ ": " ++ changeText e)

/-- Where the operands of a program go: into a directory, or one to a path. -/
inductive Goal
  | into (directory : ByteString) (sources : List ByteString)
  | onto (source path : ByteString)

/-- The goal of the operands, or what is wrong with them. -/
def goal (program : String) (o : Options) (isDirectory : ByteString → Bool)
    (problem : ByteString → String) : Except (Run Nat) Goal :=
  match o.argument? 't', o.operands with
  | _, [] => .error (missingOperand program "file operand")
  | some directory, sources =>
    if isDirectory directory then .ok (.into directory sources)
    else .error (blame program 1
      ("target directory " ++ quotedName directory ++ ": " ++ problem directory))
  | none, [only] =>
    .error (blameUse program 1 ("missing destination file operand after " ++ inQuotes only))
  | none, operands =>
    let last := operands.getLastD ""
    let sources := operands.dropLast
    if o.has 'T' then
      match sources with
      | [source] => .ok (.onto source last)
      | _ => .error (blameUse program 1 ("extra operand " ++ inQuotes (operands.getD 2 "")))
    else if isDirectory last then .ok (.into last sources)
    else
      match sources with
      | [source] => .ok (.onto source last)
      | _ => .error (blame program 1 ("target " ++ quotedName last ++ ": " ++ problem last))

/-- Why a path is no directory. -/
def directoryProblem (t : FileTree) (full : String) : String :=
  match t.locate full with
  | .ok _ => "Not a directory"
  | .error e => errorText e

def ln (args : List ByteString) : Run Nat :=
  withOptions "ln"
    ⟨"bdfFinrst:TvLPS:", [("symbolic", 's'), ("force", 'f'), ("no-dereference", 'n'),
      ("verbose", 'v'), ("target-directory", 't'), ("no-target-directory", 'T'),
      ("relative", 'r')], true⟩ 1 args fun o => do
    let m ← get
    let isDirectory := fun path : ByteString =>
      m.tree.isDirectoryAt (resolveFrom m.here path) && !(o.has 'n' && isLink m path)
    match o.operands, o.argument? 't' with
    | [target], none => linkOne o target (pathIn "." (lastName target))
    | _, _ =>
      match goal "ln" o isDirectory fun p => directoryProblem m.tree (resolveFrom m.here p) with
      | .error act => act
      | .ok (.into directory targets) =>
        forAll targets fun target => linkOne o target (pathIn directory (lastName target))
      | .ok (.onto target path) => linkOne o target path

/-- Whether a mode lets files be run or no longer; `none` if the mode is malformed, and an inner
`none` if it says nothing about that. -/
def runningMode (mode : ByteString) : Option (Option Bool) :=
  if !mode.isEmpty ∧ mode.toList.all (fun c => '0' ≤ c ∧ c ≤ '7') then
    let n := Arithmetic.numeral 8 mode.toList
    some (some (n % 2 = 1 || n / 8 % 2 = 1 || n / 64 % 2 = 1))
  else
    let clauses := mode.toList.splitOn ','
    let readings : List (Option (Option Bool)) := clauses.map fun clause =>
      let rest := clause.dropWhile fun c => "ugoa".toList.contains c
      match rest with
      | sign :: rights =>
        if "+-=".toList.contains sign ∧
            rights.all (fun c => "rwxXstugo".toList.contains c) then
          if rights.contains 'x' then some (some (decide (sign ≠ '-')))
          else if sign = '=' then some (some false)
          else some none
        else none
      | [] => none
    readings.foldl (fun result reading => do
      let before ← result
      return (← reading).or before) (some none)

/-- The locations at a place and below it. -/
def locationsAt (t : FileTree) (l : Location) : List Location :=
  l :: (t.entriesAt l).filterMap fun (names, _) => if names.isEmpty then none else some (l ++ names)

def chmod (args : List ByteString) : Run Nat := do
  let isMode := fun arg : ByteString =>
    match arg.toList with
    | '-' :: c :: _ => "rwxXst".toList.contains c
    | _ => false
  let safe := args.map fun arg => if isMode arg then "a" ++ arg else arg
  withOptions "chmod"
    ⟨"Rcvf", [("recursive", 'R'), ("verbose", 'v'), ("changes", 'c'), ("silent", 'f')], true⟩
    1 safe fun o => do
    match o.operands with
    | [] => missingOperand "chmod" "operand"
    | [mode] => blameUse "chmod" 1 ("missing operand after " ++ inQuotes mode)
    | mode :: paths =>
      match runningMode mode with
      | none => blameUse "chmod" 1 ("invalid mode: " ++ inQuotes mode)
      | some allowed? =>
        forAll paths fun path => do
          let m ← get
          match m.tree.locate (← resolve path) with
          | .error e =>
            if o.has 'f' then return 1
            else blame "chmod" 1 ("cannot access " ++ quotedName path ++ ": " ++ errorText e)
          | .ok l =>
            match allowed? with
            | none => return 0
            | some allowed =>
              let places := if o.has 'R' then locationsAt m.tree l else [l]
              setTree (places.foldl (fun t l => t.allowRunning l allowed) m.tree)
              return 0

/-- The size that a change of size leads to. -/
def newSize? (size : Nat) (text : List Char) : Option Nat :=
  let number := fun digits : List Char =>
    if digits.isEmpty ∨ !digits.all Char.isDigit then none else some (Arithmetic.numeral 10 digits)
  let scaled := fun text : List Char =>
    match text.getLast? with
    | some 'K' => (number text.dropLast).map (· * 1024)
    | some 'M' => (number text.dropLast).map (· * 1024 * 1024)
    | _ => number text
  match text with
  | '+' :: rest => (scaled rest).map (size + ·)
  | '-' :: rest => (scaled rest).map (size - ·)
  | '<' :: rest => (scaled rest).map (min size)
  | '>' :: rest => (scaled rest).map (max size)
  | rest => scaled rest

def truncate (args : List ByteString) : Run Nat :=
  withOptions "truncate"
    ⟨"cor:s:", [("size", 's'), ("no-create", 'c'), ("reference", 'r')], true⟩ 1 args fun o => do
    match o.argument? 's' with
    | none => blameUse "truncate" 1 "you must specify either '--size' or '--reference'"
    | some size =>
      if o.operands.isEmpty then missingOperand "truncate" "file operand"
      else forAll o.operands fun path => do
        let content ← match ← readFile path with
          | .ok text => pure text
          | .error _ => pure []
        match newSize? content.length size.toList with
        | none => blame "truncate" 1 ("Invalid number: " ++ inQuotes size)
        | some n =>
          match ← writeFile path (content.take n ++ List.replicate (n - content.length) '\x00') with
          | .ok () => return 0
          | .error e =>
            blame "truncate" 1
              ("cannot open " ++ quotedName path ++ " for writing: " ++ errorText e)

end LayoutShell.Host.Program
