import LayoutShell.Host.Program.Entries

/-!
# Programs that copy and move

`cp` copies files, links and directories, and `mv` moves them.
-/

namespace LayoutShell.Host.Program

open Files

/-! ## Copying -/

/-- How files are copied. -/
structure Copying where
  recursive : Bool
  /-- Links are followed. -/
  follow : Bool
  /-- Existing files are kept. -/
  keep : Bool
  asking : Bool
  verbose : Bool

/-- Says what is copied. -/
def Copying.announce (c : Copying) (source path : ByteString) : Run Unit := do
  if c.verbose then sayText (quotedName source ++ " -> " ++ quotedName path ++ "\n")

/-- An existing file must not be replaced. -/
def Copying.spares (c : Copying) (program : String) (present : Bool) (path : ByteString) :
    Run Bool := do
  if !present then return false
  else if c.keep then return true
  else if c.asking then return !(← confirm (program ++ ": overwrite " ++ quotedName path ++ "? "))
  else return false

/-- Copies the content of a file. -/
def copyFile (c : Copying) (source : ByteString) (l : Location) (path : ByteString) :
    Run Nat := do
  let m ← get
  let full ← resolve path
  let content := (contentAt? m.tree l).getD []
  let there := m.tree.locate full
  if there matches .ok _ then
    if m.tree.isDirectoryAt full then
      return ← blame "cp" 1
        ("cannot overwrite directory " ++ quotedName path ++ " with non-directory")
  else if isLink m path then
    return ← blame "cp" 1 ("not writing through dangling symlink " ++ quotedName path)
  if ← c.spares "cp" (there matches .ok _) path then return 0
  let isNew := !(there matches .ok _)
  match device? path with
  | some _ =>
    let _ ← writeFile path (ofBytes content)
    return 0
  | none =>
    match m.tree.destination full with
    | .error e =>
      let e := if Path.endsInSlash path ∧ isNew then .notDirectory else e
      blame "cp" 1 ("cannot create regular file " ++ quotedName path ++ ": " ++ errorText e)
    | .ok target =>
      let t := m.tree.put target (.file content)
      setTree (if isNew then t.allowRunning target (m.tree.programs.contains l) else t)
      c.announce source path
      return 0

/-- Copies a link. -/
def copyLink (c : Copying) (source : ByteString) (target : String) (path : ByteString) :
    Run Nat := do
  let m ← get
  let full ← resolve path
  match m.tree.locateEntry full with
  | .ok l =>
    if m.tree.isDirectory l then
      return ← blame "cp" 1
        ("cannot overwrite directory " ++ quotedName path ++ " with non-directory")
    if ← c.spares "cp" true path then return 0
    setTree (m.tree.remove l)
  | .error _ => pure ()
  match ← change (fun t p => t.makeLink target p) path with
  | .ok () =>
    c.announce source path
    return 0
  | .error e =>
    blame "cp" 1 ("cannot create symbolic link " ++ quotedName path ++ ": " ++ changeText e)

/-- Copies an entry; `goal?` is where all is copied to, which itself is not copied. -/
def copyEntry (c : Copying) : Nat → Option Location → Bool → ByteString → ByteString → Run Nat
  | 0, _, _, _, _ => return 1
  | fuel + 1, goal?, follow, source, path => do
    let m ← get
    let start ← resolve source
    let found := if follow then m.tree.locate start else m.tree.locateEntry start
    match found with
    | .error e =>
      match device? source with
      | some _ =>
        match ← readFile source with
        | .ok text =>
          let _ ← writeFile path text
          return 0
        | .error e => blame "cp" 1 ("cannot stat " ++ quotedName source ++ ": " ++ errorText e)
      | none => blame "cp" 1 ("cannot stat " ++ quotedName source ++ ": " ++ errorText e)
    | .ok l =>
      let full ← resolve path
      let there? := (m.tree.locate full).toOption
      match m.tree.entry? l with
      | some .directory =>
        if !c.recursive then
          blame "cp" 1 ("-r not specified; omitting directory " ++ quotedName source)
        else if there?.any fun l' => !m.tree.isDirectory l' then
          blame "cp" 1 ("cannot overwrite non-directory " ++ quotedName path ++
            " with directory " ++ quotedName source)
        else
          let made ← if there?.isSome then pure (Except.ok ())
            else change FileTree.makeDirectory path
          match made with
          | .error e =>
            blame "cp" 1 ("cannot create directory " ++ quotedName path ++ ": " ++ changeText e)
          | .ok () =>
            if there?.isNone then c.announce source path
            let here? := ((← get).tree.locate full).toOption
            let goal? := goal?.or here?
            let mut status := 0
            for name in m.tree.children l do
              let name := ByteString.ofText name
              status := max status
                (← copyEntry c fuel goal? c.follow (pathIn source name) (pathIn path name))
            if goal? = here? ∧ here?.any fun g => l.isPrefixOf g then
              blame "cp" 1 ("cannot copy a directory, " ++ quotedName source ++
                ", into itself, " ++ quotedName path)
            else return status
      | some (.link target) =>
        if there? = some l then
          blame "cp" 1 (quotedName source ++ " and " ++ quotedName path ++ " are the same file")
        else copyLink c source target path
      | _ =>
        if there? = some l then
          blame "cp" 1 (quotedName source ++ " and " ++ quotedName path ++ " are the same file")
        else copyFile c source l path

def cp (args : List ByteString) : Run Nat :=
  withOptions "cp"
    ⟨"abdfHilLnprst:uvxPRS:TZ", [("archive", 'a'), ("force", 'f'), ("interactive", 'i'),
      ("dereference", 'L'), ("no-dereference", 'P'), ("no-clobber", 'n'), ("recursive", 'r'),
      ("symbolic-link", 's'), ("target-directory", 't'), ("no-target-directory", 'T'),
      ("update", 'u'), ("verbose", 'v')], true⟩ 1 args fun o => do
    let m ← get
    let isDirectory := fun path : ByteString => m.tree.isDirectoryAt (resolveFrom m.here path)
    let recursive := o.has 'r' || o.has 'R' || o.has 'a'
    let keepsLinks := o.last? ['P', 'd', 'a', 'L'] ≠ some 'L' &&
      (recursive || o.has 'P' || o.has 'd')
    let c : Copying :=
      { recursive := recursive, follow := !keepsLinks, keep := o.last? ['n', 'i', 'f'] = some 'n'
        asking := o.last? ['n', 'i'] = some 'i', verbose := o.has 'v' }
    match goal "cp" o isDirectory fun p => directoryProblem m.tree (resolveFrom m.here p) with
    | .error act => act
    | .ok (.into directory sources) =>
      forAll sources fun source =>
        copyEntry c 1000 none (!keepsLinks || o.has 'H') source
          (pathIn directory (lastName source))
    | .ok (.onto source path) => copyEntry c 1000 none (!keepsLinks || o.has 'H') source path

/-! ## Moving -/

/-- Follows a file that is moved with the channels that are open on it. -/
def moveChannels (a b : Location) : Run Unit :=
  modify fun m =>
    { m with
      channels := m.channels.map fun
        | .file l offset append =>
          .file (if a.isPrefixOf l then b ++ l.drop a.length else l) offset append
        | c => c }

def moveEntry (c : Copying) (source path : ByteString) : Run Nat := do
  let m ← get
  let t := m.tree
  let full ← resolve path
  match t.locateEntry (← resolve source) with
  | .error e => blame "mv" 1 ("cannot stat " ++ quotedName source ++ ": " ++ errorText e)
  | .ok a =>
    let isDirectory := t.isDirectory a
    match t.entryPlace full with
    | .error e =>
      blame "mv" 1 ("cannot move " ++ quotedName source ++ " to " ++ quotedName path ++ ": " ++
        errorText e)
    | .ok b =>
      let there? := t.entry? b
      if a = b then
        blame "mv" 1 (quotedName source ++ " and " ++ quotedName path ++ " are the same file")
      else if isDirectory ∧ a.isPrefixOf b then
        blame "mv" 1 ("cannot move " ++ quotedName source ++ " to a subdirectory of itself, " ++
          quotedName path)
      else if there? = some .directory ∧ !isDirectory then
        blame "mv" 1 ("cannot overwrite directory " ++ quotedName path ++ " with non-directory")
      else if isDirectory ∧ there?.any (· ≠ .directory) then
        blame "mv" 1 ("cannot overwrite non-directory " ++ quotedName path ++
          " with directory " ++ quotedName source)
      else if there? = some .directory ∧ !(t.children b).isEmpty then
        blame "mv" 1 ("cannot overwrite " ++ quotedName path ++ ": Directory not empty")
      else if Path.endsInSlash path ∧ !isDirectory then
        blame "mv" 1 ("cannot move " ++ quotedName source ++ " to " ++ quotedName path ++
          ": Not a directory")
      else if a = [] then
        blame "mv" 1 ("cannot move " ++ quotedName source ++ " to " ++ quotedName path ++
          ": Device or resource busy")
      else if ← c.spares "mv" there?.isSome path then return 0
      else
        setTree ((← get).tree.moveEntry a b)
        moveChannels a b
        if c.verbose then
          sayText ("renamed " ++ quotedName source ++ " -> " ++ quotedName path ++ "\n")
        return 0

def mv (args : List ByteString) : Run Nat :=
  withOptions "mv"
    ⟨"bfint:uvS:TZ", [("force", 'f'), ("interactive", 'i'), ("no-clobber", 'n'),
      ("target-directory", 't'), ("no-target-directory", 'T'), ("update", 'u'),
      ("verbose", 'v')], true⟩ 1 args fun o => do
    let m ← get
    let isDirectory := fun path : ByteString => m.tree.isDirectoryAt (resolveFrom m.here path)
    let choice := o.last? ['n', 'i', 'f']
    let c : Copying :=
      { recursive := true, follow := false, keep := choice = some 'n', asking := choice = some 'i'
        verbose := o.has 'v' }
    match goal "mv" o isDirectory fun p => directoryProblem m.tree (resolveFrom m.here p) with
    | .error act => act
    | .ok (.into directory sources) =>
      forAll sources fun source => moveEntry c source (pathIn directory (lastName source))
    | .ok (.onto source path) => moveEntry c source path

end LayoutShell.Host.Program
