import LayoutShell.Host.Builtin
import LayoutShell.Host.Program.Entries

/-!
# Programs that show files and directories

`cat`, `ls`, `basename`, `dirname`, `readlink`, `realpath`, `mktemp` and `stat`.
-/

namespace LayoutShell.Host.Program

open Files

/-! ## Files -/

/-- How a text is shown. -/
structure Display where
  /-- Lines are numbered. -/
  numbered : Bool
  /-- Only lines that are not empty are numbered. -/
  numberedFull : Bool
  /-- Of empty lines in succession only one is shown. -/
  squeezed : Bool
  ends : Bool
  tabs : Bool
  controls : Bool

/-- Where a text that is shown has arrived. -/
structure Shown where
  line : Nat := 0
  atStart : Bool := true
  /-- The number of empty lines before. -/
  blanks : Nat := 0

/-- How a character is shown where control characters are visible. -/
def visible (c : Char) : List Char :=
  let n := c.toNat
  let low := fun n : Nat =>
    if n < 32 then ['^', Char.ofNat (n + 64)]
    else if n = 127 then ['^', '?']
    else [Char.ofNat n]
  if n < 128 then low n else 'M' :: '-' :: low (n - 128)

namespace Display

def char (d : Display) (c : Char) : List Char :=
  if c = '\t' then if d.tabs then "^I".toList else ['\t']
  else if d.controls then visible c
  else [c]

/-- The number of a line. -/
def number (n : Nat) : List Char := fillLeft ' ' 6 (toString n).toList ++ ['\t']

/-- Shows a text, from a state on. -/
def go (d : Display) : Shown → List Char → List Char → List Char × Shown
  | s, out, [] => (out, s)
  | s, out, '\n' :: rest =>
    let blanks := if s.atStart then s.blanks + 1 else 0
    if d.squeezed && blanks ≥ 2 then d.go { s with blanks := blanks } out rest
    else
      let numbered := s.atStart && d.numbered && !d.numberedFull
      let line := if numbered then s.line + 1 else s.line
      let start := if numbered then number line else []
      let ending := if d.ends then ['$', '\n'] else ['\n']
      d.go ⟨line, true, blanks⟩ ((start ++ ending).reverse ++ out) rest
  | s, out, c :: rest =>
    let numbered := s.atStart && (d.numbered || d.numberedFull)
    let line := if numbered then s.line + 1 else s.line
    let start := if numbered then number line else []
    d.go ⟨line, false, 0⟩ ((start ++ d.char c).reverse ++ out) rest

end Display

/-- A file is the one that the first output stream writes to, and lies before its place there. -/
def isOwnOutput (m : Machine) (path : ByteString) : Bool :=
  let output? := (m.streams.lookup 1).bind fun i => m.channels[i]?
  let input? := if path = "-" then
      match (m.streams.lookup 0).bind fun i => m.channels[i]? with
      | some (.file l offset _) => some (l, offset)
      | _ => none
    else ((m.tree.locate (resolveFrom m.here path)).toOption).map (·, 0)
  match output?, input? with
  | some (.file l offset append), some (l', start) =>
    let size := ((contentAt? m.tree l).getD []).length
    l = l' && start < size && start < (if append then size else offset)
  | _, _ => false

def cat (args : List ByteString) : Run Nat :=
  withOptions "cat"
    ⟨"AbeEnstTuv", [("number-nonblank", 'b'), ("number", 'n'), ("squeeze-blank", 's'),
      ("show-nonprinting", 'v'), ("show-ends", 'E'), ("show-tabs", 'T'), ("show-all", 'A')],
      true⟩ 1 args fun o => do
    let d : Display :=
      { numbered := o.has 'n', numberedFull := o.has 'b', squeezed := o.has 's'
        ends := o.has 'A' || o.has 'e' || o.has 'E', tabs := o.has 'A' || o.has 't' || o.has 'T'
        controls := o.has 'A' || o.has 'e' || o.has 't' || o.has 'v' }
    let plain := o.given.all fun (c, _) => c = 'u'
    let mut shown : Shown := {}
    let mut status := 0
    for path in (if o.operands.isEmpty then ["-"] else o.operands) do
      if isOwnOutput (← get) path then
        status ← blame "cat" 1 (nameInMessage path ++ ": input file is output file")
      else
        match ← readOperand path with
        | .error e => status ← blame "cat" 1 (nameInMessage path ++ ": " ++ errorText e)
        | .ok text =>
          if plain then say text
          else
            let (out, next) := d.go shown [] text
            say out.reverse
            shown := next
    return status

/-! ## Directories -/

/-- What is listed of directories. -/
structure ListStyle where
  /-- Names that begin with a dot are listed. -/
  hidden : Bool
  /-- The directory itself and the one above it are listed. -/
  dots : Bool
  directoriesAsFiles : Bool
  recursive : Bool
  reversed : Bool
  bySize : Bool
  byExtension : Bool
  unsorted : Bool
  /-- The marks after names: none, only of directories, or all. -/
  marks : Option Bool
  long : Bool
  quoted : Bool
  /-- How names are put together. -/
  layout : Char

/-- An entry in a list: its name and its path. -/
structure Listed where
  name : ByteString
  path : ByteString

namespace ListStyle

def entryOf (m : Machine) (e : Listed) : Option Entry :=
  match m.tree.locateEntry (resolveFrom m.here e.path) with
  | .ok l => m.tree.entry? l
  | .error _ => if systemDirectories.contains e.path then some .directory else none

def sizeOf (m : Machine) (e : Listed) : Nat :=
  match entryOf m e with
  | some (.file content) => content.length
  | some .directory => 4096
  | some (.link target) => target.utf8ByteSize
  | none => 0

def extensionOf (name : ByteString) : List Char :=
  let reversed := name.toList.reverse
  let ending := reversed.takeWhile (· ≠ '.')
  if ending.length < reversed.length then '.' :: ending.reverse else []

/-- The order of entries. -/
def before (s : ListStyle) (m : Machine) (a b : Listed) : Bool :=
  let byName := decide (a.name ≤ b.name)
  if s.bySize then
    let (x, y) := (sizeOf m a, sizeOf m b)
    if x = y then byName else decide (y < x)
  else if s.byExtension then
    let (x, y) := (extensionOf a.name, extensionOf b.name)
    if x = y then byName else decide (x < y)
  else byName

def sort (s : ListStyle) (m : Machine) (list : List Listed) : List Listed :=
  let sorted := if s.unsorted then list else list.mergeSort (s.before m)
  if s.reversed then sorted.reverse else sorted

/-- The mark after a name. -/
def mark (s : ListStyle) (m : Machine) (e : Listed) : String :=
  match s.marks with
  | none => ""
  | some all =>
    match entryOf m e with
    | some .directory => "/"
    | some (.link _) => if all then "@" else ""
    | some (.file _) =>
      let runs := match m.tree.locate (resolveFrom m.here e.path) with
        | .ok l => m.tree.programs.contains l
        | .error _ => false
      if all && runs then "*" else ""
    | none => ""

/-- The name of an entry as it is listed. -/
def shownName (s : ListStyle) (m : Machine) (e : Listed) : String :=
  (if s.quoted then "\"" ++ e.name ++ "\"" else e.name) ++ s.mark m e

/-- The long form of an entry. -/
def longForm (s : ListStyle) (m : Machine) (width : Nat) (e : Listed) : String :=
  let runs := match m.tree.locate (resolveFrom m.here e.path) with
    | .ok l => m.tree.programs.contains l
    | .error _ => false
  let rights := match entryOf m e with
    | some .directory => "drwxr-xr-x"
    | some (.link _) => "lrwxrwxrwx"
    | _ => if runs then "-rwxr-xr-x" else "-rw-r--r--"
  let target := match entryOf m e with
    | some (.link target) => " -> " ++ ByteString.ofText target
    | _ => ""
  let size := String.ofList (fillLeft ' ' width (toString (sizeOf m e)).toList)
  rights ++ " 1 root root " ++ size ++ " Jan  1 00:00 " ++ s.shownName m e ++ target

/-- Lists entries. -/
def render (s : ListStyle) (m : Machine) (list : List Listed) : String :=
  if s.long then
    let width := (list.map fun e => (toString (sizeOf m e)).length).foldl max 1
    String.join (list.map fun e => s.longForm m width e ++ "\n")
  else
    let names := list.map (s.shownName m)
    if names.isEmpty then ""
    else if s.layout = 'm' then String.intercalate ", " names ++ "\n"
    else if s.layout = 'C' then String.intercalate "  " names ++ "\n"
    else String.join (names.map (· ++ "\n"))

/-- The entries of a directory, in order. -/
def entriesIn (s : ListStyle) (m : Machine) (path : ByteString) (names : List String) :
    List Listed :=
  let names := (names.map ByteString.ofText).filter fun n => s.hidden || n.toList.head? ≠ some '.'
  let names := if s.dots then "." :: ".." :: names else names
  s.sort m (names.map fun name => ⟨name, pathIn path name⟩)

/-- Lists a directory and, if that is wanted, those below it; each but the very first after an empty
line. -/
def directory (s : ListStyle) (titled : Bool) : Nat → Bool → ByteString → Run Nat
  | 0, _, _ => return 1
  | fuel + 1, first, path => do
    let m ← get
    match m.tree.list (resolveFrom m.here path) with
    | .error e =>
      if systemDirectories.contains path then return 0
      else blame "ls" 2 ("cannot open directory " ++ quotedName path ++ ": " ++ errorText e)
    | .ok names =>
      let list := s.entriesIn m path names
      let title := if titled || s.recursive then path ++ ":\n" else ""
      let total := if s.long then "total " ++ toString (4 * list.length) ++ "\n" else ""
      sayText ((if first then "" else "\n") ++ title ++ total ++ s.render m list)
      let mut status := 0
      if s.recursive then
        for e in list do
          if e.name ≠ "." ∧ e.name ≠ ".." ∧ entryOf m e = some .directory then
            status := max status (← s.directory titled fuel false e.path)
      return status

end ListStyle

def ls (args : List ByteString) : Run Nat :=
  withOptions "ls"
    ⟨"aAbBcCdDfFgGhHiIklLmnNopqQrRsStT:uUvw:xXZ1", [("all", 'a'), ("almost-all", 'A'),
      ("directory", 'd'), ("classify", 'F'), ("recursive", 'R'), ("reverse", 'r'),
      ("quote-name", 'Q'), ("size", 's'), ("human-readable", 'h')], true⟩ 2 args fun o => do
    let layout := match o.last? ['1', 'm', 'C', 'x', 'l'] with
      | some 'm' => 'm'
      | some 'C' | some 'x' => 'C'
      | _ => '1'
    let s : ListStyle :=
      { hidden := o.has 'a' || o.has 'A' || o.has 'f'
        dots := (o.last? ['a', 'A', 'f']).any (· ≠ 'A')
        directoriesAsFiles := o.has 'd', recursive := o.has 'R' && !o.has 'd'
        reversed := o.has 'r'
        bySize := o.last? ['S', 't', 'U', 'X', 'v', 'f'] = some 'S'
        byExtension := o.last? ['S', 't', 'U', 'X', 'v', 'f'] = some 'X'
        unsorted := o.has 'U' || o.has 'f'
        marks := (o.last? ['F', 'p']).map (· = 'F')
        long := o.last? ['1', 'm', 'C', 'x', 'l', 'n', 'g', 'o'] matches
          some 'l' | some 'n' | some 'g' | some 'o'
        quoted := o.has 'Q', layout := layout }
    let operands := if o.operands.isEmpty then ["."] else o.operands
    let m ← get
    let mut status := 0
    let mut files : List Listed := []
    let mut directories : List Listed := []
    for path in operands do
      let full := resolveFrom m.here path
      let followed := if s.directoriesAsFiles || s.long || s.marks = some true then
          m.tree.locateEntry full
        else (m.tree.locate full).orElseLazy fun _ => m.tree.locateEntry full
      let isDirectory := match followed with
        | .ok l => m.tree.isDirectory l
        | .error _ => systemDirectories.contains path
      match followed with
      | .error e =>
        if isDirectory then directories := directories ++ [⟨path, path⟩]
        else if (device? path).isSome ∨ (programName? path).isSome then
          files := files ++ [⟨path, path⟩]
        else
          status ← blame "ls" 2 ("cannot access " ++ quotedName path ++ ": " ++ errorText e)
      | .ok _ =>
        if isDirectory && !s.directoriesAsFiles then directories := directories ++ [⟨path, path⟩]
        else files := files ++ [⟨path, path⟩]
    sayText (s.render m (s.sort m files))
    let mut first := files.isEmpty
    for e in s.sort m directories do
      status := max status (← s.directory (operands.length > 1) 1000 first e.path)
      first := false
    return status

/-! ## Paths -/

/-- Drops the slashes at the end of a path. -/
def dropSlashes (path : List Char) : List Char := (path.reverse.dropWhile (· = '/')).reverse

/-- The last name of a path, without an ending. -/
def baseName (ending : List Char) (path : ByteString) : ByteString :=
  let trimmed := dropSlashes path.toList
  if trimmed.isEmpty then if path.isEmpty then "" else "/"
  else
    let name := (trimmed.reverse.takeWhile (· ≠ '/')).reverse
    let cut := ending.reverse.isPrefixOf name.reverse && ending.length < name.length
    String.ofList (if cut then name.take (name.length - ending.length) else name)

def basename (args : List ByteString) : Run Nat :=
  withOptions "basename"
    ⟨"as:z", [("multiple", 'a'), ("suffix", 's'), ("zero", 'z')], false⟩ 1 args fun o => do
    let ending := if o.has 'z' then "\x00" else "\n"
    match o.operands with
    | [] => missingOperand "basename" "operand"
    | path :: rest =>
      if o.has 'a' || o.has 's' then
        let cut := ((o.argument? 's').getD "").toList
        for path in o.operands do
          sayText (baseName cut path ++ ending)
        return 0
      else
        match rest with
        | [] =>
          sayText (baseName [] path ++ ending)
          return 0
        | [cut] =>
          sayText (baseName cut.toList path ++ ending)
          return 0
        | _ :: extra :: _ => blameUse "basename" 1 ("extra operand " ++ inQuotes extra)

/-- The path of the directory that a path leads through last. -/
def directoryName (path : ByteString) : ByteString :=
  let trimmed := dropSlashes path.toList
  if trimmed.isEmpty then if path.isEmpty then "." else "/"
  else
    let above := (trimmed.reverse.dropWhile (· ≠ '/')).reverse
    if above.isEmpty then "."
    else
      let above := dropSlashes above
      if above.isEmpty then "/" else String.ofList above

def dirname (args : List ByteString) : Run Nat :=
  withOptions "dirname" ⟨"z", [("zero", 'z')], true⟩ 1 args fun o => do
    let ending := if o.has 'z' then "\x00" else "\n"
    if o.operands.isEmpty then missingOperand "dirname" "operand"
    else
      for path in o.operands do
        sayText (directoryName path ++ ending)
      return 0

/-- The absolute path of a location. -/
def absolutePath (l : Location) : ByteString := ByteString.ofText (Builtin.placePath l)

/-- The absolute path that a path designates, of which the last step need not exist. -/
def canonical? (t : FileTree) (strict : Bool) (full : String) : Except FileError ByteString :=
  match t.locate full with
  | .ok l => .ok (absolutePath l)
  | .error e => if strict then .error e else (t.entryPlace full).map absolutePath

def readlink (args : List ByteString) : Run Nat :=
  withOptions "readlink"
    ⟨"fenmqsvz", [("canonicalize", 'f'), ("no-newline", 'n'), ("canonicalize-existing", 'e'),
      ("canonicalize-missing", 'm')], true⟩ 1 args fun o => do
    if o.operands.isEmpty then missingOperand "readlink" "operand"
    else
      let ending := if o.has 'n' && o.operands.length = 1 then "" else "\n"
      forAll o.operands fun path => do
        let m ← get
        let full ← resolve path
        if o.has 'f' || o.has 'e' || o.has 'm' then
          match canonical? m.tree (o.has 'e') full with
          | .ok shown =>
            sayText (shown ++ ending)
            return 0
          | .error _ => return 1
        else
          match m.tree.locateEntry full with
          | .ok l =>
            match m.tree.entry? l with
            | some (.link target) =>
              sayText (ByteString.ofText target ++ ending)
              return 0
            | _ => return 1
          | .error _ => return 1

def realpath (args : List ByteString) : Run Nat :=
  withOptions "realpath"
    ⟨"emLPqsz", [("canonicalize-existing", 'e'), ("quiet", 'q')], true⟩ 1 args fun o => do
    if o.operands.isEmpty then missingOperand "realpath" "operand"
    else forAll o.operands fun path => do
      let m ← get
      match canonical? m.tree (o.has 'e') (← resolve path) with
      | .ok shown =>
        sayText (shown ++ "\n")
        return 0
      | .error e =>
        if o.has 'q' then return 1
        else blame "realpath" 1 (nameInMessage path ++ ": " ++ errorText e)

/-- The first path of a form that does not exist yet. -/
def freshPath (t : FileTree) (here : Location) (form : Nat → ByteString) : Nat → Nat → ByteString
  | 0, n => form n
  | fuel + 1, n =>
    if t.existsAt (resolveFrom here (form n)) then freshPath t here form fuel (n + 1) else form n

def mktemp (args : List ByteString) : Run Nat :=
  withOptions "mktemp"
    ⟨"dp:qtu", [("directory", 'd'), ("tmpdir", 'p'), ("dry-run", 'u')], true⟩ 1 args fun o => do
    let m ← get
    let template := (o.operands.head?).getD "tmp.XXXXXXXXXX"
    let start := (template.toList.reverse.dropWhile (· = 'X')).reverse
    let count := template.length - start.length
    let directory := if o.operands.isEmpty || o.has 't' || o.has 'p' then
        (o.argument? 'p').getD "/tmp" ++ "/"
      else ""
    let form := fun n : Nat =>
      directory ++ String.ofList (start ++ fillLeft '0' count (toString n).toList)
    let path := freshPath m.tree m.here form 1000 0
    let made ← if o.has 'u' then pure (.ok ())
      else if o.has 'd' then change FileTree.makeDirectory path
      else do pure ((← writeFile path []).mapError .access)
    match made with
    | .ok () =>
      sayText (path ++ "\n")
      return 0
    | .error e =>
      blame "mktemp" 1 ("failed to create file via template " ++ inQuotes template ++ ": " ++
        changeText e)

/-- What a letter of a format says about a file. -/
def statistic (m : Machine) (path : ByteString) (l : Location) (c : Char) : String :=
  let e := m.tree.entry? l
  match c with
  | 'n' => path
  | 's' => toString (ListStyle.sizeOf m ⟨path, path⟩)
  | 'F' => kindName e
  | 'a' => if e = some .directory ∨ m.tree.programs.contains l then "755" else "644"
  | 'U' | 'G' => "root"
  | 'u' | 'g' => "0"
  | '%' => "%"
  | c => String.ofList ['%', c]

/-- Applies the format of a statistic. -/
def statistics (m : Machine) (path : ByteString) (l : Location) : List Char → List Char
  | [] => []
  | '%' :: c :: rest => (statistic m path l c).toList ++ statistics m path l rest
  | c :: rest => c :: statistics m path l rest

def stat (args : List ByteString) : Run Nat :=
  withOptions "stat" ⟨"c:fLt", [("format", 'c'), ("printf", 'p')], true⟩ 1 args fun o => do
    if o.operands.isEmpty then missingOperand "stat" "operand"
    else forAll o.operands fun path => do
      let m ← get
      match m.tree.locateEntry (← resolve path) with
      | .ok l =>
        let format := ((o.argument? 'c').getD "%n").toList
        say (statistics m path l format ++ ['\n'])
        return 0
      | .error e => blame "stat" 1 ("cannot statx " ++ quotedName path ++ ": " ++ errorText e)

end LayoutShell.Host.Program
