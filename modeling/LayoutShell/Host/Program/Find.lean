import LayoutShell.Host.Program.Listing

/-!
# Walking through directories

`find` walks through directories and evaluates an expression at each entry.
-/

namespace LayoutShell.Host.Program

open Files

/-! ## Expressions -/

/-- A comparison with a number. -/
inductive Compared
  | less (n : Nat)
  | equal (n : Nat)
  | more (n : Nat)

def Compared.holds (k : Nat) : Compared → Bool
  | less n => k < n
  | equal n => k = n
  | more n => n < k

/-- What is asked of an entry or done with it. -/
inductive Criterion
  | always (b : Bool)
  | name (pattern : ByteString) (ignoreCase : Bool)
  | path (pattern : ByteString) (ignoreCase : Bool)
  | kind (letters : List Char)
  | empty
  | size (c : Compared) (unit : Nat)
  | runnable
  | print (ending : String)
  | printForm (format : ByteString)
  | delete
  | prune
  | quit
  /-- Runs a command for each entry, in which braces stand for its path. -/
  | run (command : List ByteString)
  /-- Runs a command at the end for all entries. -/
  | runAll (number : Nat) (command : List ByteString)
  | not (c : Criterion)
  | and (a b : Criterion)
  | or (a b : Criterion)

/-- Something is done with entries. -/
def Criterion.acts : Criterion → Bool
  | print _ | printForm _ | delete | run _ | runAll _ _ => true
  | not c => c.acts
  | and a b | or a b => a.acts || b.acts
  | _ => false

/-- What is left of an expression, and the settings that it makes. -/
structure FindSource where
  rest : List ByteString
  least : Nat := 0
  most? : Option Nat := none
  /-- Directories come after what is in them. -/
  deep : Bool := false
  commands : Nat := 0

abbrev FindParser := StateT FindSource (Except String)

def findPeek : FindParser (Option ByteString) := return (← get).rest.head?

def findSkip : FindParser Unit := modify fun s => { s with rest := s.rest.tail }

/-- The argument of a test. -/
def findArgument (test : String) : FindParser ByteString := do
  match ← findPeek with
  | some arg =>
    findSkip
    return arg
  | none => throw ("missing argument to `" ++ test ++ "'")

/-- The words of a command up to its end; the flag says that it takes all entries. -/
def findCommand (test : String) : Nat → FindParser (List ByteString × Bool)
  | 0 => throw ("missing argument to `" ++ test ++ "'")
  | fuel + 1 => do
    match (← get).rest with
    | ";" :: rest =>
      modify fun s => { s with rest := rest }
      return ([], false)
    | "\x7b\x7d" :: "+" :: rest =>
      modify fun s => { s with rest := rest }
      return (["\x7b\x7d"], true)
    | word :: rest =>
      modify fun s => { s with rest := rest }
      let (words, all) ← findCommand test fuel
      return (word :: words, all)
    | [] => throw ("missing argument to `" ++ test ++ "'")

/-- A number with a sign that says how to compare. -/
def compared (test : String) (text : ByteString) : FindParser (Compared × List Char) := do
  let read := fun (s : List Char) (make : Nat → Compared) => do
    let digits := s.takeWhile Char.isDigit
    if digits.isEmpty then throw ("invalid argument `" ++ text ++ "' to `" ++ test ++ "'")
    return (make (Arithmetic.numeral 10 digits), s.drop digits.length)
  match text.toList with
  | '+' :: rest => read rest .more
  | '-' :: rest => read rest .less
  | rest => read rest .equal

def findNumber (test : String) : FindParser Nat := do
  let text ← findArgument test
  if text.isEmpty ∨ !text.toList.all Char.isDigit then
    throw ("Expected a positive decimal integer argument to " ++ test ++ ", but got " ++
      inQuotes text)
  return Arithmetic.numeral 10 text.toList

/-- Reads a test or an action. -/
def findTest (test : String) : FindParser Criterion := do
  match test with
  | "-name" => return .name (← findArgument test) false
  | "-iname" => return .name (← findArgument test) true
  | "-path" | "-wholename" => return .path (← findArgument test) false
  | "-ipath" | "-iwholename" => return .path (← findArgument test) true
  | "-type" =>
    let letters := (← findArgument test).toList.filter (· ≠ ',')
    match letters.find? fun c => !"bcdpfls".toList.contains c with
    | some c => throw ("Unknown argument to -type: " ++ c.toString)
    | none => return .kind letters
  | "-empty" => return .empty
  | "-size" =>
    let (c, unit) ← compared test (← findArgument test)
    match unit with
    | ['c'] => return .size c 1
    | ['w'] => return .size c 2
    | [] | ['b'] => return .size c 512
    | ['k'] => return .size c 1024
    | ['M'] => return .size c (1024 * 1024)
    | ['G'] => return .size c (1024 * 1024 * 1024)
    | _ => throw ("invalid -size type `" ++ String.ofList unit ++ "'")
  | "-maxdepth" =>
    let n ← findNumber test
    modify fun s => { s with most? := some n }
    return .always true
  | "-mindepth" =>
    let n ← findNumber test
    modify fun s => { s with least := n }
    return .always true
  | "-depth" =>
    modify fun s => { s with deep := true }
    return .always true
  | "-print" => return .print "\n"
  | "-print0" => return .print "\x00"
  | "-printf" => return .printForm (← findArgument test)
  | "-delete" =>
    modify fun s => { s with deep := true }
    return .delete
  | "-prune" => return .prune
  | "-quit" => return .quit
  | "-true" | "-xdev" | "-mount" | "-readable" | "-writable" | "-nowarn" | "-noleaf" =>
    return .always true
  | "-false" => return .always false
  | "-executable" => return .runnable
  | "-newer" =>
    let _ ← findArgument test
    return .always false
  | "-mtime" | "-mmin" | "-atime" | "-ctime" | "-amin" | "-cmin" =>
    let (c, _) ← compared test (← findArgument test)
    return .always (c.holds 0)
  | "-user" | "-group" | "-perm" | "-links" =>
    let _ ← findArgument test
    return .always true
  | "-exec" | "-execdir" =>
    match ← findCommand test ((← get).rest.length + 1) with
    | (command, false) => return .run command
    | (command, true) =>
      let n := (← get).commands
      modify fun s => { s with commands := n + 1 }
      return .runAll n command.dropLast
  | test =>
    if test.toList.head? = some '-' then throw ("unknown predicate `" ++ test ++ "'")
    else throw ("paths must precede expression: `" ++ test ++ "'")

mutual

/-- Reads criteria joined by `-o`. -/
def findEither : Nat → FindParser Criterion
  | 0 => throw "too deep"
  | fuel + 1 => do
    let a ← findBoth fuel
    match ← findPeek with
    | some "-o" | some "-or" =>
      findSkip
      return .or a (← findEither fuel)
    | _ => return a

/-- Reads criteria that stand side by side or are joined by `-a`. -/
def findBoth : Nat → FindParser Criterion
  | 0 => throw "too deep"
  | fuel + 1 => do
    let a ← findOne fuel
    match ← findPeek with
    | none | some "-o" | some "-or" | some ")" => return a
    | some "-a" | some "-and" =>
      findSkip
      return .and a (← findBoth fuel)
    | some _ => return .and a (← findBoth fuel)

def findOne : Nat → FindParser Criterion
  | 0 => throw "too deep"
  | fuel + 1 => do
    match ← findPeek with
    | none => throw "expected an expression after something"
    | some "!" | some "-not" =>
      findSkip
      return .not (← findOne fuel)
    | some "(" =>
      findSkip
      let c ← findEither fuel
      match ← findPeek with
      | some ")" =>
        findSkip
        return c
      | _ =>
        throw ("invalid expression; I was expecting to find a ')' somewhere but did not see one.")
    | some test =>
      findSkip
      findTest test

end

/-! ## Walking -/

/-- An entry on the way. -/
structure Visited where
  path : ByteString
  depth : Nat
  entry : Entry
  location : Location

/-- What is remembered on the way. -/
structure Walk where
  pruned : Bool := false
  ended : Bool := false
  failed : Bool := false
  /-- The paths for commands that take all entries, the last one first. -/
  gathered : List (Nat × ByteString) := []

/-- The text of a path for a format. -/
def pathForm (m : Machine) (v : Visited) (c : Char) : List Char :=
  match c with
  | 'p' => v.path.toList
  | 'f' => (baseName [] v.path).toList
  | 'h' => (directoryName v.path).toList
  | 's' => (toString (ListStyle.sizeOf m ⟨v.path, v.path⟩)).toList
  | 'd' => (toString v.depth).toList
  | 'y' => match v.entry with
    | .directory => ['d']
    | .link _ => ['l']
    | .file _ => ['f']
  | 'P' =>
    let names := v.path.toList.splitOn '/'
    ['/'].intercalate (names.drop (names.length - v.depth))
  | 'l' => match v.entry with
    | .link target => (ByteString.ofText target).toList
    | _ => []
  | '%' => ['%']
  | c => ['%', c]

/-- Applies a format. -/
def pathText (m : Machine) (v : Visited) : Nat → List Char → List Char
  | 0, _ | _, [] => []
  | fuel + 1, '%' :: c :: rest => pathForm m v c ++ pathText m v fuel rest
  | fuel + 1, '\\' :: rest =>
    let (c, rest) := takeEscape rest
    c :: pathText m v fuel rest
  | fuel + 1, c :: rest => c :: pathText m v fuel rest

/-- Puts a path in place of braces. -/
def putPath (path : List Char) : List Char → List Char
  | [] => []
  | '\x7b' :: '\x7d' :: rest => path ++ putPath path rest
  | c :: rest => c :: putPath path rest

/-- Runs a command; says whether it succeeds. -/
def runFor (launch : Launch) (command : List ByteString) : Run Bool := do
  match ← launch command with
  | .ok status => return status = 0
  | .error e =>
    warn ("find: " ++ inQuotes (command.headD "") ++ ": " ++ e.message)
    return false

/-- Evaluates a criterion at an entry. -/
def Criterion.holds (launch : Launch) (v : Visited) : Criterion → Walk → Run (Bool × Walk)
  | always b, w => return (b, w)
  | name pattern ignoreCase, w =>
    let shown := (baseName [] v.path).toList
    return (fits pattern ignoreCase shown, w)
  | path pattern ignoreCase, w => return (fits pattern ignoreCase v.path.toList, w)
  | kind letters, w =>
    return (letters.contains (match v.entry with
      | .directory => 'd'
      | .link _ => 'l'
      | .file _ => 'f'), w)
  | empty, w => do
    match v.entry with
    | .file content => return (content.isEmpty, w)
    | .directory => return (((← get).tree.children v.location).isEmpty, w)
    | .link _ => return (false, w)
  | size c unit, w => do
    let n := ListStyle.sizeOf (← get) ⟨v.path, v.path⟩
    return (c.holds ((n + unit - 1) / unit), w)
  | runnable, w => do
    let m ← get
    return (v.entry = .directory || m.tree.programs.contains v.location, w)
  | print ending, w => do
    sayText (v.path ++ ending)
    return (true, w)
  | printForm format, w => do
    say (pathText (← get) v (format.length + 1) format.toList)
    return (true, w)
  | delete, w => do
    if v.path = "." then return (true, w)
    let removal := if v.entry = .directory then FileTree.removeDirectory else FileTree.removeFile
    match ← change removal v.path with
    | .ok () => return (true, w)
    | .error e =>
      warn ("find: cannot delete " ++ quotedName v.path ++ ": " ++ changeText e)
      return (false, { w with failed := true })
  | prune, w => return (true, { w with pruned := true })
  | quit, w => return (true, { w with ended := true })
  | run command, w => do
    let words := command.map fun word => String.ofList (putPath v.path.toList word.toList)
    return (← runFor launch words, w)
  | runAll n _, w => return (true, { w with gathered := (n, v.path) :: w.gathered })
  | not c, w => do
    let (b, w) ← c.holds launch v w
    return (!b, w)
  | and a b, w => do
    let (x, w) ← a.holds launch v w
    if x && !w.ended then b.holds launch v w else return (x, w)
  | or a b, w => do
    let (x, w) ← a.holds launch v w
    if x || w.ended then return (x, w) else b.holds launch v w
where
  fits (pattern : ByteString) (ignoreCase : Bool) (s : List Char) : Bool :=
    let fold := fun l : List Char => if ignoreCase then l.map Char.toLower else l
    (Pattern.ofText (fold pattern.toList)).accepts (fold s)

/-- How directories are walked through. -/
structure WalkStyle where
  follow : Bool
  least : Nat
  most? : Option Nat
  deep : Bool

/-- Walks through an entry and what is below it. -/
def walkFrom (launch : Launch) (style : WalkStyle) (c : Criterion) :
    Nat → Nat → Bool → ByteString → Walk → Run Walk
  | 0, _, _, _, w => return w
  | fuel + 1, depth, follow, path, w => do
    if w.ended then return w
    let m ← get
    let full := resolveFrom m.here path
    let found := if follow then
        (m.tree.locate full).orElseLazy fun _ => m.tree.locateEntry full
      else m.tree.locateEntry full
    match found with
    | .error e =>
      warn ("find: " ++ quotedName path ++ ": " ++ errorText e)
      return { w with failed := true }
    | .ok l =>
      let v : Visited := ⟨path, depth, (m.tree.entry? l).getD .directory, l⟩
      let visit := fun (w : Walk) => do
        if style.least ≤ depth then return (← c.holds launch v w).2 else return w
      let below := fun (w : Walk) => do
        if !m.tree.isDirectory l || !style.most?.all (depth < ·) || w.pruned || w.ended then
          return { w with pruned := false }
        else
          let mut w := w
          for name in m.tree.children l do
            w ← walkFrom launch style c fuel (depth + 1) style.follow
              (pathIn path (ByteString.ofText name)) w
          return w
      if style.deep then visit (← below w) else below (← visit w)

/-- The commands that take all entries. -/
def Criterion.lastCommands : Criterion → List (Nat × List ByteString)
  | runAll n command => [(n, command)]
  | not c => c.lastCommands
  | and a b | or a b => a.lastCommands ++ b.lastCommands
  | _ => []

def find (launch : Launch) (args : List ByteString) : Run Nat := do
  let leading := args.takeWhile fun arg => arg = "-L" ∨ arg = "-P" ∨ arg = "-H"
  let follow := leading.getLast? = some "-L"
  let args := args.drop leading.length
  let isExpression := fun arg : ByteString =>
    arg.toList.head? = some '-' && arg.length > 1 || arg = "!" || arg = "("
  let roots := args.takeWhile fun arg => !isExpression arg
  let expression := args.drop roots.length
  let parsed : Except String (Criterion × FindSource) :=
    if expression.isEmpty then .ok (.print "\n", { rest := [] })
    else do
      let (c, s) ← (findEither (4 * expression.length + 8)).run { rest := expression }
      match s.rest with
      | [] => return (if c.acts then c else .and c (.print "\n"), s)
      | extra :: _ => throw ("paths must precede expression: `" ++ extra ++ "'")
  match parsed with
  | .error message => blame "find" 1 message
  | .ok (c, s) =>
    let style : WalkStyle := ⟨follow, s.least, s.most?, s.deep⟩
    let mut w : Walk := {}
    for root in (if roots.isEmpty then ["."] else roots) do
      w ← walkFrom launch style c 1000 0 (follow || leading.getLast? = some "-H") root w
    for (n, command) in c.lastCommands do
      let paths := w.gathered.reverse.filterMap fun (k, path) => if k = n then some path else none
      if !paths.isEmpty then
        if !(← runFor launch (command ++ paths)) then w := { w with failed := true }
    return if w.failed then 1 else 0

end LayoutShell.Host.Program
