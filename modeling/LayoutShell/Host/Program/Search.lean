import LayoutShell.Host.Program.Filters
import LayoutShell.Host.Regex.Reading

/-!
# Searching lines

`grep` shows the lines of files that match one of several expressions.
-/

namespace LayoutShell.Host.Program

open Files

/-- What is searched for. -/
structure Finder where
  patterns : List Regex
  ignoreCase : Bool
  /-- A match must be a whole word. -/
  words : Bool
  /-- A match must be a whole line. -/
  lines : Bool
  negated : Bool

namespace Finder

/-- The lengths of the matches at a position, the longest first, as far as they count. -/
def matchesAt (f : Finder) (s : Regex.Subject) (i : Nat) : List Nat :=
  let stops := f.patterns.flatMap fun r =>
    (Regex.ends r.refers s r { position := i }).map (·.position)
  let counted := stops.filter fun j =>
    (!f.words || (!s.wordBefore i && !s.wordAt j)) && (!f.lines || (i = 0 && j = s.text.size))
  counted.mergeSort fun a b => decide (b ≤ a)

/-- The first match from a position on: where it begins and ends. -/
def findFrom (f : Finder) (s : Regex.Subject) : Nat → Nat → Option (Nat × Nat)
  | 0, _ => none
  | fuel + 1, i =>
    match f.matchesAt s i with
    | j :: _ => some (i, j)
    | [] => f.findFrom s fuel (i + 1)

def subject (f : Finder) (line : List Char) : Regex.Subject :=
  { text := line.toArray, ignoreCase := f.ignoreCase }

/-- A line is one of those that are shown. -/
def selects (f : Finder) (line : List Char) : Bool :=
  let s := f.subject line
  (f.findFrom s (s.text.size + 1) 0).isSome != f.negated

/-- All matches in a line that are not empty. -/
def allMatches (f : Finder) (s : Regex.Subject) : Nat → Nat → List (List Char)
  | 0, _ => []
  | fuel + 1, i =>
    match f.findFrom s (s.text.size + 1 - i) i with
    | none => []
    | some (a, b) =>
      if a = b then f.allMatches s fuel (a + 1)
      else (s.text.extract a b).toList :: f.allMatches s fuel b

end Finder

/-- A text as an expression that matches it. -/
def literalRegex (s : List Char) : Regex :=
  s.foldr (fun c r => .sequence (.char c) r) .empty

/-- Reads the expressions of a text, one in each line. -/
def readPatterns (o : Options) (text : List Char) : Except String (List Regex) :=
  (text.splitOn '\n').mapM fun s =>
    if o.last? ['E', 'F', 'G', 'P'] = some 'F' then .ok (literalRegex s)
    else
      let extended := o.last? ['E', 'F', 'G', 'P'] matches some 'E' | some 'P'
      (Regex.parse ⟨extended, false, true⟩ s).map (·.1)

/-- The lines that are shown, each with its number and whether it is selected. -/
def withContext (before after : Nat) (selected : List (Nat × List Char × Bool)) :
    List (Nat × List Char × Bool) :=
  let chosen := selected.filterMap fun (n, _, b) => if b then some n else none
  selected.filter fun (n, _, b) =>
    b || chosen.any fun k => (k < n && n ≤ k + after) || (n < k && k ≤ n + before)

/-- How results are shown. -/
structure Report where
  name? : Option String
  numbered : Bool
  before : Nat
  after : Nat

/-- A line of the result; lines of the context have hyphens instead of colons. -/
def Report.line (r : Report) (n : Nat) (text : List Char) (selected : Bool) : List Char :=
  let mark := if selected then ":" else "-"
  let start := r.name?.elim "" (· ++ mark) ++ if r.numbered then toString n ++ mark else ""
  start.toList ++ text ++ ['\n']

/-- Lines with a mark between groups that do not touch. -/
def Report.lines (r : Report) (context : Bool) : Option Nat → List (Nat × List Char × Bool) →
    List Char
  | _, [] => []
  | last?, (n, text, selected) :: rest =>
    let gap := match last? with
      | some last => context && last + 1 < n
      | none => false
    (if gap then "--\n".toList else []) ++ r.line n text selected ++
      r.lines context (some n) rest

/-- Selects lines, at most a number of them if that is given. -/
def selectLines (f : Finder) (most? : Option Nat) (lines : List (List Char)) :
    List (Nat × List Char × Bool) :=
  let (out, _, _) := lines.foldl (fun (out, n, count) line =>
    let wanted := most?.all (count < ·)
    let selected := wanted && f.selects line
    ((n, line, selected) :: out, n + 1, if selected then count + 1 else count))
    (([] : List (Nat × List Char × Bool)), 1, 0)
  out.reverse

/-- Searches one text; says whether a line was selected. -/
def searchText (o : Options) (f : Finder) (named context : Bool) (path : ByteString)
    (text : List Char) : Run Bool := do
  let shownName := if path = "-" then "(standard input)" else path
  let number := fun c => (o.argument? c).bind fun s => count? s.toList
  let most? := number 'm'
  let lines := if text.isEmpty then [] else linesOf text
  let selected := selectLines f most? lines
  let chosen := selected.filter (·.2.2)
  let found := !chosen.isEmpty
  let name? := if named then some shownName else none
  if o.has 'q' then return found
  else if o.has 'l' ∨ o.has 'L' then
    if found == o.has 'l' then sayText (shownName ++ "\n")
    return found
  else if o.has 'c' then
    sayText (name?.elim "" (· ++ ":") ++ toString chosen.length ++ "\n")
    return found
  else if text.contains '\x00' ∧ !o.has 'a' then
    if found then warn ("grep: " ++ shownName ++ ": binary file matches")
    return found
  else
    let r : Report :=
      { name? := name?, numbered := o.has 'n'
        before := ((number 'B').or (number 'C')).getD 0
        after := ((number 'A').or (number 'C')).getD 0 }
    if o.has 'o' then
      if !f.negated then
        for (n, line, _) in chosen do
          let s := f.subject line
          for piece in f.allMatches s (line.length + 1) 0 do
            say (r.line n piece true)
    else say (r.lines context none (withContext r.before r.after selected))
    return found

/-- The files below a directory. -/
def filesBelow (m : Machine) : Nat → ByteString → List ByteString
  | 0, _ => []
  | fuel + 1, path =>
    match m.tree.list (resolveFrom m.here path) with
    | .error _ => [path]
    | .ok names => names.flatMap fun name =>
      let inner := if path.toList.getLast? = some '/' then path ++ ByteString.ofText name
        else path ++ "/" ++ ByteString.ofText name
      let isLink := match m.tree.locateEntry (resolveFrom m.here inner) with
        | .ok l => (m.tree.entry? l matches some (.link _))
        | .error _ => true
      if isLink then [] else filesBelow m fuel inner

/-- A file is searched, as far as its name goes. -/
def isIncluded (o : Options) (path : ByteString) : Bool :=
  let name := String.ofList (path.toList.reverse.takeWhile (· ≠ '/')).reverse
  let fits := fun pattern : ByteString => (Pattern.ofText pattern.toList).accepts name.toList
  let included := o.arguments '\x01'
  (included.isEmpty || included.any fits) && !(o.arguments '\x02').any fits

def grepTable : OptionTable :=
  ⟨"EFGPe:f:iyvwxcLlm:oqsbHhnrRA:B:C:aIzTU\x01:\x02:\x03::", [("extended-regexp", 'E'),
    ("fixed-strings", 'F'), ("basic-regexp", 'G'), ("regexp", 'e'), ("file", 'f'),
    ("ignore-case", 'i'), ("invert-match", 'v'), ("word-regexp", 'w'), ("line-regexp", 'x'),
    ("count", 'c'), ("files-without-match", 'L'), ("files-with-matches", 'l'),
    ("max-count", 'm'), ("only-matching", 'o'), ("quiet", 'q'), ("silent", 'q'),
    ("no-messages", 's'), ("with-filename", 'H'), ("no-filename", 'h'), ("line-number", 'n'),
    ("recursive", 'r'), ("after-context", 'A'), ("before-context", 'B'), ("context", 'C'),
    ("text", 'a'), ("include", '\x01'), ("exclude", '\x02'), ("color", '\x03'),
    ("colour", '\x03')], true⟩

/-- Searches with options that precede the arguments. -/
def grepWith (first : List ByteString) (args : List ByteString) : Run Nat := do
  match grepTable.parse (first ++ args) with
  | .error message =>
    warn ("grep: " ++ message)
    usage
  | .ok o =>
    let mut texts := (o.arguments 'e').map String.toList
    for path in o.arguments 'f' do
      match ← readOperand path with
      | .ok text =>
        let text := if text.getLast? = some '\n' then text.dropLast else text
        texts := texts ++ [text]
      | .error e => return ← blame "grep" 2 (path ++ ": " ++ errorText e)
    let given := o.has 'e' || o.has 'f'
    match given, o.operands with
    | false, [] => usage
    | _, operands =>
      let sources := if given then texts else [(operands.headD "").toList]
      let operands := if given then operands else operands.tail
      match (sources.mapM (readPatterns o)).map List.flatten with
      | .error message => blame "grep" 2 message
      | .ok patterns =>
        let f : Finder :=
          { patterns := patterns, ignoreCase := o.has 'i' || o.has 'y', words := o.has 'w'
            lines := o.has 'x', negated := o.has 'v' }
        let recursive := o.has 'r' || o.has 'R'
        let m ← get
        let (files, implicit) : List ByteString × Bool := if recursive then
            let roots := if operands.isEmpty then ["."] else operands
            let found := roots.flatMap fun root =>
              if root = "-" then [root] else filesBelow m 1000 root
            let found := found.filter (isIncluded o)
            if operands.isEmpty then
              (found.map fun path => String.ofList (path.toList.drop 2), true)
            else (found, true)
          else (if operands.isEmpty then ["-"] else operands, false)
        let named := match o.last? ['h', 'H'] with
          | some 'h' => false
          | some _ => true
          | none => files.length > 1 || operands.length > 1 || implicit
        let context := o.has 'A' || o.has 'B' || o.has 'C'
        let mut found := false
        let mut failed := false
        for path in files do
          match ← readOperand path with
          | .ok text =>
            if ← searchText o f named context path text then found := true
          | .error e =>
            failed := true
            if !o.has 's' then warn ("grep: " ++ path ++ ": " ++ errorText e)
        return if failed && !(found && o.has 'q') then 2 else if found then 0 else 1
where
  usage : Run Nat := do
    warn "Usage: grep [OPTION]... PATTERNS [FILE]..."
    warn "Try 'grep --help' for more information."
    return 2

def grep : List ByteString → Run Nat := grepWith []

def egrep : List ByteString → Run Nat := fun args => do
  warn "egrep: warning: egrep is obsolescent; using grep -E"
  grepWith ["-E"] args

def fgrep : List ByteString → Run Nat := fun args => do
  warn "fgrep: warning: fgrep is obsolescent; using grep -F"
  grepWith ["-F"] args

end LayoutShell.Host.Program
