import LayoutShell.Host.Program.Listing

/-!
# Comparing files

`cmp` finds the first byte in which two files differ, and `diff` the lines.
-/

namespace LayoutShell.Host.Program

open Files

/-! ## Bytes -/

/-- The first place where two texts differ: the byte and the line, both from one. -/
def firstDifference : Nat → Nat → List Char → List Char → Option (Nat × Nat)
  | n, line, a :: as, b :: bs =>
    if a = b then firstDifference (n + 1) (if a = '\n' then line + 1 else line) as bs
    else some (n, line)
  | _, _, _, _ => none

def cmp (args : List ByteString) : Run Nat :=
  withOptions "cmp" ⟨"bi:ln:sv", [("silent", 's'), ("quiet", 's'), ("verbose", 'l')], true⟩ 2 args
    fun o => do
    match o.operands with
    | [] => blameUse "cmp" 2 "missing operand after 'cmp'"
    | first :: rest =>
      let second := rest.headD "-"
      match ← readOperand first, ← readOperand second with
      | .error e, _ => if o.has 's' then return 2 else blame "cmp" 2 (first ++ ": " ++ errorText e)
      | _, .error e =>
        if o.has 's' then return 2 else blame "cmp" 2 (second ++ ": " ++ errorText e)
      | .ok s, .ok t =>
        match firstDifference 1 1 s t with
        | some (n, line) =>
          if !o.has 's' then
            sayText (first ++ " " ++ second ++ " differ: char " ++ toString n ++ ", line " ++
              toString line ++ "\n")
          return 1
        | none =>
          if s.length = t.length then return 0
          let (name, shorter) := if s.length < t.length then (first, s) else (second, t)
          if o.has 's' then return 1
          if shorter.isEmpty then blame "cmp" 1 ("EOF on " ++ name ++ " which is empty")
          else
            let lines := shorter.count '\n'
            let place := if shorter.getLast? = some '\n' then "line " ++ toString lines
              else "in line " ++ toString (lines + 1)
            blame "cmp" 1
              ("EOF on " ++ name ++ " after byte " ++ toString shorter.length ++ ", " ++ place)

/-! ## Lines -/

/-- A step from one list of lines to another. -/
inductive EditStep
  | keep
  | remove
  | add
  deriving DecidableEq

/-- For each start of `b` how many lines it has in common with `a`; from the row of the rest of
`a`. -/
def commonRow (alike : List Char → List Char → Bool) (a : List Char) :
    List (List Char) → List Nat → List Nat
  | [], _ => [0]
  | b :: bs, below =>
    let right := commonRow alike a bs below.tail
    let here := if alike a b then below.tail.headD 0 + 1 else max (below.headD 0) (right.headD 0)
    here :: right

/-- The rows of common lines for all ends of a list, the longest first. -/
def commonRows (alike : List Char → List Char → Bool) (b : List (List Char)) :
    List (List Char) → List (List Nat)
  | [] => [List.replicate (b.length + 1) 0]
  | a :: as =>
    let rows := commonRows alike b as
    commonRow alike a b (rows.headD []) :: rows

/-- The steps that lead from one list to another and keep as many lines as possible. -/
def editSteps (alike : List Char → List Char → Bool) :
    Nat → List (List Char) → List (List Char) → List (List Nat) → List EditStep
  | 0, _, _, _ => []
  | _, [], bs, _ => bs.map fun _ => .add
  | _, as, [], _ => as.map fun _ => .remove
  | fuel + 1, a :: as, b :: bs, rows =>
    if alike a b then .keep :: editSteps alike fuel as bs (rows.tail.map List.tail)
    else
      let removing := (rows.getD 1 []).headD 0
      let adding := (rows.headD []).getD 1 0
      if adding ≤ removing then .remove :: editSteps alike fuel as (b :: bs) rows.tail
      else .add :: editSteps alike fuel (a :: as) bs (rows.map List.tail)

/-- A change: the lines that are removed and added, and where. -/
structure Hunk where
  /-- The lines before it in each list. -/
  before : Nat × Nat
  removed : List (List Char)
  added : List (List Char)

/-- Groups steps into changes. -/
def hunks : Option Hunk → Nat → Nat → List EditStep → List (List Char) → List (List Char) →
    List Hunk
  | current?, _, _, [], _, _ => current?.toList
  | current?, i, j, step :: steps, as, bs =>
    let current := current?.getD ⟨(i, j), [], []⟩
    match step with
    | .keep => current?.toList ++ hunks none (i + 1) (j + 1) steps as.tail bs.tail
    | .remove =>
      hunks (some { current with removed := current.removed ++ [as.headD []] }) (i + 1) j steps
        as.tail bs
    | .add =>
      hunks (some { current with added := current.added ++ [bs.headD []] }) i (j + 1) steps as
        bs.tail

/-- A range of lines. -/
def lineRange (before count : Nat) : String :=
  if count = 0 then toString before
  else if count = 1 then toString (before + 1)
  else toString (before + 1) ++ "," ++ toString (before + count)

/-- A line of a change; the last line of a file may lack an end. -/
def diffLine (mark : String) (line : List Char) : List Char :=
  let body := line.takeWhile (· ≠ '\n')
  mark.toList ++ body ++ '\n' ::
    if line.getLast? = some '\n' then [] else "\\ No newline at end of file\n".toList

/-- A change in the normal form. -/
def Hunk.render (h : Hunk) : List Char :=
  let letter := if h.removed.isEmpty then "a" else if h.added.isEmpty then "d" else "c"
  let title := lineRange h.before.1 h.removed.length ++ letter ++
    lineRange h.before.2 h.added.length ++ "\n"
  title.toList ++ h.removed.flatMap (diffLine "< ") ++
    (if letter = "c" then "---\n".toList else []) ++ h.added.flatMap (diffLine "> ")

/-- The steps with their lines and the number of lines before each. -/
def numberedSteps : Nat → Nat → List EditStep → List (List Char) → List (List Char) →
    List (Nat × Nat × EditStep × List Char)
  | _, _, [], _, _ => []
  | i, j, .keep :: steps, as, bs =>
    (i, j, .keep, as.headD []) :: numberedSteps (i + 1) (j + 1) steps as.tail bs.tail
  | i, j, .remove :: steps, as, bs =>
    (i, j, .remove, as.headD []) :: numberedSteps (i + 1) j steps as.tail bs
  | i, j, .add :: steps, as, bs =>
    (i, j, .add, bs.headD []) :: numberedSteps i (j + 1) steps as bs.tail

/-- Cuts steps where more lines than the context are kept. -/
def unifiedGroups (context : Nat) (steps : List (Nat × Nat × EditStep × List Char)) :
    List (List (Nat × Nat × EditStep × List Char)) :=
  let changed := steps.zipIdx.filterMap fun (s, k) => if s.2.2.1 = .keep then none else some k
  let near := steps.zipIdx.filter fun (_, k) =>
    changed.any fun c => c ≤ k + context && k ≤ c + context
  let (groups, _) := near.foldl (fun (groups, last?) (s, k) =>
    match groups, last? with
    | group :: rest, some last =>
      if k = last + 1 then ((group ++ [s]) :: rest, some k) else ([s] :: groups, some k)
    | groups, _ => ([s] :: groups, some k))
    (([] : List (List (Nat × Nat × EditStep × List Char))), (none : Option Nat))
  groups.reverse

/-- A group of steps in the unified form. -/
def unifiedHunk (group : List (Nat × Nat × EditStep × List Char)) : List Char :=
  let (i, j) := match group with
    | (i, j, _) :: _ => (i, j)
    | [] => (0, 0)
  let removed := group.filter fun s => s.2.2.1 ≠ .add
  let added := group.filter fun s => s.2.2.1 ≠ .remove
  let range := fun (start count : Nat) =>
    let first := if count = 0 then start else start + 1
    if count = 1 then toString first else toString first ++ "," ++ toString count
  ("@@ -" ++ range i removed.length ++ " +" ++ range j added.length ++ " @@\n").toList ++
    group.flatMap fun (_, _, step, line) =>
      diffLine (match step with
        | .keep => " "
        | .remove => "-"
        | .add => "+") line

/-- The lines that count as alike. -/
def alikeLines (o : Options) (a b : List Char) : Bool :=
  let fold := fun s : List Char =>
    let s := if o.has 'i' then s.map Char.toLower else s
    if o.has 'w' then s.filter fun c => c ≠ ' ' && c ≠ '\t'
    else if o.has 'b' then
      let words := (s.splitOn ' ').filter (!·.isEmpty)
      [' '].intercalate words
    else s
  fold a = fold b

/-- Compares two texts. -/
def diffTexts (o : Options) (first second : ByteString) (s t : List Char) : Run Nat := do
  let as := linesWithEnds s
  let bs := linesWithEnds t
  let alike := alikeLines o
  let steps := editSteps alike (as.length + bs.length + 1) as bs (commonRows alike bs as)
  if steps.all (· = .keep) then
    if o.has 's' then
      sayText ("Files " ++ first ++ " and " ++ second ++ " are identical\n")
    return 0
  else if o.has 'q' then
    sayText ("Files " ++ first ++ " and " ++ second ++ " differ\n")
    return 1
  else if o.has 'u' ∨ o.has 'U' then
    let context := ((o.argument? 'U').map fun n => Arithmetic.numeral 10 n.toList).getD 3
    let stamp := "\t1970-01-01 00:00:00.000000000 +0000\n"
    sayText ("--- " ++ first ++ stamp ++ "+++ " ++ second ++ stamp)
    for group in unifiedGroups context (numberedSteps 0 0 steps as bs) do
      say (unifiedHunk group)
    return 1
  else
    for h in hunks none 0 0 steps as bs do
      say h.render
    return 1
where
  linesWithEnds (s : List Char) : List (List Char) :=
    let pieces := s.splitOn '\n'
    let whole := pieces.dropLast.map (· ++ ['\n'])
    match pieces.getLast? with
    | some [] | none => whole
    | some last => whole ++ [last]

/-- Compares two paths; directories are compared name by name. -/
def diffPaths (o : Options) (title : String) : Nat → Bool → ByteString → ByteString → Run Nat
  | 0, _, _, _ => return 2
  | fuel + 1, top, first, second => do
    let m ← get
    let isDirectory := fun path : ByteString => m.tree.isDirectoryAt (resolveFrom m.here path)
    match isDirectory first, isDirectory second with
    | true, true =>
      if !top ∧ !o.has 'r' then
        sayText ("Common subdirectories: " ++ first ++ " and " ++ second ++ "\n")
        return 0
      let names := fun path : ByteString =>
        ((m.tree.list (resolveFrom m.here path)).toOption.getD []).map ByteString.ofText
      let all := ((names first) ++ (names second)).eraseDups.mergeSort fun a b => decide (a ≤ b)
      let mut status := 0
      for name in all do
        if !(names second).contains name then
          sayText ("Only in " ++ first ++ ": " ++ name ++ "\n")
          status := max status 1
        else if !(names first).contains name then
          sayText ("Only in " ++ second ++ ": " ++ name ++ "\n")
          status := max status 1
        else
          status := max status
            (← diffPaths o title fuel false (pathIn first name) (pathIn second name))
      return status
    | true, false =>
      if top then diffPaths o title fuel false (pathIn first (lastName second)) second
      else
        sayText ("File " ++ first ++ " is a directory while file " ++ second ++
          " is a regular file\n")
        return 1
    | false, true =>
      if top then diffPaths o title fuel false first (pathIn second (lastName first))
      else
        sayText ("File " ++ first ++ " is a regular file while file " ++ second ++
          " is a directory\n")
        return 1
    | false, false =>
      match ← readOperand first, ← readOperand second with
      | .ok s, .ok t =>
        if !top ∧ s ≠ t ∧ !o.has 'q' ∧ !title.isEmpty then
          sayText (title ++ first ++ " " ++ second ++ "\n")
        diffTexts o first second s t
      | .error e, .ok _ => blame "diff" 2 (first ++ ": " ++ errorText e)
      | .ok _, .error e => blame "diff" 2 (second ++ ": " ++ errorText e)
      | .error e, .error other =>
        warn ("diff: " ++ first ++ ": " ++ errorText e)
        blame "diff" 2 (second ++ ": " ++ errorText other)

def diff (args : List ByteString) : Run Nat :=
  withOptions "diff"
    ⟨"abBcdeEiNqrstuU:w", [("brief", 'q'), ("recursive", 'r'), ("unified", 'u'),
      ("ignore-case", 'i'), ("ignore-all-space", 'w'), ("ignore-space-change", 'b'),
      ("report-identical-files", 's'), ("new-file", 'N')], true⟩ 2 args fun o => do
    match o.operands with
    | [first, second] =>
      let shown := String.join ((args.filter fun arg =>
        arg.toList.head? = some '-' && arg.length > 1).map (· ++ " "))
      diffPaths o ("diff " ++ shown) 1000 true first second
    | [] => blameUse "diff" 2 "missing operand after 'diff'"
    | [only] => blameUse "diff" 2 ("missing operand after " ++ inQuotes only)
    | _ :: _ :: extra :: _ => blameUse "diff" 2 ("extra operand " ++ inQuotes extra)

end LayoutShell.Host.Program
