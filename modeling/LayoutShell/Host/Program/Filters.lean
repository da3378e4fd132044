import LayoutShell.Host.Printing
import LayoutShell.Host.Program.Options
import LayoutShell.Host.Program.Quoting

/-!
# Programs that filter lines

`head`, `tail`, `wc`, `tac`, `rev`, `nl`, `tee`, `paste`, `fold`, `expand`, `unexpand`, `comm` and
`yes`.
-/

namespace LayoutShell.Host.Program

open Files

/-! ## Lines and numbers -/

/-- The lines of a text with the ends that they have. -/
def linesWithEnds (ending : Char) (s : List Char) : List (List Char) :=
  let pieces := s.splitOn ending
  let whole := pieces.dropLast.map (· ++ [ending])
  match pieces.getLast? with
  | some [] | none => whole
  | some last => whole ++ [last]

/-- The factor that a letter after a number stands for. -/
def factor? (s : List Char) : Option Nat :=
  match s with
  | [] => some 1
  | ['b'] => some 512
  | ['k', 'B'] => some 1000
  | ['K'] | ['k'] | ['K', 'i', 'B'] => some 1024
  | ['M', 'B'] => some (1000 * 1000)
  | ['M'] | ['m'] => some (1024 * 1024)
  | ['G'] => some (1024 * 1024 * 1024)
  | _ => none

/-- A number with a factor after it. -/
def count? (s : List Char) : Option Nat :=
  let digits := s.takeWhile Char.isDigit
  if digits.isEmpty then none
  else (factor? (s.drop digits.length)).map (Arithmetic.numeral 10 digits * ·)

/-- Replaces an option `-5` by `-n 5`. -/
def expandNumberOption (args : List ByteString) : List ByteString :=
  match args with
  | first :: rest =>
    match first.toList with
    | '-' :: digits =>
      if !digits.isEmpty ∧ digits.all Char.isDigit then "-n" :: String.ofList digits :: rest
      else args
    | _ => args
  | [] => []

def standardInput : String := "standard input"

/-- A stream reads a file and not the output of a command. -/
def readsFile (stream : Nat) : Run Bool := do
  let m ← get
  return (m.streams.lookup stream).any fun i => m.channels[i]? matches some (.file ..)

/-! ## Parts of texts -/

/-- A part at the start or the end of a text. -/
structure Extent where
  /-- Lines are counted, not bytes. -/
  lines : Bool
  /-- The count says what is left out. -/
  complement : Bool
  count : Nat

/-- The start of a text. -/
def Extent.ofStart (p : Extent) (s : List Char) : List Char :=
  if p.lines then
    let lines := linesWithEnds '\n' s
    (lines.take (if p.complement then lines.length - p.count else p.count)).flatten
  else s.take (if p.complement then s.length - p.count else p.count)

/-- The end of a text. -/
def Extent.ofEnd (p : Extent) (s : List Char) : List Char :=
  if p.lines then
    let lines := linesWithEnds '\n' s
    (lines.drop (if p.complement then p.count - 1 else lines.length - p.count)).flatten
  else s.drop (if p.complement then p.count - 1 else s.length - p.count)

/-- The part that options describe; a sign before the count takes the complement. -/
def extentOf (program : String) (sign : Char) (o : Options) : Except String Extent :=
  let read := fun (lines : Bool) (text : ByteString) =>
    let (complement, digits) := match text.toList with
      | c :: rest => if c = sign then (true, rest) else
          if c = '-' ∧ sign = '+' then (false, rest) else (false, c :: rest)
      | [] => (false, [])
    match count? digits with
    | some n => .ok ⟨lines, complement, n⟩
    | none =>
      let what := if lines then "lines" else "bytes"
      .error (program ++ ": invalid number of " ++ what ++ ": " ++ inQuotes text)
  match (o.given.reverse.find? fun (c, _) => c = 'n' || c = 'c') with
  | some ('c', some text) => read false text
  | some (_, some text) => read true text
  | _ => .ok ⟨true, false, 10⟩

/-- Shows parts of files, with titles if there are several. -/
def showParts (program : String) (o : Options) (part : List Char → List Char) : Run Nat := do
  let operands := if o.operands.isEmpty then ["-"] else o.operands
  let titled := match o.last? ['q', 'v'] with
    | some 'q' => false
    | some _ => true
    | none => operands.length > 1
  let mut status := 0
  let mut first := true
  for path in operands do
    let name := if path = "-" then standardInput else path
    let title := (if first then "" else "\n") ++ "==> " ++ name ++ " <==\n"
    let text ← if path = "-" then pure (.ok (← peekRest 0)) else readFile path
    match text with
    | .error .isDirectory =>
      if titled then sayText title
      first := false
      status ← blame program 1 ("error reading " ++ quotedName name ++ ": Is a directory")
    | .error e =>
      status ← blame program 1
        ("cannot open " ++ quotedName path ++ " for reading: " ++ errorText e)
    | .ok text =>
      let shown := part text
      if titled then sayText title
      first := false
      if path = "-" then
        let exact := program = "head" && (← readsFile 0)
        consume 0 (if exact then shown.length else text.length)
      say shown
  return status

def head (args : List ByteString) : Run Nat :=
  withOptions "head"
    ⟨"c:n:qvz", [("bytes", 'c'), ("lines", 'n'), ("quiet", 'q'), ("silent", 'q'),
      ("verbose", 'v'), ("zero-terminated", 'z')], true⟩ 1 (expandNumberOption args) fun o =>
    match extentOf "head" '-' o with
    | .error message => do
      warn message
      return 1
    | .ok p => showParts "head" o p.ofStart

def tail (args : List ByteString) : Run Nat :=
  let args := match args with
    | first :: rest =>
      match first.toList with
      | '+' :: digits =>
        if !digits.isEmpty ∧ digits.all Char.isDigit then "-n" :: first :: rest else args
      | _ => expandNumberOption args
    | [] => []
  withOptions "tail"
    ⟨"c:n:qvzfFs:", [("bytes", 'c'), ("lines", 'n'), ("quiet", 'q'), ("silent", 'q'),
      ("verbose", 'v'), ("follow", 'f')], true⟩ 1 args fun o =>
    match extentOf "tail" '+' o with
    | .error message => do
      warn message
      return 1
    | .ok p => showParts "tail" o p.ofEnd

/-! ## Counting -/

/-- The counts of a text. -/
structure Counts where
  lines : Nat := 0
  words : Nat := 0
  bytes : Nat := 0
  longest : Nat := 0

/-- Counts the words of a text and the columns of its longest line. -/
def countWords : Bool → Nat → Nat → Nat → List Char → Nat × Nat
  | _, column, words, longest, [] => (words, max longest column)
  | inside, column, words, longest, c :: rest =>
    if c = '\n' ∨ c = '\r' ∨ c = '\x0c' then
      countWords false 0 words (max longest column) rest
    else if c = '\t' then countWords false (column + 8 - column % 8) words longest rest
    else if c = ' ' then countWords false (column + 1) words longest rest
    else if c = '\x0b' then countWords false column words longest rest
    else if ' ' < c ∧ c < '\x7f' then
      countWords true (column + 1) (if inside then words else words + 1) longest rest
    else countWords inside column words longest rest

def countsOf (s : List Char) : Counts :=
  let (words, longest) := countWords false 0 0 0 s
  { lines := s.count '\n', words := words, bytes := s.length, longest := longest }

def Counts.add (a b : Counts) : Counts :=
  ⟨a.lines + b.lines, a.words + b.words, a.bytes + b.bytes, max a.longest b.longest⟩

/-- The counts that options ask for, put together with a name. -/
def Counts.render (c : Counts) (o : Options) (width : Nat) (name? : Option String) : String :=
  let all := !(o.has 'l' || o.has 'w' || o.has 'c' || o.has 'm' || o.has 'L')
  let shown := [(all || o.has 'l', c.lines), (all || o.has 'w', c.words), (o.has 'm', c.bytes),
    (all || o.has 'c', c.bytes), (o.has 'L', c.longest)].filterMap fun (shown, n) =>
      if shown then some (String.ofList (fillLeft ' ' width (toString n).toList)) else none
  String.intercalate " " shown ++ name?.elim "" (" " ++ ·) ++ "\n"

def wc (args : List ByteString) : Run Nat :=
  withOptions "wc"
    ⟨"clLmw", [("bytes", 'c'), ("chars", 'm'), ("lines", 'l'), ("words", 'w'),
      ("max-line-length", 'L')], true⟩ 1 args fun o => do
    let operands := if o.operands.isEmpty then ["-"] else o.operands
    let fromFile ← readsFile 0
    let mut texts : List (ByteString × Except FileError (List Char)) := []
    for path in operands do
      texts := texts ++ [(path, ← readOperand path)]
    let sizes := texts.map fun (path, text) =>
      match text with
      | .ok s => if path = "-" ∧ !fromFile then (0, false) else (s.length, true)
      | .error .isDirectory => (0, false)
      | .error _ => (0, true)
    let total := (sizes.map (·.1)).foldl (· + ·) 0
    let columns := if o.given.eraseDups.isEmpty then 3 else o.given.eraseDups.length
    let width := if operands.length = 1 ∧ columns = 1 then 1
      else max (toString total).length (if sizes.all (·.2) then 1 else 7)
    let mut sum : Counts := {}
    let mut status := 0
    for (path, text) in texts do
      let name? := if o.operands.isEmpty then none else some path
      match text with
      | .ok s =>
        sum := sum.add (countsOf s)
        sayText ((countsOf s).render o width name?)
      | .error e =>
        status ← blame "wc" 1 (nameInMessage path ++ ": " ++ errorText e)
        if e = .isDirectory then sayText (({} : Counts).render o width name?)
    if operands.length > 1 then sayText (sum.render o width (some "total"))
    return status

/-! ## Lines turned and numbered -/

/-- Goes through the files of a program; `problem` says why one cannot be read. -/
def eachText (program : String) (operands : List ByteString)
    (problem : ByteString → FileError → String) (act : List Char → Run Unit) : Run Nat :=
  forAll (if operands.isEmpty then ["-"] else operands) fun path => do
    match ← readOperand path with
    | .ok text =>
      act text
      return 0
    | .error e => blame program 1 (problem path e)

def plainProblem (path : ByteString) (e : FileError) : String :=
  nameInMessage path ++ ": " ++ errorText e

def tac (args : List ByteString) : Run Nat :=
  withOptions "tac" ⟨"brs:", [("separator", 's')], true⟩ 1 args fun o =>
    let problem := fun path e =>
      if e = .isDirectory then nameInMessage path ++ ": read error: Invalid argument"
      else "failed to open " ++ quotedName path ++ " for reading: " ++ errorText e
    let ending := (((o.argument? 's').getD "\n").toList.head?).getD '\x00'
    eachText "tac" o.operands problem fun text => say (linesWithEnds ending text).reverse.flatten

def rev (args : List ByteString) : Run Nat :=
  withOptions "rev" ⟨"", [], true⟩ 1 args fun o =>
    eachText "rev" o.operands (fun path e => "cannot open " ++ path ++ ": " ++ errorText e)
      fun text => say ((linesWithEnds '\n' text).flatMap fun line =>
        if line.getLast? = some '\n' then line.dropLast.reverse ++ ['\n'] else line.reverse)

/-- Numbers lines. -/
def numberLines (o : Options) : Nat → List (List Char) → List Char
  | _, [] => []
  | n, line :: rest =>
    let style := (o.argument? 'b').getD "t"
    let width := ((o.argument? 'w').bind fun s => count? s.toList).getD 6
    let separator := ((o.argument? 's').getD "\t").toList
    let step := ((o.argument? 'i').bind fun s => count? s.toList).getD 1
    let isNumbered := style = "a" || (style = "t" && !line.isEmpty)
    if isNumbered then
      let digits := (toString n).toList
      let number := match o.argument? 'n' with
        | some "ln" => digits ++ List.replicate (width - digits.length) ' '
        | some "rz" => fillLeft '0' width digits
        | _ => fillLeft ' ' width digits
      number ++ separator ++ line ++ '\n' :: numberLines o (n + step) rest
    else
      List.replicate (width + separator.length) ' ' ++ line ++ '\n' :: numberLines o n rest

def nl (args : List ByteString) : Run Nat :=
  withOptions "nl"
    ⟨"b:d:f:h:i:l:n:ps:v:w:", [("body-numbering", 'b'), ("number-format", 'n'),
      ("number-separator", 's'), ("starting-line-number", 'v'), ("number-width", 'w'),
      ("line-increment", 'i')], true⟩ 1 args fun o => do
    let start := ((o.argument? 'v').bind fun s => count? s.toList).getD 1
    let mut lines : List (List Char) := []
    let mut status := 0
    for path in (if o.operands.isEmpty then ["-"] else o.operands) do
      match ← readOperand path with
      | .ok text => lines := lines ++ linesOf text
      | .error e => status ← blame "nl" 1 (plainProblem path e)
    say (numberLines o start lines)
    return status

def tee (args : List ByteString) : Run Nat :=
  withOptions "tee" ⟨"aip", [("append", 'a'), ("ignore-interrupts", 'i')], true⟩ 1 args fun o => do
    let text ← readRest 0
    let mut status := 0
    let mut files : List Nat := []
    for path in o.operands do
      match ← openFile (if o.has 'a' then .append else .write) path with
      | .ok i => files := files ++ [i]
      | .error e => status ← blame "tee" 1 (plainProblem path e)
    say text
    for i in files do
      writeChannel i text
    return status

/-! ## Lines side by side -/

/-- The characters between columns; a pair of quotes stands for none. -/
def delimiters : List Char → List (List Char)
  | [] => []
  | '\\' :: 'n' :: rest => ['\n'] :: delimiters rest
  | '\\' :: 't' :: rest => ['\t'] :: delimiters rest
  | '\\' :: '0' :: rest => [] :: delimiters rest
  | '\\' :: c :: rest => [c] :: delimiters rest
  | c :: rest => [c] :: delimiters rest

/-- Joins texts by delimiters that are used in turn. -/
def joinBy (delimiters : List (List Char)) (texts : List (List Char)) : List Char :=
  (texts.zipIdx.map fun (s, i) =>
    if i = 0 then s
    else (delimiters[(i - 1) % delimiters.length]?).getD [] ++ s).flatten

/-- Puts the lines of columns side by side. -/
def sideBySide (delimiters : List (List Char)) : Nat → List (List (List Char)) → List Char
  | 0, _ => []
  | fuel + 1, columns =>
    if columns.all List.isEmpty then []
    else
      joinBy delimiters (columns.map fun column => column.headD []) ++
        '\n' :: sideBySide delimiters fuel (columns.map List.tail)

/-- Every `n`th line from a place on. -/
def everyLine (n i : Nat) (lines : List (List Char)) : List (List Char) :=
  lines.zipIdx.filterMap fun (line, j) => if j % n = i then some line else none

def paste (args : List ByteString) : Run Nat :=
  withOptions "paste" ⟨"d:sz", [("delimiters", 'd'), ("serial", 's')], true⟩ 1 args fun o => do
    let between := match delimiters ((o.argument? 'd').getD "\t").toList with
      | [] => [[]]
      | list => list
    let operands := if o.operands.isEmpty then ["-"] else o.operands
    let inputs := (operands.filter (· = "-")).length
    let shared := linesOf (← if inputs = 0 then pure [] else readRest 0)
    let mut columns : List (List (List Char)) := []
    let mut status := 0
    let mut used := 0
    for path in operands do
      if path = "-" then
        let own := if o.has 's' then if used = 0 then shared else []
          else everyLine inputs used shared
        columns := columns ++ [own]
        used := used + 1
      else
        match ← readFile path with
        | .ok text => columns := columns ++ [linesOf text]
        | .error e => status ← blame "paste" 1 (plainProblem path e)
    if o.has 's' then
      for column in columns do
        say (joinBy between column ++ ['\n'])
      return status
    else if status ≠ 0 then return status
    else
      let longest := (columns.map List.length).foldl max 0
      say (sideBySide between (longest + 1) columns)
      return status

/-- Merges two ordered lists of lines, each with the number of its column. -/
def merged : Nat → List (List Char) → List (List Char) → List (Nat × List Char)
  | 0, _, _ => []
  | _, [], bs => bs.map (2, ·)
  | _, as, [] => as.map (1, ·)
  | fuel + 1, a :: as, b :: bs =>
    if a = b then (3, a) :: merged fuel as bs
    else if a < b then (1, a) :: merged fuel as (b :: bs)
    else (2, b) :: merged fuel (a :: as) bs

def comm (args : List ByteString) : Run Nat :=
  withOptions "comm" ⟨"123z", [], true⟩ 1 args fun o => do
    match o.operands with
    | [] => blameUse "comm" 1 "missing operand"
    | [only] => blameUse "comm" 1 ("missing operand after " ++ inQuotes only)
    | [a, b] =>
      match ← readOperand a, ← readOperand b with
      | .error e, _ => blame "comm" 1 (plainProblem a e)
      | _, .error e => blame "comm" 1 (plainProblem b e)
      | .ok s, .ok t =>
        let (xs, ys) := (linesOf s, linesOf t)
        for (column, line) in merged (xs.length + ys.length + 1) xs ys do
          let digit := Char.ofNat ('0'.toNat + column)
          if !o.has digit then
            let tabs := (if column > 1 ∧ !o.has '1' then 1 else 0) +
              (if column > 2 ∧ !o.has '2' then 1 else 0)
            say (List.replicate tabs '\t' ++ line ++ ['\n'])
        return 0
    | _ :: _ :: extra :: _ => blameUse "comm" 1 ("extra operand " ++ inQuotes extra)

/-! ## Columns -/

/-- The column after a character. -/
def columnAfter (byBytes : Bool) (column : Nat) (c : Char) : Nat :=
  if byBytes then column + 1
  else if c = '\x08' then column - 1
  else if c = '\r' then 0
  else if c = '\t' then column + 8 - column % 8
  else column + 1

/-- The column at the end of a text. -/
def columnOf (byBytes : Bool) (s : List Char) : Nat := s.foldl (columnAfter byBytes) 0

/-- Cuts a line into pieces that are not too wide; the piece that is being read is given backwards.
With `atBlanks` a piece ends after a blank if it has one. -/
def foldLine (byBytes atBlanks : Bool) (width : Nat) : Nat → List Char → List Char → List Char
  | 0, piece, rest => piece.reverse ++ rest
  | _, piece, [] => piece.reverse
  | fuel + 1, piece, c :: rest =>
    let column := columnOf byBytes piece.reverse
    if columnAfter byBytes column c > width ∧ !piece.isEmpty then
      let tail := piece.takeWhile (· ≠ ' ')
      if atBlanks ∧ tail.length < piece.length then
        (piece.drop tail.length).reverse ++
          '\n' :: foldLine byBytes atBlanks width fuel tail (c :: rest)
      else piece.reverse ++ '\n' :: foldLine byBytes atBlanks width fuel [] (c :: rest)
    else foldLine byBytes atBlanks width fuel (c :: piece) rest

def fold (args : List ByteString) : Run Nat :=
  let args := match expandNumberOption args with
    | "-n" :: rest => "-w" :: rest
    | args => args
  withOptions "fold" ⟨"bsw:", [("bytes", 'b'), ("spaces", 's'), ("width", 'w')], true⟩ 1 args
    fun o => do
    match ((o.argument? 'w').elim (some 80) fun s => count? s.toList).filter (0 < ·) with
    | none =>
      blame "fold" 1 ("invalid number of columns: " ++ inQuotes ((o.argument? 'w').getD ""))
    | some width =>
      eachText "fold" o.operands plainProblem fun text => say <|
        (linesWithEnds '\n' text).flatMap fun line =>
          let body := line.takeWhile (· ≠ '\n')
          foldLine (o.has 'b') (o.has 's') width (3 * body.length + 3) [] body ++
            line.drop body.length

/-- Replaces tabs by spaces. -/
def expandTabs (width : Nat) : Nat → List Char → List Char
  | _, [] => []
  | column, '\t' :: rest =>
    let n := width - column % width
    List.replicate n ' ' ++ expandTabs width (column + n) rest
  | _, '\n' :: rest => '\n' :: expandTabs width 0 rest
  | column, c :: rest => c :: expandTabs width (column + 1) rest

def expand (args : List ByteString) : Run Nat :=
  withOptions "expand" ⟨"it:", [("tabs", 't'), ("initial", 'i')], true⟩ 1 args fun o =>
    let width := ((o.argument? 't').bind fun s => count? s.toList).getD 8
    eachText "expand" o.operands plainProblem fun text => say (expandTabs (max width 1) 0 text)

/-- Replaces the spaces at the start of a line by tabs. -/
def unexpandLine (width : Nat) (line : List Char) : List Char :=
  let blanks := line.takeWhile fun c => c = ' ' ∨ c = '\t'
  let column := (expandTabs width 0 blanks).length
  List.replicate (column / width) '\t' ++ List.replicate (column % width) ' ' ++
    line.drop blanks.length

def unexpand (args : List ByteString) : Run Nat :=
  withOptions "unexpand" ⟨"at:", [("tabs", 't'), ("all", 'a')], true⟩ 1 args fun o =>
    let width := ((o.argument? 't').bind fun s => count? s.toList).getD 8
    eachText "unexpand" o.operands plainProblem fun text =>
      say ((linesWithEnds '\n' text).flatMap (unexpandLine (max width 1)))

/-- Writes a line again and again, as far as anyone reads it. -/
def yes (args : List ByteString) : Run Nat := do
  let line := (if args.isEmpty then "y" else String.intercalate " " args) ++ "\n"
  say (List.replicate 100000 line.toList).flatten
  return 0

end LayoutShell.Host.Program
