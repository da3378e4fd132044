import LayoutShell.Host.Sed.Reading

/-!
# Running scripts of the stream editor

The script is applied to one line after another. The line is in the pattern space; the hold space
keeps a text from one line to the next.

* `Sed.run` applies a script to lines: what is written where, and the status.
-/

namespace LayoutShell.Host.Sed

/-- A line of the input. -/
structure Line where
  text : List Char
  /-- It ends in a line feed. -/
  ended : Bool
  file : String

/-- The lines of a text. -/
def linesFrom (delimiter : Char) (file : String) (s : List Char) : List Line :=
  let pieces := s.splitOn delimiter
  let whole := pieces.dropLast.map (⟨·, true, file⟩)
  match pieces.getLast? with
  | some [] | none => whole
  | some last => whole ++ [⟨last, false, file⟩]

/-- Where a range of lines has arrived. -/
inductive RangeState
  /-- It goes on, up to a line if that is known. -/
  | active (last? : Option Nat)
  | closed

/-- What is written after the current line. -/
inductive Queued
  | text (s : List Char)
  | file (path : String)

/-- Where something is written: the output, or a file. -/
abbrev Target := Option String

structure Settings where
  silent : Bool
  delimiter : Char
  width : Nat
  readFile : String → Option (List Char)

structure State where
  rest : List Line
  space : List Char := []
  ended : Bool := true
  held : List Char := []
  line : Nat := 0
  file : String := "-"
  queue : List Queued := []
  /-- A substitution was made since the last line was read. -/
  made : Bool := false
  ranges : List (Nat × RangeState) := []
  lastSearch? : Option Search := none
  /-- What was written, the last piece first. -/
  output : List (Target × List Char) := []
  /-- The targets whose last line has no end yet. -/
  unended : List Target := []

/-- How the work on a line ends. -/
inductive Flow
  | done
  | deleted
  /-- The script starts again without a new line. -/
  | again
  | quit (status : Nat) (silent : Bool)

namespace State

/-! ## Input and output -/

/-- Writes a text as it is. -/
def write (s : State) (target : Target) (text : List Char) : State :=
  if text.isEmpty then s
  else
    let start := if s.unended.contains target then ['\n'] else []
    { s with
      output := (target, start ++ text) :: s.output
      unended := s.unended.filter (· ≠ target) }

/-- Writes a line, with an end if the input line has one. -/
def writeLine (s : State) (settings : Settings) (target : Target) (text : List Char)
    (ended : Bool) : State :=
  let start := if s.unended.contains target then ['\n'] else []
  let others := s.unended.filter (· ≠ target)
  { s with
    output := (target, start ++ text ++ if ended then [settings.delimiter] else []) :: s.output
    unended := if ended then others else target :: others }

def printSpace (s : State) (settings : Settings) : State :=
  s.writeLine settings none s.space s.ended

/-- Writes what is to follow the current line. -/
def flush (s : State) (settings : Settings) : State :=
  let written := s.queue.foldl (fun s item =>
    match item with
    | .text text => s.write none text
    | .file path => s.write none ((settings.readFile path).getD [])) s
  { written with queue := [] }

/-- Reads the next line; none at the end. -/
def readLine? (s : State) (settings : Settings) : Option (State × List Char) :=
  match s.rest with
  | [] => none
  | line :: rest =>
    let s := s.flush settings
    some ({ s with
      rest := rest, ended := line.ended, line := s.line + 1, file := line.file, made := false },
      line.text)

/-! ## Selecting lines -/

/-- The search to use; an empty one stands for the last. -/
def resolve (s : State) (search : Search) : Option Search × State :=
  if search.regex?.isSome then (some search, { s with lastSearch? := some search })
  else (s.lastSearch?, s)

def subject (search : Search) (text : List Char) : Regex.Subject :=
  { text := text.toArray, ignoreCase := search.ignoreCase, manyLines := search.manyLines }

/-- The pattern space matches an expression. -/
def isMatch (s : State) (search : Search) : Bool × State :=
  let (found?, s) := s.resolve search
  match found? with
  | some found =>
    (found.regex?.any fun r => (r.find? (subject found s.space) 0).isSome, s)
  | none => (false, s)

def isAt (s : State) : Address → Bool × State
  | .line n => (s.line = n, s)
  | .steps first 0 => (s.line = first, s)
  | .steps first step => (first ≤ s.line && (s.line - first) % step = 0, s)
  | .last => (s.rest.isEmpty, s)
  | .matching search => s.isMatch search

def setRange (s : State) (i : Nat) (r? : Option RangeState) : State :=
  let others := s.ranges.filter (·.1 ≠ i)
  { s with ranges := r?.elim others fun r => (i, r) :: others }

/-- The last line of a range that begins at the current one, if it is known. -/
def rangeLast? (s : State) : RangeEnd → Option Nat
  | .upTo (.line n) => some n
  | .after n => some (s.line + n)
  | .multiple 0 => some s.line
  | .multiple n => some ((s.line / n + 1) * n)
  | .upTo _ => none

/-- Begins a range. -/
def openRange (s : State) (i : Nat) (stop : RangeEnd) : State :=
  match s.rangeLast? stop with
  | some n => if n ≤ s.line then s.setRange i none else s.setRange i (some (.active (some n)))
  | none => s.setRange i (some (.active none))

/-- Goes on with a range; says whether the line belongs to it. -/
def continueRange (s : State) (i : Nat) (after : Option RangeState) (last? : Option Nat)
    (stop : RangeEnd) : Bool × State :=
  match last?, stop with
  | some n, _ => (s.line ≤ n, if n ≤ s.line then s.setRange i after else s)
  | none, .upTo a =>
    let (ends, s) := s.isAt a
    (true, if ends then s.setRange i after else s)
  | none, _ => (true, s)

/-- The state after a range; one that begins before the first line does not begin again. -/
def afterRange : Address → Option RangeState
  | .line 0 => some .closed
  | _ => none

/-- A command applies to the current line. -/
def selects (s : State) (i : Nat) (sel : Selection) : Bool × State :=
  let (b, s) := match sel.first?, sel.range? with
    | none, _ => (true, s)
    | some a, none => s.isAt a
    | some a, some stop =>
      match s.ranges.lookup i with
      | some .closed => (false, s)
      | some (.active last?) => s.continueRange i (afterRange a) last? stop
      | none =>
        match a with
        | .line 0 =>
          (s.setRange i (some (.active none))).continueRange i (afterRange a) none stop
        | a =>
          let (b, s) := s.isAt a
          (b, if b then s.openRange i stop else s)
  (b != sel.negated, s)

end State

/-! ## Substituting -/

/-- The state of the case of letters in a replacement. -/
structure Casing where
  all : CaseChange := .plain
  next? : Option CaseChange := none

/-- Changes the case of a text. -/
def Casing.apply (k : Casing) (s : List Char) : List Char × Casing :=
  let change := fun (c : Char) => match k.all with
    | .upper => c.toUpper
    | .lower => c.toLower
    | _ => c
  match s with
  | [] => ([], k)
  | c :: rest =>
    let first := match k.next? with
      | some .upperNext => c.toUpper
      | some _ => c.toLower
      | none => change c
    (first :: rest.map change, { k with next? := none })

/-- The text that replaces a match. -/
def replacementText (subject : Regex.Subject) (m : Regex.Match) (list : List Piece) : List Char :=
  (list.foldl (fun (out, k) piece =>
    match piece with
    | .text s =>
      let (s, k) := Casing.apply k s
      (out ++ s, k)
    | .group n =>
      let (s, k) := Casing.apply k (m.groupText subject n)
      (out ++ s, k)
    | .case .upperNext => (out, { k with next? := some .upperNext })
    | .case .lowerNext => (out, { k with next? := some .lowerNext })
    | .case change => (out, { k with all := change })) (([] : List Char), ({} : Casing))).1

/-- Replaces matches from a position on; `count` matches were found before, and the last one ended
at `last?`. The result is given backwards. -/
def replaceFrom (r : Regex) (subject : Regex.Subject) (sub : Substitution) :
    Nat → Nat → Option Nat → Nat → List Char → Bool → List Char × Bool
  | 0, _, _, _, out, made => (out, made)
  | fuel + 1, i, last?, count, out, made =>
    let rest := (subject.text.extract i subject.text.size).toList
    match r.find? subject i with
    | none => (rest.reverse ++ out, made)
    | some m =>
      let before := (subject.text.extract i m.start).toList
      let out := before.reverse ++ out
      if m.stop = m.start ∧ last? = some m.start then
        match subject.text[m.start]? with
        | some c => replaceFrom r subject sub fuel (m.start + 1) none count (c :: out) made
        | none => (out, made)
      else
        let count := count + 1
        let chosen := sub.number ≤ count
        let text := if chosen then replacementText subject m sub.replacement
          else (subject.text.extract m.start m.stop).toList
        let out := text.reverse ++ out
        let made := made || chosen
        if chosen ∧ !sub.everywhere then
          ((subject.text.extract m.stop subject.text.size).toList.reverse ++ out, made)
        else if m.stop = m.start then
          match subject.text[m.stop]? with
          | some c =>
            replaceFrom r subject sub fuel (m.stop + 1) (some m.stop) count (c :: out) made
          | none => (out, made)
        else replaceFrom r subject sub fuel m.stop (some m.stop) count out made

/-- Applies a substitution to the pattern space. -/
def substitute (settings : Settings) (sub : Substitution) (s : State) : State :=
  let (found?, s) := s.resolve sub.search
  match found? with
  | none => s
  | some found =>
    match found.regex? with
    | none => s
    | some r =>
      let subject := State.subject found s.space
      let (out, made) := replaceFrom r subject sub (2 * s.space.length + 2) 0 none 0 [] false
      if !made then s
      else
        let s := { s with space := out.reverse, made := true }
        let s := if sub.prints then s.printSpace settings else s
        match sub.file? with
        | some path => s.writeLine settings (some path) s.space true
        | none => s

/-! ## Lists -/

/-- A character in a form that shows what it is. -/
def plainForm (c : Char) : List Char :=
  match c with
  | '\\' => "\\\\".toList
  | '\x07' => "\\a".toList
  | '\x08' => "\\b".toList
  | '\x0c' => "\\f".toList
  | '\n' => "\\n".toList
  | '\r' => "\\r".toList
  | '\t' => "\\t".toList
  | '\x0b' => "\\v".toList
  | c =>
    if ' ' ≤ c ∧ c ≤ '~' then [c]
    else
      let n := c.toNat
      let digit := fun k => Char.ofNat ('0'.toNat + n / k % 8)
      ['\\', digit 64, digit 8, digit 1]

/-- The pattern space in such a form, cut into lines of a width. -/
def listForm (width : Nat) (s : List Char) : List Char :=
  let (out, _) := s.foldl (fun (out, column) c =>
    let form := plainForm c
    if 1 < width ∧ width - 1 < column + form.length then
      (out ++ '\\' :: '\n' :: form, form.length)
    else (out ++ form, column + form.length)) (([] : List Char), 0)
  out ++ ['$']

/-! ## Commands -/

/-- A bound on the commands that are run for one line. -/
def maxSteps : Nat := Nat.pow 2 40

/-- The first line of a text, and the rest after its end if it has one. -/
def firstLine (s : List Char) : List Char × Option (List Char) :=
  let line := s.takeWhile (· ≠ '\n')
  match s.drop line.length with
  | [] => (line, none)
  | _ :: rest => (line, some rest)

/-- A range to which a command belongs goes on after the current line. -/
def inRange (s : State) (i : Nat) : Bool :=
  match s.ranges.lookup i with
  | some (.active _) => true
  | _ => false

/-- Runs commands from a place on. -/
def execute (settings : Settings) (script : Script) : Nat → Nat → State → State × Flow
  | 0, _, s => (s, .done)
  | fuel + 1, i, s =>
    match script.commands[i]? with
    | none => (s, .done)
    | some c =>
      let (selected, s) := s.selects i c.selection
      let go := execute settings script fuel
      if !selected then
        match c.action with
        | .block stop => go stop s
        | _ => go (i + 1) s
      else
        let jump := fun (label : String) =>
          if label.isEmpty then script.commands.size
          else (script.labels.lookup label).getD script.commands.size
        match c.action with
        | .block _ | .nothing => go (i + 1) s
        | .append text => go (i + 1) { s with queue := s.queue ++ [.text text] }
        | .insert text => go (i + 1) (s.write none text)
        | .change text =>
          let s := if c.selection.range?.isSome ∧ !c.selection.negated ∧ inRange s i then s
            else s.write none text
          (s, .deleted)
        | .branch label => go (jump label) s
        | .branchIf made label =>
          if s.made = made then go (jump label) { s with made := false }
          else go (i + 1) { s with made := false }
        | .delete => (s, .deleted)
        | .deleteLine =>
          match firstLine s.space with
          | (_, some rest) => ({ s with space := rest }, .again)
          | (_, none) => (s, .deleted)
        | .get => go (i + 1) { s with space := s.held }
        | .getAppend => go (i + 1) { s with space := s.space ++ '\n' :: s.held }
        | .hold => go (i + 1) { s with held := s.space }
        | .holdAppend => go (i + 1) { s with held := s.held ++ '\n' :: s.space }
        | .exchange => go (i + 1) { s with space := s.held, held := s.space }
        | .list width? =>
          go (i + 1) (s.writeLine settings none
            (listForm (width?.getD settings.width) s.space) true)
        | .next =>
          if s.rest.isEmpty then (s, .done)
          else
            let s := if settings.silent then s else s.printSpace settings
            match s.readLine? settings with
            | some (s, text) => go (i + 1) { s with space := text }
            | none => (s, .done)
        | .nextAppend =>
          match s.readLine? settings with
          | some (s, text) => go (i + 1) { s with space := s.space ++ '\n' :: text }
          | none => (s, .done)
        | .print => go (i + 1) (s.printSpace settings)
        | .printLine => go (i + 1) (s.writeLine settings none (firstLine s.space).1 true)
        | .quit status silent => (s, .quit status silent)
        | .readFile path => go (i + 1) { s with queue := s.queue ++ [.file path] }
        | .substitute sub => go (i + 1) (substitute settings sub s)
        | .write path onlyLine =>
          let text := if onlyLine then (firstLine s.space).1 else s.space
          go (i + 1) (s.writeLine settings (some path) text (onlyLine || s.ended))
        | .translate pairs =>
          go (i + 1) { s with space := s.space.map fun c => (pairs.lookup c).getD c }
        | .clear => go (i + 1) { s with space := [] }
        | .lineNumber =>
          go (i + 1) (s.writeLine settings none (toString s.line).toList true)
        | .fileName => go (i + 1) (s.writeLine settings none s.file.toList true)

/-- Applies a script to lines; `fresh` says that a line is to be read first. -/
def cycles (settings : Settings) (script : Script) : Nat → Bool → State → State × Nat
  | 0, _, s => (s, 0)
  | fuel + 1, fresh, s =>
    let started := if fresh then
        (s.readLine? settings).map fun (s, text) => { s with space := text }
      else some s
    match started with
    | none => (s, 0)
    | some s =>
      let (s, flow) := execute settings script maxSteps 0 s
      let printed := if settings.silent then s else s.printSpace settings
      match flow with
      | .done => cycles settings script fuel true (printed.flush settings)
      | .deleted => cycles settings script fuel true (s.flush settings)
      | .again => cycles settings script fuel false (s.flush settings)
      | .quit status silent =>
        if silent then (s, status) else (printed.flush settings, status)

/-- Applies a script to lines: what is written where, and the status. -/
def run (settings : Settings) (script : Script) (lines : List Line) :
    List (Target × List Char) × Nat :=
  let size := (lines.map fun l => l.text.length + 1).foldl (· + ·) 0
  let (s, status) := cycles settings script (size + 1) true { rest := lines }
  (s.output.reverse, status)

/-- The files that a script writes. -/
def writtenFiles (script : Script) : List String :=
  script.commands.toList.filterMap fun c =>
    match c.action with
    | .write path _ => some path
    | .substitute s => s.file?
    | _ => none

end LayoutShell.Host.Sed
