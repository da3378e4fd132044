import LayoutShell.Host.Program.Listing

/-!
# Programs that run other programs

`xargs` runs a command with arguments from its input, `env` with other variables, and `timeout`,
`nohup` and `nice` with other conditions. Here are also the programs that are commands of the shell
as well: `echo`, `printf`, `test` and `pwd`.
-/

namespace LayoutShell.Host.Program

open Files

/-! ## Arguments from the input -/

/-- The words of an input: the finished ones backwards, and the unfinished one backwards if there is
one. -/
structure InputWords where
  words : List (List Char) := []
  current? : Option (List Char) := none
  /-- The lines that end after some words, as numbers of words backwards. -/
  lines : List Nat := []

def InputWords.close (w : InputWords) : InputWords :=
  match w.current? with
  | some word => { w with words := word.reverse :: w.words, current? := none }
  | none => w

def InputWords.add (w : InputWords) (c : Char) : InputWords :=
  { w with current? := some (c :: w.current?.getD []) }

/-- Reads words with quotes; blanks separate them. -/
def readWords (blanks : Bool) : Nat → InputWords → List Char → Except String InputWords
  | 0, w, _ | _, w, [] =>
    let closed := w.close
    .ok { closed with lines := closed.words.length :: closed.lines }
  | fuel + 1, w, c :: rest =>
    if c = '\n' then
      let closed := w.close
      readWords blanks fuel { closed with lines := closed.words.length :: closed.lines } rest
    else if blanks ∧ (c = ' ' ∨ c = '\t') then readWords blanks fuel w.close rest
    else if c = '\'' ∨ c = '"' then
      let quoted := rest.takeWhile fun d => d ≠ c ∧ d ≠ '\n'
      match rest.drop quoted.length with
      | d :: rest =>
        if d = c then
          let opened : InputWords := { w with current? := some (w.current?.getD []) }
          readWords blanks fuel (quoted.foldl InputWords.add opened) rest
        else unmatched c
      | [] => unmatched c
    else if c = '\\' then
      match rest with
      | d :: rest => readWords blanks fuel (w.add d) rest
      | [] => .ok w.close
    else readWords blanks fuel (w.add c) rest
where
  unmatched (c : Char) : Except String InputWords :=
    .error ("unmatched " ++ (if c = '\'' then "single" else "double") ++
      " quote; by default quotes are special to xargs unless you use the -0 option")

/-- Cuts a list into pieces of a size. -/
def chunks (n : Nat) : Nat → List ByteString → List (List ByteString)
  | 0, _ | _, [] => []
  | fuel + 1, list => list.take (max n 1) :: chunks n fuel (list.drop (max n 1))

/-- Replaces a mark in a text. -/
def replaceMark (mark path : List Char) : Nat → List Char → List Char
  | 0, s => s
  | _, [] => []
  | fuel + 1, c :: rest =>
    if !mark.isEmpty ∧ mark.isPrefixOf (c :: rest) then
      path ++ replaceMark mark path fuel ((c :: rest).drop mark.length)
    else c :: replaceMark mark path fuel rest

/-- The groups of words between the ends of lines, a number of lines at a time. -/
def lineGroups (count : Nat) (w : InputWords) : List (List ByteString) :=
  let words := w.words.reverse.map String.ofList
  let stops := w.lines.reverse.eraseDups.filter (0 < ·)
  let starts := 0 :: stops
  let lines := (starts.zip stops).map fun (a, b) => (words.take b).drop a
  let indexed := lines.zipIdx
  ((List.range ((lines.length + count - 1) / max count 1)).map fun i =>
    (indexed.filterMap fun (line, k) => if k / max count 1 = i then some line else none).flatten)

/-- The commands that the input asks for. -/
def xargsCommands (o : Options) (text : List Char) : Except String (List (List ByteString)) := do
  let command := if o.operands.isEmpty then ["echo"] else o.operands
  let separator? : Option Char := if o.has '0' then some '\x00'
    else (o.argument? 'd').map fun s =>
      match s.toList with
      | '\\' :: rest => (takeEscape rest).1
      | c :: _ => c
      | [] => '\x00'
  let split := fun separator : Char =>
    let pieces := text.splitOn separator
    let pieces := if pieces.getLast? = some [] then pieces.dropLast else pieces
    pieces.map String.ofList
  match o.argument? 'I' with
  | some mark =>
    let items : List ByteString ← match separator? with
      | some separator => pure (split separator)
      | none => do
        let lines := (linesOf text).filter fun line => !line.all isBlankChar
        lines.mapM fun line => do
          let w ← readWords false (line.length + 1) {} (line.dropWhile isBlankChar)
          return String.ofList w.words.reverse.flatten
    return items.map fun item => command.map fun word =>
      String.ofList (replaceMark mark.toList item.toList (word.length + 1) word.toList)
  | none =>
    let groups : List (List ByteString) ← match separator? with
      | some separator =>
        let items := split separator
        pure (grouped o items)
      | none => do
        let w ← readWords true (text.length + 1) {} text
        let words := w.words.reverse.map String.ofList
        match (o.argument? 'L').bind fun s => count? s.toList with
        | some n => pure (lineGroups n w)
        | none => pure (grouped o words)
    if groups.isEmpty then return if o.has 'r' then [] else [command]
    else return groups.map (command ++ ·)
where
  isBlankChar (c : Char) : Bool := c == ' ' || c == '\t'
  count? (s : List Char) : Option Nat :=
    if s.isEmpty ∨ !s.all Char.isDigit then none else some (Arithmetic.numeral 10 s)
  grouped (o : Options) (items : List ByteString) : List (List ByteString) :=
    match (o.argument? 'n').bind fun s => count? s.toList with
    | some n => chunks n (items.length + 1) items
    | none => if items.isEmpty then [] else [items]

/-- Runs an action whose first stream is empty. -/
def withoutInput {α : Type} (act : Run α) : Run α := do
  let streams := (← get).streams
  connect 0 (some (← addChannel .null))
  let result ← act
  modify fun m => { m with streams := streams }
  return result

def xargs (launch : Launch) (args : List ByteString) : Run Nat :=
  withOptions "xargs"
    ⟨"0a:d:E:e::I:i::L:l::n:P:prs:tx", [("null", '0'), ("delimiter", 'd'), ("replace", 'I'),
      ("max-lines", 'L'), ("max-args", 'n'), ("max-procs", 'P'), ("no-run-if-empty", 'r'),
      ("verbose", 't'), ("arg-file", 'a')], false⟩ 1 args fun o => do
    let input ← match o.argument? 'a' with
      | some path => readFile path
      | none => do pure (.ok (← readRest 0))
    match input with
    | .error e =>
      blame "xargs" 1 ("Cannot open input file " ++ inQuotes ((o.argument? 'a').getD "") ++ ": " ++
        errorText e)
    | .ok text =>
      match xargsCommands o text with
      | .error message => blame "xargs" 1 message
      | .ok commands =>
        let mut status := 0
        for command in commands do
          if o.has 't' then warn (String.intercalate " " command)
          match ← withoutInput (launch command) with
          | .ok 0 => pure ()
          | .ok code =>
            if code = 255 then
              return ← blame "xargs" 124
                (command.headD "" ++ ": exited with status 255; aborting")
            status := 123
          | .error e =>
            return ← blame "xargs" e.status (command.headD "" ++ ": " ++ e.message)
        return status

/-! ## Variables -/

/-- Lists variables. -/
def showEnvironment (ending : String) : Run Unit := do
  for (name, value) in environment (← get) do
    sayText (name ++ "=" ++ value ++ ending)

/-- Runs an action with other variables. -/
def withVariables {α : Type} (bindings : Dict String Variable) (act : Run α) : Run α := do
  let old := (← get).bindings
  modify fun m => { m with bindings := bindings }
  let result ← act
  modify fun m => { m with bindings := old }
  return result

def env (launch : Launch) (args : List ByteString) : Run Nat :=
  withOptions "env"
    ⟨"i0u:C:S:v", [("ignore-environment", 'i'), ("unset", 'u'), ("null", '0'),
      ("chdir", 'C')], false⟩ 125 args fun o => do
    let (fresh, operands) := match o.operands with
      | "-" :: rest => (true, rest)
      | operands => (o.has 'i', operands)
    let m ← get
    let inherited := if fresh then ∅ else m.bindings.filter fun _ v => v.exported
    let kept := (o.arguments 'u').foldl (fun d name => d.erase name) inherited
    let isAssignment := fun arg : ByteString => arg.toList.contains '='
    let assignments := operands.takeWhile isAssignment
    let bindings := assignments.foldl (fun d arg =>
      let (name, value?) := Builtin.definition arg
      d.insert name { value? := some (value?.getD ""), exported := true }) kept
    match operands.drop assignments.length with
    | [] =>
      withVariables bindings (showEnvironment (if o.has '0' then "\x00" else "\n"))
      return 0
    | command =>
      let path? := (bindings.get? "PATH").bind Variable.value?
      let search := if path?.isNone then
          bindings.insert "PATH" { value? := some "/bin:/usr/bin", exported := false }
        else bindings
      match ← withVariables search (launch command) with
      | .ok status => return status
      | .error e =>
        blame "env" e.status (quotedName (command.headD "") ++ ": " ++ e.message)

def printenv (args : List ByteString) : Run Nat := do
  let m ← get
  if args.isEmpty then
    showEnvironment "\n"
    return 0
  else
    let values := environment m
    let mut status := 0
    for name in args do
      match values.lookup name with
      | some value => sayText (value ++ "\n")
      | none => status := 1
    return status

/-! ## Other conditions -/

/-- Runs a command as it is. -/
def relay (program : String) (launch : Launch) (command : List ByteString) : Run Nat := do
  match ← launch command with
  | .ok status => return status
  | .error e =>
    blame program e.status
      ("failed to run command " ++ quotedName (command.headD "") ++ ": " ++ e.message)

def timeout (launch : Launch) (args : List ByteString) : Run Nat :=
  withOptions "timeout"
    ⟨"k:s:v", [("kill-after", 'k'), ("signal", 's'), ("foreground", 'v')], false⟩ 125 args
    fun o =>
    match o.operands with
    | _ :: command :: rest => relay "timeout" launch (command :: rest)
    | _ => blameUse "timeout" 125 "missing operand"

def nohup (launch : Launch) (args : List ByteString) : Run Nat :=
  if args.isEmpty then blameUse "nohup" 125 "missing operand" else relay "nohup" launch args

def nice (launch : Launch) (args : List ByteString) : Run Nat :=
  withOptions "nice" ⟨"n:", [("adjustment", 'n')], false⟩ 125 args fun o => do
    if o.operands.isEmpty then
      sayText "0\n"
      return 0
    else relay "nice" launch o.operands

/-! ## Commands of the shell as programs -/

/-- The options of `echo`, and the words after them. -/
def echoOptions : List ByteString → Bool × Bool × List ByteString
  | arg :: rest =>
    match arg.toList with
    | '-' :: c :: more =>
      if (c :: more).all fun d => d = 'n' || d = 'e' || d = 'E' then
        let (n, e, words) := echoOptions rest
        ((c :: more).contains 'n' || n,
          e || ((c :: more).filter (· ≠ 'n')).getLast? = some 'e', words)
      else (false, false, arg :: rest)
    | _ => (false, false, arg :: rest)
  | [] => (false, false, [])

def echo (args : List ByteString) : Run Nat := do
  let (silent, escapes, words) := echoOptions args
  let text := (String.intercalate " " words).toList
  let (text, stopped) := if escapes then unescaped text else (text, false)
  say (text ++ if silent || stopped then [] else ['\n'])
  return 0

def print (args : List ByteString) : Run Nat := do
  match args with
  | [] => blameUse "printf" 1 "missing operand"
  | format :: args =>
    let f := Format.print format args
    for problem in f.problems do warn ("printf: " ++ problem)
    say f.output
    match f.stop with
    | some (some message) => blame "printf" 1 message
    | _ => return f.status

/-- Runs a command of the shell as a program. -/
def ofBuiltin (name : String) (act : List ByteString → Run Nat) (args : List ByteString) :
    Run Nat := do
  let m ← get
  set { m with command := "", name := name }
  let result ← tryCatch (act args) fun _ => return 2
  modify fun n => { n with command := m.command, name := m.name }
  return result

def sleep (args : List ByteString) : Run Nat := do
  if args.isEmpty then blameUse "sleep" 1 "missing operand"
  else
    let isTime := fun arg : ByteString =>
      let body := arg.toList.takeWhile fun c => c.isDigit || c = '.'
      let unit := String.ofList (arg.toList.drop body.length)
      !body.isEmpty && ["", "s", "m", "h", "d"].contains unit
    match args.find? fun arg => !isTime arg with
    | some bad => blameUse "sleep" 1 ("invalid time interval " ++ inQuotes bad)
    | none => return 0

/-! ## The system -/

/-- Says something about the system. -/
def state (text : String) (_ : List ByteString) : Run Nat := do
  sayText (text ++ "\n")
  return 0

def identity (args : List ByteString) : Run Nat :=
  let text := match args with
    | ["-u"] | ["-g"] | ["-G"] => "0"
    | ["-un"] | ["-gn"] | ["-u", "-n"] | ["-nu"] => "root"
    | _ => "uid=0(root) gid=0(root) groups=0(root)"
  state text args

def terminal (_ : List ByteString) : Run Nat := do
  sayText "not a tty\n"
  return 1

end LayoutShell.Host.Program
