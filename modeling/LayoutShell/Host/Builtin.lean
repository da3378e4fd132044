import LayoutShell.Host.Condition
import LayoutShell.Host.Expand
import LayoutShell.Host.Printing

/-!
# Commands of the shell itself

Commands that read or change the state of the shell: its variables, options, arguments, traps and
working directory, and the commands that are too small to be programs.

* `Builtin.find?` gives the command with a name.
* `Builtin.special` names the commands whose errors end a script.

Commands that run other commands are not among them.
-/

namespace LayoutShell.Host.Builtin

open Files

/-- A command: from its arguments to its status. -/
abbrev Action := List ByteString → Run Nat

/-- The commands whose errors end a script and whose assignments stay. -/
def special : List String := Reader.specialCommands

/-! ## Arguments -/

/-- A text in quotes, as it can be read again. -/
def quotedForm : Nat → List Char → List Char
  | 0, _ => []
  | fuel + 1, s =>
    let plain := s.takeWhile (· ≠ '\'')
    let s := s.drop plain.length
    let marks := s.takeWhile (· = '\'')
    let s := s.drop marks.length
    let first := '\'' :: plain ++ ['\'']
    if marks.isEmpty then first
    else first ++ '"' :: marks ++ '"' :: (if s.isEmpty then [] else quotedForm fuel s)

def quoted (s : ByteString) : String := String.ofList (quotedForm (s.length + 1) s.toList)

/-- The options at the start of arguments, and the arguments after them. -/
def takeFlags (allowed : List Char) : List ByteString → Run (List Char × List ByteString)
  | [] => return ([], [])
  | arg :: rest =>
    match arg.toList with
    | ['-', '-'] => return ([], rest)
    | '-' :: c :: more => do
      for flag in c :: more do
        if !allowed.contains flag then die ("Illegal option -" ++ flag.toString)
      let (flags, rest) ← takeFlags allowed rest
      return (c :: more ++ flags, rest)
    | _ => return ([], arg :: rest)

/-- The number that an argument spells. -/
def natural (s : ByteString) : Run Nat :=
  if !s.isEmpty ∧ s.toList.all Char.isDigit then return Arithmetic.numeral 10 s.toList
  else die ("Illegal number: " ++ s)

/-- Takes an argument `name=value` apart. -/
def definition (arg : ByteString) : String × Option ByteString :=
  let name := arg.toList.takeWhile (· ≠ '=')
  (String.ofList name,
    if name.length < arg.length then some (String.ofList (arg.toList.drop (name.length + 1)))
    else none)

/-! ## Control -/

def exit : Action := fun args => do
  match args with
  | n :: _ => setStatus ((← natural n) % 256)
  | [] => pure ()
  throw .leave

def comeBack : Action := fun args => do
  match args with
  | n :: _ => setStatus (← natural n)
  | [] => pure ()
  throw .comeBack

/-- Leaves some of the loops around the command. -/
def leaveLoops (signal : Nat → Signal) : Action := fun args => do
  let n ← match args with
    | [] => pure 1
    | n :: _ => natural n
  if n = 0 then die ("Illegal number: " ++ args.headD "")
  let n := min n (← get).loops
  if n = 0 then return 0
  setStatus 0
  throw (signal n)

def shift : Action := fun args => do
  let n ← match args with
    | [] => pure 1
    | n :: _ => natural n
  let m ← get
  if m.arguments.length < n then die "can't shift that many"
  set { m with arguments := m.arguments.drop n, optionIndex := 1, optionOffset := 0 }
  return 0

/-! ## Variables -/

/-- Lists variables in a form that can be read again. -/
def showVariables (start : String) (shown : Variable → Bool) : Run Unit := do
  for (name, v) in (← get).bindings.entries do
    if shown v then
      match v.value? with
      | some value => sayText (start ++ name ++ "=" ++ quoted value ++ "\n")
      | none => if start ≠ "" then sayText (start ++ name ++ "\n")

/-- Marks variables, and gives them values. -/
def declare (command : String) (shown : Variable → Bool) (mark : Variable → Variable) : Action :=
  fun args => do
    let (flags, args) ← takeFlags ['p'] args
    if args.isEmpty ∨ flags.contains 'p' then showVariables (command ++ " ") shown
    else
      for arg in args do
        let (name, value?) := definition arg
        if !isName name.toList then die (name ++ ": bad variable name")
        match value? with
        | some value => assign name value
        | none => pure ()
        modify fun m =>
          let v := (m.bindings.get? name).getD { value? := none }
          { m with bindings := m.bindings.insert name (mark v) }
    return 0

def unset : Action := fun args => do
  let (flags, args) ← takeFlags ['v', 'f'] args
  for name in args do
    if flags.getLast? = some 'f' then
      modify fun m => { m with functions := m.functions.filter (·.1 ≠ name) }
    else
      if !isName name.toList then die (name ++ ": bad variable name")
      if ((← get).bindings.get? name).any Variable.readonly then
        die (name ++ ": is read only")
      modify fun m => { m with bindings := m.bindings.erase name }
  return 0

/-- Makes variables local to the running function. -/
def makeLocal : Action := fun args => do
  if (← get).hidden.isEmpty then die "not in a function"
  for arg in args do
    let (name, value?) := definition arg
    if !isName name.toList then die (name ++ ": bad variable name")
    modify fun m =>
      match m.hidden with
      | top :: rest =>
        if top.any (·.1 = name) then m
        else { m with hidden := ((name, m.bindings.get? name) :: top) :: rest }
      | [] => m
    match value? with
    | some value => assign name value
    | none => pure ()
  return 0

/-! ## Switches -/

/-- The switches with their long names. -/
def switchNames : List (String × Char) :=
  [("errexit", 'e'), ("noglob", 'f'), ("ignoreeof", 'I'), ("interactive", 'i'), ("monitor", 'm'),
    ("noexec", 'n'), ("stdin", 's'), ("xtrace", 'x'), ("verbose", 'v'), ("vi", 'V'),
    ("emacs", 'E'), ("noclobber", 'C'), ("allexport", 'a'), ("notify", 'b'), ("nounset", 'u')]

/-- Turns a switch on or off. -/
def turn (setting : Bool) (c : Char) : Run Unit := do
  if !switchNames.any (·.2 = c) then
    die ("Illegal option " ++ (if setting then "-" else "+") ++ c.toString)
  modify fun m =>
    let others := m.switches.filter (· ≠ c)
    { m with switches := if setting then others ++ [c] else others }

/-- Lists the switches. -/
def showSwitches : Run Unit := do
  sayText "Current option settings\n"
  for (name, c) in switchNames do
    let spaces := String.ofList (List.replicate (16 - name.length) ' ')
    sayText (name ++ spaces ++ (if (← get).switches.contains c then "on\n" else "off\n"))

def turnNamed (setting : Bool) (name : ByteString) : Run Unit := do
  match switchNames.lookup name with
  | some c => turn setting c
  | none => die ("Illegal option " ++ (if setting then "-o " else "+o ") ++ name)

/-- Turns the switches of one argument; gives the arguments that are left. -/
def turnAll (setting : Bool) : List Char → List ByteString → Run (List ByteString)
  | [], rest => return rest
  | 'o' :: more, rest => do
    match rest with
    | [] =>
      showSwitches
      turnAll setting more []
    | name :: rest =>
      turnNamed setting name
      turnAll setting more rest
  | c :: more, rest => do
    turn setting c
    turnAll setting more rest

/-- Reads switches and then arguments; gives the arguments, if they are given. -/
def switchesFrom : Nat → List ByteString → Run (Option (List ByteString))
  | 0, _ | _, [] => return none
  | fuel + 1, arg :: rest => do
    match arg.toList with
    | ['-'] =>
      modify fun m => { m with switches := m.switches.filter fun c => c ≠ 'x' ∧ c ≠ 'v' }
      return if rest.isEmpty then none else some rest
    | ['-', '-'] => return some rest
    | '-' :: flags => switchesFrom fuel (← turnAll true flags rest)
    | '+' :: flags => switchesFrom fuel (← turnAll false flags rest)
    | _ => return some (arg :: rest)

def setShell : Action := fun args => do
  if args.isEmpty then showVariables "" fun _ => true
  else
    match ← switchesFrom (args.length + 1) args with
    | some arguments =>
      modify fun m => { m with arguments := arguments, optionIndex := 1, optionOffset := 0 }
    | none => pure ()
  return 0

/-! ## Traps -/

/-- The signals that a trap can name, by their numbers. -/
def signals : List (Nat × String) :=
  [(0, "EXIT"), (1, "HUP"), (2, "INT"), (3, "QUIT"), (4, "ILL"), (5, "TRAP"), (6, "ABRT"),
    (7, "BUS"), (8, "FPE"), (9, "KILL"), (10, "USR1"), (11, "SEGV"), (12, "USR2"), (13, "PIPE"),
    (14, "ALRM"), (15, "TERM"), (16, "STKFLT"), (17, "CHLD"), (18, "CONT"), (19, "STOP"),
    (20, "TSTP"), (21, "TTIN"), (22, "TTOU"), (23, "URG"), (24, "XCPU"), (25, "XFSZ"),
    (26, "VTALRM"), (27, "PROF"), (28, "WINCH"), (29, "IO"), (30, "PWR"), (31, "SYS")]

/-- The signal that a text names. -/
def signal? (s : ByteString) : Option (Nat × String) :=
  let name := s.map Char.toUpper
  signals.find? fun (n, known) => s = toString n || name = known

def showTraps : Run Unit := do
  for (_, name) in signals do
    match (← get).traps.lookup name with
    | some action => sayText ("trap -- " ++ quoted action ++ " " ++ name ++ "\n")
    | none => pure ()

def setTrap (action? : Option ByteString) (name : String) : Run Unit :=
  modify fun m =>
    let others := m.traps.filter (·.1 ≠ name)
    { m with traps := action?.elim others fun action => (name, action) :: others }

def trap : Action := fun args => do
  let (_, args) ← takeFlags [] args
  match args with
  | [] =>
    showTraps
    return 0
  | first :: rest =>
    let (action?, names) :=
      if rest.isEmpty ∨ (first.toList.all Char.isDigit ∧ !first.isEmpty) then (none, args)
      else (if first = "-" then none else some first, rest)
    for name in names do
      match signal? name with
      | some (_, name) => setTrap action? name
      | none =>
        warn ("trap: " ++ name ++ ": bad trap")
        return 1
    return 0

/-! ## The working directory -/

/-- The path that names lead to. -/
def placePath (place : List String) : String :=
  match place with
  | "/" :: names => "/" ++ String.intercalate "/" names
  | names => String.intercalate "/" (basePath :: names)

/-- The place that a path leads to from another; steps back cancel names. -/
def placeFrom (place : List String) (path : String) : List String :=
  (Path.steps path).foldl step (if Path.isAbsolute path then ["/"] else place)
where
  step (place : List String) (name : String) : List String :=
    if name = "." then place
    else if name = ".." then if place = [] ∨ place = ["/"] then ["/"] else place.dropLast
    else if placePath (place ++ [name]) = basePath then []
    else place ++ [name]

/-- The location of a place, if it is a directory. -/
def directoryAt? (t : FileTree) (place : List String) : Option Location :=
  match place with
  | [] => some []
  | "/" :: names =>
    let path := "/" ++ String.intercalate "/" names
    match t.locate path with
    | .ok l => if t.isDirectory l then some l else none
    | .error _ => if systemDirectories.contains path then some place else none
  | names =>
    match t.locate (String.intercalate "/" names) with
    | .ok l => if t.isDirectory l then some l else none
    | .error _ => none

def changeDirectory : Action := fun args => do
  let (flags, args) ← takeFlags ['L', 'P'] args
  let (target, shown) ← match args with
    | [] => do pure ((← variableValue? "HOME").getD "", false)
    | "-" :: _ => do pure ((← variableValue? "OLDPWD").getD "", true)
    | target :: _ => pure (target, false)
  let m ← get
  let path := target.toText
  let place := placeFrom m.place path
  match directoryAt? m.tree place with
  | none => die ("can't cd to " ++ target)
  | some here =>
    let place := if flags.getLast? = some 'P' then here else place
    let now := ByteString.ofText (placePath place)
    let before := (← variableValue? "PWD").getD ""
    set { m with here := here, place := place }
    for (name, value) in [("OLDPWD", before), ("PWD", now)] do
      assign name value
      modify fun m =>
        let v := (m.bindings.get? name).getD { value? := none }
        { m with bindings := m.bindings.insert name { v with exported := true } }
    if shown then sayText (now ++ "\n")
    return 0

def printDirectory : Action := fun args => do
  let (flags, _) ← takeFlags ['L', 'P'] args
  let m ← get
  let place := if flags.getLast? = some 'P' then m.here else m.place
  sayText (ByteString.ofText (placePath place) ++ "\n")
  return 0

/-! ## Reading lines -/

/-- A character with a note whether it is taken as it is. -/
abbrev ReadChar := Char × Bool

/-- Takes one line off a text: its characters, the number of bytes, and whether it has an end. -/
def takeLine (raw : Bool) : Nat → List Char → List ReadChar × Nat × Bool
  | 0, _ | _, [] => ([], 0, false)
  | _ + 1, '\n' :: _ => ([], 1, true)
  | fuel + 1, '\\' :: rest =>
    if raw then
      let (line, n, ended) := takeLine raw fuel rest
      (('\\', false) :: line, n + 1, ended)
    else
      match rest with
      | [] => ([], 1, false)
      | '\n' :: rest =>
        let (line, n, ended) := takeLine raw fuel rest
        (line, n + 2, ended)
      | c :: rest =>
        let (line, n, ended) := takeLine raw fuel rest
        ((c, true) :: line, n + 2, ended)
  | fuel + 1, c :: rest =>
    let (line, n, ended) := takeLine raw fuel rest
    (if c = '\x00' then line else (c, false) :: line, n + 1, ended)

/-- Separators of fields. -/
structure Separation where
  /-- Space that separates. -/
  isSpace : Char → Bool
  /-- Other characters that separate. -/
  isMark : Char → Bool

namespace Separation

def ofText (s : List Char) : Separation where
  isSpace c := s.contains c && " \t\n".toList.contains c
  isMark c := s.contains c && !" \t\n".toList.contains c

def skipSpace (p : Separation) (s : List ReadChar) : List ReadChar :=
  s.dropWhile fun (c, kept) => !kept && p.isSpace c

def isSeparator (p : Separation) (c : ReadChar) : Bool := !c.2 && (p.isSpace c.1 || p.isMark c.1)

/-- Skips one separator and the space around it. -/
def skipSeparator (p : Separation) (s : List ReadChar) : List ReadChar :=
  match p.skipSpace s with
  | (c, kept) :: rest => if !kept && p.isMark c then p.skipSpace rest else (c, kept) :: rest
  | [] => []

def fieldText (s : List ReadChar) : ByteString := String.ofList (s.map (·.1))

/-- The last field: all that is left, without a separator that ends it. -/
def lastField (p : Separation) (s : List ReadChar) : ByteString :=
  let field := s.takeWhile fun c => !p.isSeparator c
  if (p.skipSeparator (s.drop field.length)).isEmpty then fieldText field
  else fieldText (s.reverse.dropWhile fun (c, kept) => !kept && p.isSpace c).reverse

/-- The fields of a line for a number of variables. -/
def divide (p : Separation) : Nat → List ReadChar → List ByteString
  | 0, _ => []
  | 1, s => [p.lastField s]
  | n + 1, s =>
    let field := s.takeWhile fun c => !p.isSeparator c
    fieldText field :: p.divide n (p.skipSeparator (s.drop field.length))

end Separation

/-- The options of a command that reads a line. -/
def readOptions : Nat → Bool → List ByteString → Run (Bool × List ByteString)
  | 0, raw, args => return (raw, args)
  | fuel + 1, raw, args => do
    match args with
    | "--" :: rest => return (raw, rest)
    | "-r" :: rest => readOptions fuel true rest
    | "-p" :: _ :: rest => readOptions fuel raw rest
    | arg :: rest =>
      match arg.toList with
      | '-' :: c :: more =>
        if c = 'r' then readOptions fuel true (String.ofList ('-' :: more) :: rest)
        else if c = 'p' ∧ !more.isEmpty then readOptions fuel raw rest
        else if c = 'p' then die "No arg for -p option"
        else die ("Illegal option -" ++ c.toString)
      | _ => return (raw, args)
    | [] => return (raw, [])

def readLine : Action := fun args => do
  let (raw, names) ← readOptions (2 * args.length + 64) false args
  if names.isEmpty then die "arg count"
  let text ← peekRest 0
  let (line, n, ended) := takeLine raw (text.length + 1) text
  consume 0 n
  let p := Separation.ofText (← separators)
  let values := p.divide names.length (p.skipSpace line)
  for (name, value) in names.zip values do
    if !isName name.toList then die (name ++ ": bad variable name")
    assign name value
  return if ended then 0 else 1

/-! ## Options of scripts -/

/-- What a list of options says about one of them: whether it takes an argument. -/
def optionTakes? (options : List Char) (c : Char) : Option Bool :=
  match options with
  | [] => none
  | o :: rest =>
    if o = c then some (rest.head? = some ':')
    else
      match rest with
      | ':' :: rest => optionTakes? rest c
      | rest => optionTakes? rest c

def getOption : Action := fun args => do
  match args with
  | options :: name :: rest =>
    let m ← get
    let words := if rest.isEmpty then m.arguments else rest
    let index := max m.optionIndex 1
    let before := (words[index - 2]?).getD ""
    let inside := if index ≤ 1 ∨ m.optionOffset = 0 then []
      else before.toList.drop m.optionOffset
    let (letters, index) : Option (List Char) × Nat :=
      if !inside.isEmpty then (some inside, index)
      else
        match ((words[index - 1]?).getD "").toList with
        | ['-', '-'] => (none, index + 1)
        | '-' :: c :: more => (some (c :: more), index + 1)
        | _ => (none, index)
    match letters with
    | none | some [] => finish name index 0 '?' 1
    | some (c :: more) =>
      let silent := options.toList.head? = some ':'
      let offset := (words[index - 2]?).elim 0 fun word => word.length - more.length
      match optionTakes? options.toList c with
      | none =>
        if silent then assign "OPTARG" c.toString
        else
          warn ("Illegal option -" ++ c.toString)
          forget
        finish name index (if more.isEmpty then 0 else offset) '?' 0
      | some false =>
        assign "OPTARG" ""
        finish name index (if more.isEmpty then 0 else offset) c 0
      | some true =>
        if !more.isEmpty then
          assign "OPTARG" (String.ofList more)
          finish name index 0 c 0
        else
          match words[index - 1]? with
          | some value =>
            assign "OPTARG" value
            finish name (index + 1) 0 c 0
          | none =>
            if silent then
              assign "OPTARG" c.toString
              finish name index 0 ':' 0
            else
              warn ("No arg for -" ++ c.toString ++ " option")
              forget
              finish name index 0 '?' 0
  | _ => die "Usage: getopts optstring var [arg]"
where
  forget : Run Unit := modify fun m => { m with bindings := m.bindings.erase "OPTARG" }
  finish (name : String) (index offset : Nat) (c : Char) (status : Nat) : Run Nat := do
    assign "OPTIND" (toString index)
    if !isName name.toList then die (name ++ ": bad variable name")
    assign name c.toString
    modify fun m => { m with optionIndex := index, optionOffset := offset }
    return status

/-! ## Small commands -/

/-- Writes the output of a command. -/
def output (text : List Char) : Run Nat := do
  if ← write 1 text then return 0
  if text.isEmpty then return 0
  complain ((← get).command ++ ": I/O error")
  return 1

def echo : Action := fun args => output (echoText args)

def print : Action := fun args => do
  let (_, args) ← takeFlags [] args
  match args with
  | [] => die "usage: printf format [arg ...]"
  | format :: args =>
    let f := Format.print format args
    for problem in f.problems do complain problem
    let failed ← output f.output
    match f.stop with
    | some (some message) => die message
    | _ => return max failed f.status

/-- Decides a condition. -/
def condition (isProgram : String → Bool) : Action := fun args => do
  let m ← get
  let world : Condition.World :=
    ⟨fileKind isProgram m, isLink m, isSame m⟩
  match Condition.holds world (args.length + 1) args with
  | .ok b => return if b then 0 else 1
  | .error message => die message

def bracket (isProgram : String → Bool) : Action := fun args =>
  if args.getLast? = some "]" then condition isProgram args.dropLast else die "missing ]"

/-- The octal digits of a number. -/
def octal (width n : Nat) : String :=
  String.ofList (fillLeft '0' width (Nat.toDigits 8 n))

def setMask : Action := fun args => do
  let (flags, args) ← takeFlags ['S'] args
  match args with
  | [] =>
    let mask := (← get).mask
    if flags.isEmpty then sayText (octal 4 mask ++ "\n")
    else
      let rights := fun n : Nat =>
        (if n / 4 % 2 = 0 then "r" else "") ++ (if n / 2 % 2 = 0 then "w" else "") ++
          (if n % 2 = 0 then "x" else "")
      sayText ("u=" ++ rights (mask / 64) ++ ",g=" ++ rights (mask / 8) ++ ",o=" ++ rights mask ++
        "\n")
    return 0
  | arg :: _ =>
    if arg.toList.all isOctal then
      modify fun m => { m with mask := Arithmetic.numeral 8 arg.toList % 512 }
      return 0
    else if arg.toList.all Char.isDigit then die ("Illegal number: " ++ arg)
    else return 0

/-- Waits for commands in the background. -/
def wait : Action := fun args => do
  let jobs := (← get).jobs
  match args.getLast? with
  | none => return 0
  | some arg =>
    match jobs.find? fun job => toString job.1 = arg with
    | some (_, status) => return status
    | none => return 127

def addAliases : Action := fun args => do
  let list := fun (name, value) => sayText (name ++ "=" ++ quoted value ++ "\n")
  if args.isEmpty then
    for (name, value) in (← get).aliases.mergeSort fun a b => decide (a.1 ≤ b.1) do
      list (name, value)
  let mut status := 0
  for arg in args do
    match definition arg with
    | (name, some value) =>
      modify fun m => { m with aliases := (name, value) :: m.aliases.filter (·.1 ≠ name) }
    | (name, none) =>
      match (← get).aliases.lookup name with
      | some value => list (name, value)
      | none =>
        warn ("alias: " ++ name ++ " not found")
        status := 1
  return status

def removeAlias : Action := fun args => do
  let (flags, args) ← takeFlags ['a'] args
  if flags.contains 'a' then modify fun m => { m with aliases := [] }
  let mut status := 0
  for name in args do
    if (← get).aliases.any (·.1 = name) then
      modify fun m => { m with aliases := m.aliases.filter (·.1 ≠ name) }
    else
      warn ("unalias: " ++ name ++ " not found")
      status := 1
  return status

/-- The command with a name, among those that run no other commands. -/
def find? (isProgram : String → Bool) (name : String) : Option Action :=
  match name with
  | ":" | "true" | "jobs" => some fun _ => return 0
  | "false" => some fun _ => return 1
  | "exit" => some exit
  | "return" => some comeBack
  | "break" => some (leaveLoops .quitLoops)
  | "continue" => some (leaveLoops .nextRound)
  | "shift" => some shift
  | "export" =>
    some (declare name Variable.exported fun v => { v with exported := true })
  | "readonly" =>
    some (declare name Variable.readonly fun v => { v with readonly := true })
  | "unset" => some unset
  | "local" => some makeLocal
  | "set" => some setShell
  | "trap" => some trap
  | "times" => some fun _ => do
    sayText "0m0.000000s 0m0.000000s\n0m0.000000s 0m0.000000s\n"
    return 0
  | "cd" | "chdir" => some changeDirectory
  | "pwd" => some printDirectory
  | "read" => some readLine
  | "getopts" => some getOption
  | "echo" => some echo
  | "printf" => some print
  | "test" => some (condition isProgram)
  | "[" => some (bracket isProgram)
  | "umask" => some setMask
  | "ulimit" => some fun _ => do
    sayText "unlimited\n"
    return 0
  | "wait" => some wait
  | "alias" => some addAliases
  | "unalias" => some removeAlias
  | _ => none

end LayoutShell.Host.Builtin
