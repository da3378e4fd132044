import LayoutShell.Host.Launch

/-!
# Running scripts

Scripts are run by recursion on their depth: a step runs one command and leaves the commands inside
it to an argument `eval`.

* `Step.script` runs a command, and `evalScript` ties the steps together.
* `runCommand` runs a text in a new shell.
-/

namespace LayoutShell.Host

open Files

/-! ## Commands that run other commands -/

/-- Says that a command is not run. -/
def complainOf (name : ByteString) (e : LaunchError) : Run Unit :=
  complain (name ++ ": " ++ match e with
    | .notFound => "not found"
    | .notPermitted | .unsuitable => "Permission denied")

/-- Runs a command outside the shell. -/
def runProgram (eval : Eval) (name : ByteString) (args : List ByteString) : Run Unit := do
  match ← launch eval (name :: args) with
  | .ok status => setStatus status
  | .error e =>
    complainOf name e
    setStatus (if e = .unsuitable then 127 else e.status)

/-- Runs the text that the arguments form. -/
def evalArguments (eval : Eval) (tested : Bool) (args : List ByteString) : Run Nat := do
  let line := (← get).line
  runAsCommand eval tested (String.intercalate " " args).toList
  modify fun m => { m with line := line }
  return (← get).status

/-- The path of a file that is run in the shell itself. -/
def sourcePath (name : ByteString) : Run ByteString := do
  if name.toList.contains '/' then return name
  let m ← get
  let found := (← searchPath).findSome? fun directory =>
    let path := if directory.isEmpty then name else directory ++ "/" ++ name
    match fileKind (fun _ => false) m path with
    | .file _ _ => some path
    | _ => none
  match found with
  | some path => return path
  | none => die (name ++ ": not found")

/-- Runs a file in the shell itself. -/
def runHere (eval : Eval) (args : List ByteString) : Run Nat := do
  match args with
  | [] => return 0
  | name :: _ =>
    let path ← sourcePath name
    match ← readFile path with
    | .error e => die (openingError .read path e)
    | .ok text =>
      let line := (← get).line
      modify fun m => { m with command := path }
      tryCatch (runAsCommand eval false text) fun
        | .comeBack => return
        | s => throw s
      modify fun m => { m with line := line }
      return (← get).status

/-- The text that describes a command, if there is one. -/
def describe? (verbose : Bool) (name : ByteString) : Run (Option String) := do
  let m ← get
  let isBuiltin := (Builtin.find? Program.isKnown name).isSome ∨
    ["eval", ".", "exec", "command", "type", "kill", "hash"].contains name
  let text := fun (kind : String) => if verbose then name ++ " is " ++ kind else name
  if Reader.reservedWords.contains name then return some (text "a shell keyword")
  match m.aliases.lookup name with
  | some value =>
    return some (if verbose then name ++ " is an alias for " ++ value
      else "alias " ++ name ++ "=" ++ Builtin.quoted value)
  | none => pure ()
  if Builtin.special.contains name then return some (text "a special shell builtin")
  if m.functions.any (·.1 = name) then return some (text "a shell function")
  if isBuiltin then return some (text "a shell builtin")
  match ← findCommand name with
  | .ok path =>
    match fileKind Program.isKnown m path with
    | .file _ true =>
      let kind := if m.found.contains name then "a tracked alias for " else ""
      return some (if verbose then text (kind ++ path) else path)
    | _ => return none
  | .error _ => return none

/-- Says what the arguments are. -/
def describeAll (args : List ByteString) : Run Nat := do
  let mut status := 0
  for name in args do
    match ← describe? true name with
    | some text => sayText (text ++ "\n")
    | none =>
      sayText (name ++ ": not found\n")
      status := 127
  return status

/-- The group in which a found command is listed. -/
def foundGroup (name : ByteString) : Nat :=
  let codes := name.toList.map Char.toNat
  (codes.headD 0 * 16 + codes.foldl (· + ·) 0) % 32768 % 31

/-- Lists, forgets or looks up the commands that were found in the search path. -/
def rememberCommands (args : List ByteString) : Run Nat := do
  match args with
  | [] =>
    for group in List.range 31 do
      for name in (← get).found do
        if foundGroup name = group then
          match ← findCommand name with
          | .ok path => sayText (path ++ "\n")
          | .error _ => pure ()
    return 0
  | "-r" :: _ =>
    modify fun m => { m with found := [] }
    return 0
  | names =>
    let mut status := 0
    for name in names do
      let isOwn := (← get).functions.any (·.1 = name) ∨
        (Builtin.find? Program.isKnown name).isSome
      if !isOwn ∧ !name.toList.contains '/' then
        match ← findCommand name with
        | .ok _ => pure ()
        | .error _ =>
          complain (name ++ ": not found")
          status := 1
    return status

/-- Sends a signal to processes. -/
def kill (eval : Eval) (args : List ByteString) : Run Nat := do
  let (signal?, targets) := match args with
    | "-s" :: name :: rest => (Builtin.signal? name, rest)
    | first :: rest =>
      match first.toList with
      | '-' :: name => (Builtin.signal? (String.ofList name), rest)
      | _ => (some (15, "TERM"), args)
    | [] => (none, [])
  match signal? with
  | none => die ("invalid signal number or name: " ++ String.ofList (args.headD "-").toList.tail)
  | some (number, name) =>
    let mut status := 0
    for target in targets do
      if target = toString processNumber then
        if number ≠ 0 then
          match (← get).traps.lookup name with
          | some action => runText eval false action.toList
          | none =>
            setStatus (128 + number)
            Builtin.setTrap none "EXIT"
            throw .leave
      else if !(← get).jobs.any fun job => toString job.1 = target then
        complain "No such process"
        status := 1
    return status

/-- The commands of the shell that run other commands. -/
def runner? (eval : Eval) (tested : Bool) (name : String) : Option Builtin.Action :=
  match name with
  | "eval" => some (evalArguments eval tested)
  | "." => some (runHere eval)
  | "type" => some describeAll
  | "kill" => some (kill eval)
  | "hash" => some rememberCommands
  | _ => none

/-- A command of the shell. -/
def builtin? (eval : Eval) (tested : Bool) (name : String) : Option Builtin.Action :=
  (runner? eval tested name).or (Builtin.find? Program.isKnown name)

/-- Runs a command of the shell. -/
def runBuiltin (name : ByteString) (act : Builtin.Action) (args : List ByteString) : Run Unit := do
  let command := (← get).command
  modify fun m => { m with command := name }
  ensure (do setStatus (← act args)) (modify fun m => { m with command := command })

/-- Goes on after an error. -/
def catchFailure (act : Run Unit) : Run Unit :=
  tryCatch act fun
    | .failure => return
    | s => throw s

/-- Gives a variable its old value back. -/
def restoreVariable (bindings : Dict String Variable) (old : String × Option Variable) :
    Dict String Variable :=
  match old.2 with
  | some v => bindings.insert old.1 v
  | none => bindings.erase old.1

/-- Runs a function. -/
def runFunction (eval : Eval) (tested : Bool) (body : Script) (args : List ByteString) :
    Run Unit := do
  let m ← get
  set { m with
    arguments := args, loops := 0, hidden := [] :: m.hidden, optionIndex := 1, optionOffset := 0 }
  ensure
    (tryCatch (eval tested body) fun
      | .comeBack => return
      | s => throw s)
    (modify fun n =>
      let bindings := (n.hidden.headD []).foldl restoreVariable n.bindings
      { n with
        arguments := m.arguments, loops := m.loops, hidden := m.hidden, bindings := bindings
        optionIndex := m.optionIndex, optionOffset := m.optionOffset })

/-- Runs a command without regard to functions; its errors do not end the script. -/
def runPlain (eval : Eval) (args : List ByteString) : Run Nat := do
  let (flags, args) ← Builtin.takeFlags ['p', 'v', 'V'] args
  match args.dropWhile (· = "command") with
  | [] => return 0
  | name :: args =>
    if flags.contains 'v' ∨ flags.contains 'V' then
      match ← describe? (flags.contains 'V') name with
      | some text =>
        sayText (text ++ "\n")
        return 0
      | none =>
        if flags.contains 'V' then sayText (name ++ ": not found\n")
        return 127
    else
      match builtin? eval false name with
      | some act => catchFailure (runBuiltin name act args)
      | none =>
        modify fun m => { m with command := "" }
        runProgram eval name args
      return (← get).status

/-- Replaces the shell by a program. -/
def replaceShell (eval : Eval) (args : List ByteString) : Run Nat := do
  match args with
  | [] => return 0
  | name :: args =>
    runProgram eval name args
    Builtin.setTrap none "EXIT"
    throw .leave

/-! ## Simple commands -/

namespace Step

/-- Commands whose arguments may be assignments. -/
def declaring : List String := ["export", "readonly", "local"]

/-- Expands the words of a command. -/
def expandWords (eval : Eval) (words : List Word) : Run (List ByteString) := do
  let mut fields : List ByteString := []
  for w in words do
    let assignment? := if fields.head?.any declaring.contains then Word.assignment? w else none
    match assignment? with
    | some (name, value) =>
      fields := fields ++ [name ++ "=" ++ (← Expansion.value (outputOf eval) value)]
    | none => fields := fields ++ (← Expansion.fields (outputOf eval) w)
  return fields

/-- Sets variables one after another; gives the assignments as texts. -/
def assignAll (eval : Eval) (exported : Bool) (assignments : List (String × Word)) :
    Run (List ByteString) :=
  assignments.mapM fun (name, w) => do
    let value ← Expansion.value (outputOf eval) w
    assign name value
    if exported then
      modify fun m =>
        let v := (m.bindings.get? name).getD { value? := none }
        { m with bindings := m.bindings.insert name { v with exported := true } }
    return name ++ "=" ++ value

/-- Shows a command before it is run, if a switch says so. -/
def trace (streams : List (Nat × Nat)) (words : List ByteString) : Run Unit := do
  let m ← get
  if m.switches.contains 'x' then
    let start := (← variableValue? "PS4").getD ""
    match streams.lookup 2 with
    | some i => writeChannel i (start ++ String.intercalate " " words ++ "\n").toList
    | none => return

/-- Runs a command with variables that are set for it only. -/
def withAssignments (eval : Eval) (assignments : List (String × Word))
    (act : List ByteString → Run Unit) : Run Unit := do
  let bindings := (← get).bindings
  let old := assignments.map fun (name, _) => (name, bindings.get? name)
  ensure (do act (← assignAll eval true assignments))
    (modify fun m => { m with bindings := old.foldl restoreVariable m.bindings })

/-- Runs a command with its arguments. -/
def command (eval : Eval) (tested : Bool) (assignments : List (String × Word))
    (redirects : List Redirect) (name : ByteString) (args : List ByteString) : Run Unit := do
  let streams := (← get).streams
  let display := fun (assigned : List ByteString) => trace streams (assigned ++ name :: args)
  if name = "exec" then
    if !(← applyRedirects eval redirects) then
      setStatus 2
      throw .failure
    display (← assignAll eval false assignments)
    runBuiltin name (replaceShell eval) args
  else if Builtin.special.contains name then
    let done ← withRedirects eval redirects do
      display (← assignAll eval false assignments)
      match builtin? eval tested name with
      | some act => runBuiltin name act args
      | none => return
    if !done then throw .failure
  else
    let act : Run Unit := match (← get).functions.lookup name with
      | some body => runFunction eval tested body args
      | none =>
        if name = "command" then catchFailure (runBuiltin name (runPlain eval) args)
        else
          match builtin? eval tested name with
          | some act => catchFailure (runBuiltin name act args)
          | none => runProgram eval name args
    let _ ← withRedirects eval redirects do
      withAssignments eval assignments fun assigned => do
        display assigned
        act

/-- Runs a simple command. -/
def simple (eval : Eval) (tested : Bool) (line : Nat) (assignments : List (String × Word))
    (words : List Word) (redirects : List Redirect) : Run Unit := do
  modify fun m => { m with line := line, outputStatus? := none }
  match ← expandWords eval words with
  | name :: args => command eval tested assignments redirects name args
  | [] =>
    let streams := (← get).streams
    let _ ← withRedirects eval redirects do
      let assigned ← assignAll eval false assignments
      if !assigned.isEmpty then trace streams assigned
      modify fun m => { m with status := m.outputStatus?.getD 0 }
  stopOnError tested

/-! ## Loops -/

/-- What a loop does when its body is interrupted. -/
inductive Reaction
  | goOn
  | stop
  | pass (s : Signal)

def reaction : Signal → Reaction
  | .quitLoops n => if n ≤ 1 then .stop else .pass (.quitLoops (n - 1))
  | .nextRound n => if n ≤ 1 then .goOn else .pass (.nextRound (n - 1))
  | s => .pass s

/-- A bound on the rounds of a loop. -/
def maxRounds : Nat := Nat.pow 2 40

/-- Runs the body as long as the condition holds. The status is that of the last round. -/
def rounds (condition : Run Bool) (body : Run Unit) :
    Nat → Nat → Machine → Except Signal Unit × Machine
  | 0, last, m => (.ok (), { m with status := last })
  | n + 1, last, m =>
    match (do if ← condition then body; return true else return false : Run Bool).run.run m with
    | (.ok true, m) => rounds condition body n m.status m
    | (.ok false, m) => (.ok (), { m with status := last })
    | (.error s, m) =>
      match reaction s with
      | .goOn => rounds condition body n m.status m
      | .stop => (.ok (), m)
      | .pass s => (.error s, m)

/-- Runs the body for each value. -/
def eachRound (body : ByteString → Run Unit) :
    List ByteString → Machine → Except Signal Unit × Machine
  | [], m => (.ok (), m)
  | value :: rest, m =>
    match (body value).run.run m with
    | (.ok (), m) => eachRound body rest m
    | (.error s, m) =>
      match reaction s with
      | .goOn => eachRound body rest m
      | .stop => (.ok (), m)
      | .pass s => (.error s, m)

/-- Runs a loop, which commands inside it can leave. -/
def inLoop (act : Machine → Except Signal Unit × Machine) : Run Unit := do
  modify fun m => { m with loops := m.loops + 1 }
  ensure (ExceptT.mk fun m => act m) (modify fun m => { m with loops := m.loops - 1 })

/-! ## Commands of all kinds -/

/-- Runs the commands of a pipeline one after another; each reads what the one before it wrote. -/
def stages (eval : Eval) (tested : Bool) : List Script → Run Unit
  | [] => return
  | [last] => forked (untilEnd eval (eval tested last))
  | first :: rest => do
    let i ← addChannel (.sink [])
    forked (untilEnd eval (do connect 1 (some i); eval tested first))
    modify fun m =>
      { m with channels := m.channels.setIfInBounds i (.source (gathered m i)) }
    connect 0 (some i)
    stages eval tested rest

/-- Runs a pipeline. -/
def pipeline (eval : Eval) (tested : Bool) (list : List Script) : Run Unit := do
  let m ← get
  ensure (stages eval tested list) (modify fun n =>
    { n with streams := m.streams, channels := n.channels.extract 0 m.channels.size })

/-- The body of the first case with a pattern that matches. -/
def chosen (eval : Eval) (subject : List Char) : List (List Word × Script) → Run (Option Script)
  | [] => return none
  | (patterns, body) :: rest => do
    if ← patterns.anyM fun w => return (← Expansion.pattern (outputOf eval) w).accepts subject then
      return some body
    else chosen eval subject rest

/-- Runs a command; those inside it are run by `eval`. -/
def script (eval : Eval) (tested : Bool) : Script → Run Unit
  | .simple line assignments words redirects =>
    simple eval tested line assignments words redirects
  | .sequence commands => commands.forM (eval tested)
  | .and first second => do
    eval true first
    if (← get).status = 0 then eval tested second
  | .or first second => do
    eval true first
    if (← get).status ≠ 0 then eval tested second
  | .pipe list => do
    pipeline eval tested list
    stopOnError tested
  | .negate body => do
    eval true body
    modify fun m => { m with status := if m.status = 0 then 1 else 0 }
  | .background body => do
    forked (untilEnd eval (do
      connect 0 (some (← addChannel .null))
      eval tested body))
    modify fun m =>
      { m with jobs := (processNumber + 1 + m.jobs.length, m.status) :: m.jobs, status := 0 }
  | .subshell body => do
    forked (untilEnd eval (eval tested body))
    stopOnError tested
  | .redirected line body redirects => do
    modify fun m => { m with line := line }
    let _ ← withRedirects eval redirects (eval tested body)
  | .branch condition yes no => do
    eval true condition
    if (← get).status = 0 then eval tested yes
    else if no.isSkip then setStatus 0
    else eval tested no
  | .loop goOn condition body =>
    let test : Run Bool := do
      eval true condition
      return decide ((← get).status = 0) == goOn
    inLoop (rounds test (eval tested body) maxRounds 0)
  | .each line name words? body => do
    modify fun m => { m with line := line }
    let values ← match words? with
      | some words => do pure (← words.mapM (Expansion.fields (outputOf eval))).flatten
      | none => do pure (← get).arguments
    if values.isEmpty then setStatus 0
    inLoop (eachRound (fun value => do assign name value; eval tested body) values)
  | .choose line subject cases => do
    modify fun m => { m with line := line }
    let text ← Expansion.single (outputOf eval) subject
    match ← chosen eval text.toList cases with
    | some body => if body.isSkip then setStatus 0 else eval tested body
    | none => setStatus 0
  | .define name body => do
    modify fun m =>
      { m with functions := (name, body) :: m.functions.filter (·.1 ≠ name), status := 0 }

end Step

/-! ## Shells -/

/-- Runs a script of at most this depth. -/
def evalScript : Nat → Eval
  | 0 => fun _ _ => die "too deep"
  | depth + 1 => Step.script (evalScript depth)

/-- A bound on the depth of scripts, with the functions they call. -/
def maxDepth : Nat := 20000

/-- The variables of a new shell. -/
def firstVariables : Dict String Variable :=
  let exported := [("HOME", "/root"), ("PWD", basePath),
    ("PATH", systemPath)]
  let own := [("IFS", " \t\n"), ("OPTIND", "1"), ("PS1", "$ "), ("PS2", "> "), ("PS4", "+ ")]
  let all := exported.map (fun (n, v) => (n, Variable.mk (some v) true false)) ++
    own.map fun (n, v) => (n, Variable.mk (some v) false false)
  all.foldl (fun d (n, v) => d.insert n v) ∅

/-- The locations of the directories that every system has, each after the one that holds it. -/
def systemLocations : List Location :=
  (systemDirectories.filter (· ≠ "/")).map fun path => "/" :: Path.steps path

/-- Runs a command text on a file tree: the tree afterwards and what the command prints. The
directories of the system are there while the command runs, and stay if it leaves something in
them. -/
def runCommand (command : String) (t : FileTree) : FileTree × List UInt8 :=
  let eval := evalScript maxDepth
  let added := systemLocations.filter fun l => (t.entry? l).isNone
  let m : Machine :=
    { tree := added.foldl (fun t l => t.put l .directory) t
      channels := #[.null, .sink [], .sink []], bindings := firstVariables }
  let (_, m) := (untilEnd eval (runText eval false (ByteString.ofText command).toList)).run.run m
  let left := added.reverse.foldl (fun t l =>
    if t.isDirectory l ∧ (t.children l).isEmpty then t.remove l else t) m.tree
  (left, toBytes (gathered m 1))

end LayoutShell.Host
