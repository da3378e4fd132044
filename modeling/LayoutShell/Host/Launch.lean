import LayoutShell.Host.Programs
import LayoutShell.Host.Redirection

/-!
# Launching programs

A command outside the shell is a program of the system, a shell, or a file with a script.

* `findCommand` finds the program that a name stands for.
* `launch` runs it.
-/

namespace LayoutShell.Host

open Files

/-- The interpreter that a script names in its first line. -/
def interpreter? (text : List Char) : Option (List String) :=
  match text with
  | '#' :: '!' :: rest =>
    let line := rest.takeWhile (· ≠ '\n')
    some (((line.splitOn ' ').filter (!·.isEmpty)).map String.ofList)
  | _ => none

/-- Runs the script in a file. -/
def runScriptFile (eval : Eval) (path : ByteString) (arguments : List ByteString) :
    Run (Except LaunchError Nat) := do
  match ← readFile path with
  | .error _ => return .error .notFound
  | .ok text =>
    let shells := ["/bin/sh", "/usr/bin/sh", "/bin/dash", "/usr/bin/dash", "/usr/bin/env"]
    match interpreter? text with
    | some (program :: _) =>
      if !shells.contains program then return .error .notFound
    | _ => pure ()
    newShell eval path arguments (runText eval false text)
    return .ok (← get).status

/-- The path of a command in a directory of the search path. -/
def commandIn (name directory : ByteString) : ByteString :=
  if directory.isEmpty then name else directory ++ "/" ++ name

/-- The directories in which commands are searched for. -/
def searchPath : Run (List ByteString) := do
  return (((← variableValue? "PATH").getD "").toList.splitOn ':').map String.ofList

/-- The path of the program that a name stands for. -/
def findCommand (name : ByteString) : Run (Except LaunchError ByteString) := do
  let m ← get
  if name.toList.contains '/' then return .ok name
  let paths := (← searchPath).map (commandIn name)
  match paths.find? fun path => (fileKind Program.isKnown m path) matches .file _ true with
  | some path =>
    modify fun m => { m with found := if m.found.contains name then m.found else m.found ++ [name] }
    return .ok path
  | none =>
    let nothing := paths.all fun path => fileKind Program.isKnown m path = .missing
    return .error (if nothing then .notFound else .unsuitable)

/-- Launches the program at a path. -/
def launchPath (eval : Eval) (launch : Launch) (path : ByteString) (arguments : List ByteString) :
    Run (Except LaunchError Nat) := do
  let m ← get
  match m.tree.entryAt (resolveFrom m.here path) with
  | .ok .directory => return .error .notPermitted
  | .ok _ =>
    match fileKind Program.isKnown m path with
    | .file _ true => runScriptFile eval path arguments
    | _ => return .error .notPermitted
  | .error _ =>
    match (programName? path).bind Program.find? with
    | some program => return .ok (← program launch arguments)
    | none =>
      if systemDirectories.contains path then return .error .notPermitted
      else return .error .notFound

/-- The options and arguments of a new shell. -/
structure ShellCall where
  /-- The first argument is a command. -/
  isCommand : Bool := false
  switches : List ByteString := []
  arguments : List ByteString := []

def shellCall : Nat → ShellCall → List ByteString → ShellCall
  | 0, c, args => { c with arguments := args }
  | fuel + 1, c, args =>
    match args with
    | [] => c
    | "-" :: rest | "--" :: rest => { c with arguments := rest }
    | "-o" :: name :: rest =>
      shellCall fuel { c with switches := c.switches ++ ["-o", name] } rest
    | "+o" :: name :: rest =>
      shellCall fuel { c with switches := c.switches ++ ["+o", name] } rest
    | arg :: rest =>
      match arg.toList with
      | '-' :: flags =>
        let others := flags.filter fun f => f ≠ 'c' ∧ f ≠ 's'
        let switches := if others.isEmpty then [] else [String.ofList ('-' :: others)]
        shellCall fuel
          { c with
            isCommand := c.isCommand || flags.contains 'c', switches := c.switches ++ switches }
          rest
      | '+' :: _ => shellCall fuel { c with switches := c.switches ++ [arg] } rest
      | _ => { c with arguments := args }

/-- Runs a shell as a program. -/
def shellProgram (eval : Eval) (name : ByteString) (args : List ByteString) : Run Nat := do
  let c := shellCall (args.length + 1) {} args
  let start := fun (name : ByteString) (arguments : List ByteString) (act : Run Unit) => do
    newShell eval name arguments do
      let _ ← Builtin.switchesFrom (c.switches.length + 1) c.switches
      act
    return (← get).status
  if c.isCommand then
    match c.arguments with
    | [] =>
      warn (name ++ ": 0: -c requires an argument")
      return 2
    | [text] => start name [] (runText eval false text.toList)
    | text :: name :: arguments => start name arguments (runText eval false text.toList)
  else
    match c.arguments with
    | path :: arguments =>
      match ← readFile path with
      | .ok text => start path arguments (runText eval false text)
      | .error e =>
        warn (name ++ ": 0: " ++ openingError .read path e)
        return 2
    | [] => start name [] (do runText eval false (← readRest 0))

/-- Launches a command outside the shell. -/
def launchWith (eval : Eval) (launch : Launch) : Launch
  | [] => return .ok 0
  | name :: args => do
    let shellNames := ["sh", "dash"]
    match ← findCommand name with
    | .error e => return .error e
    | .ok path =>
      if (programName? path).any shellNames.contains then
        return .ok (← shellProgram eval name args)
      else launchPath eval launch path args

/-- A bound on programs that launch programs. -/
def launchDepth : Nat := 100

/-- Launches a command, by recursion on the number of programs that launch each other. -/
def launchFrom (eval : Eval) : Nat → Launch
  | 0 => fun _ => return .error .notFound
  | depth + 1 => launchWith eval (launchFrom eval depth)

def launch (eval : Eval) : Launch := launchFrom eval launchDepth

end LayoutShell.Host
