import LayoutShell.Host.Builtin

/-!
# Copies of the shell

Some commands are run in a copy of the shell, whose variables and streams are its own, and some in a
new shell. The scripts in them are run by an argument `eval`.

* `forked` runs an action in a copy, and `newShell` in a new shell.
* `runText` runs a text, one line of commands after another.
* `outputOf` is the output of a script.
-/

namespace LayoutShell.Host

open Files

/-- Runs a script; the flag says that something around it tests its status. -/
abbrev Eval := Bool → Script → Run Unit

variable {α : Type}

/-- Runs `act` and then `after`, even if `act` is interrupted. -/
def ensure (act : Run α) (after : Run Unit) : Run α := do
  let result : Except Signal α ← tryCatch (do return .ok (← act)) fun s => return .error s
  after
  match result with
  | .ok a => return a
  | .error s => throw s

/-- Runs an action in a copy of the shell. What it does to files and streams stays. -/
def forked (act : Run Unit) : Run Unit := do
  let m ← get
  set { m with traps := [], loops := 0 }
  tryCatch act fun _ => return
  modify fun n => { m with
    tree := n.tree
    channels := n.channels.extract 0 m.channels.size
    status := n.status }

/-- Runs the commands of a text, up to its end or an error; says whether there are any. -/
def runSource (eval : Eval) (tested : Bool) : Nat → Source → Run Bool
  | 0, _ => return false
  | fuel + 1, s => do
    match s.nextCommand with
    | .error e =>
      modify fun m => { m with line := e.line }
      die ("Syntax error: " ++ e.message)
    | .ok (none, _) => return false
    | .ok (some script, s) =>
      modify fun m => { m with documents := s.documents, nextDocument := s.next }
      if !(← get).switches.contains 'n' then eval tested script
      let m ← get
      let more ← runSource eval tested fuel
        { s with documents := m.documents, next := m.nextDocument, aliases := m.aliases }
      return more || !script.isSkip

/-- Runs the commands of a text; says whether there are any. -/
def runLines (eval : Eval) (tested : Bool) (text : List Char) : Run Bool := do
  let m ← get
  runSource eval tested (text.length + 1)
    { rest := text, documents := m.documents, next := m.nextDocument, aliases := m.aliases }

/-- Runs the commands of a text. -/
def runText (eval : Eval) (tested : Bool) (text : List Char) : Run Unit := do
  let _ ← runLines eval tested text

/-- Runs the commands of a text. Without any the status is zero. -/
def runAsCommand (eval : Eval) (tested : Bool) (text : List Char) : Run Unit := do
  if !(← runLines eval tested text) then setStatus 0

/-- Runs an action and then what is to be run at the end of a shell. -/
def untilEnd (eval : Eval) (act : Run Unit) : Run Unit := do
  tryCatch act fun _ => return
  match (← get).traps.lookup "EXIT" with
  | some action =>
    let status := (← get).status
    Builtin.setTrap none "EXIT"
    let ended ← tryCatch (do runText eval false action.toList; return false) fun s =>
      return decide (s = .leave ∨ s = .failure)
    if !ended then setStatus status
  | none => return

/-- The output of a script. -/
def outputOf (eval : Eval) (script : Script) : Run (List Char) := do
  let status := (← get).status
  let i ← addChannel (.sink [])
  forked (untilEnd eval (do connect 1 (some i); eval false script))
  let m ← get
  set { m with
    outputStatus? := some m.status, status := status, channels := m.channels.extract 0 i }
  return gathered m i

/-- Runs an action in a new shell, which inherits the exported variables. -/
def newShell (eval : Eval) (name : ByteString) (arguments : List ByteString) (act : Run Unit) :
    Run Unit :=
  forked do
    modify fun m =>
      { tree := m.tree, here := m.here, place := m.place, channels := m.channels
        streams := m.streams, mask := m.mask, name := name, arguments := arguments
        bindings := m.bindings.filter fun _ v => v.exported }
    for (name, value) in [("IFS", " \t\n"), ("OPTIND", "1"), ("PS1", "$ "), ("PS2", "> "),
        ("PS4", "+ ")] do
      assign name value
    if (← variableValue? "PATH").isNone then assign "PATH" systemPath
    untilEnd eval act

/-- Ends the script if a command has failed and nothing tests its status. -/
def stopOnError (tested : Bool) : Run Unit := do
  let m ← get
  if m.status ≠ 0 ∧ !tested ∧ m.switches.contains 'e' then throw .leave

end LayoutShell.Host
