import LayoutShell.Session.History
import LayoutShell.Session.LayoutTool
import LayoutShell.Session.Shell
import LayoutShell.Settings.Basic

/-!
# A whole session

A dialogue greets the user, reads lines until one of them ends it or the input ends, and keeps the
history of lines.

* `Dialogue.run` is the session on given lines of input.
-/

namespace LayoutShell.Session

open Files Text

/-- How a session ends. -/
inductive Ending
  /-- By the user's wish. -/
  | left
  | endOfInput
  /-- A command failed. -/
  | failed (message : String)
  /-- A line was no text. -/
  | unreadable
  /-- A backspace would have split a character; the session breaks off. -/
  | aborted
  deriving DecidableEq

/-- The status of the program: 1 after a failure, 101 if the session breaks off. -/
def Ending.status : Ending → Nat
  | .left | .endOfInput => 0
  | .failed _ | .unreadable => 1
  | .aborted => 101

/-- A session with what it printed so far. -/
structure Dialogue where
  state : State
  history : History
  printed : List Printed

namespace Dialogue

def say (d : Dialogue) (text : String) : Dialogue :=
  { d with printed := d.printed ++ [.session text] }

/-- Executes a line and remembers it, unless it is blank. -/
def execute (shell : Shell) (d : Dialogue) (line : List Char) : Dialogue × Except String Flow :=
  let history := if (trim line).isEmpty then d.history else d.history.add line
  let outcome := shell.execute d.state (String.ofList line)
  (⟨outcome.state, history, d.printed ++ outcome.printed⟩, outcome.flow)

/-- Takes a line of input, or the end of it. -/
def step (shell : Shell) (d : Dialogue) : Option (List UInt8) → Dialogue × Option Ending
  | none => (d.say "Bye\n", some .endOfInput)
  | some line =>
    match typedText line with
    | .undecodable => (d, some .unreadable)
    | .split => (d, some .aborted)
    | .text text =>
      match d.execute shell text with
      | (d, .ok .next) => (d, none)
      | (d, .ok .leave) => (d, some .left)
      | (d, .error message) => (d, some (.failed message))

/-- Takes lines until the session ends; `prompt` is printed before each of them and before the end
of input. -/
def converse (shell : Shell) (prompt : String) (d : Dialogue) :
    List (List UInt8) → Dialogue × Ending
  | [] => (((d.say prompt).step shell none).1, .endOfInput)
  | line :: rest =>
    match (d.say prompt).step shell (some line) with
    | (d, none) => converse shell prompt d rest
    | (d, some ending) => (d, ending)

/-- The environment that settings give to a session. -/
def environment (settings : Settings) : Environment :=
  Dict.ofList (settings.env.entries.map fun (name, value) => (name, .string value))

/-- The start of a session, after its greeting. -/
def start (settings : Settings) (t : FileTree) : Dialogue :=
  let history := (settings.shell.historyFile?.map (History.load t)).getD .empty
  ⟨⟨environment settings, t⟩, history, [.session (settings.shell.intro ++ "\n")]⟩

/-- The files after a session, with its history unless the session broke off. -/
def finalTree (d : Dialogue) (settings : Settings) (ending : Ending) : FileTree :=
  match settings.shell.historyFile? with
  | some path => if ending = .aborted then d.state.tree else d.history.save d.state.tree path
  | none => d.state.tree

/-- A session on the given input. -/
def run (settings : Settings) (shell : Shell) (prompt : String) (input : List UInt8)
    (t : FileTree) : Dialogue × Ending :=
  let (d, ending) := (start settings t).converse shell prompt (splitLines input)
  ({ d with state := { d.state with tree := d.finalTree settings ending } }, ending)

end Dialogue

/-- The bytes of all that was printed, in order. -/
def Printed.bytes : List Printed → List UInt8
  | [] => []
  | .session text :: rest => encode text.toList ++ Printed.bytes rest
  | .host output :: rest => output ++ Printed.bytes rest

end LayoutShell.Session
