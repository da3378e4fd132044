import LayoutShell.Session.Tool

/-!
# The command shell

A shell executes command lines. It knows four commands of its own and runs the registered tools;
other commands are passed to the host if the line asks for it.

* `Command.ofLine` recognizes the command of a line.
* `Shell.execute` executes a line: it changes the environment and the file tree, prints, and says
  whether the session goes on.
-/

namespace LayoutShell.Session

open Files Json Text

/-- What runs commands outside of the session: from a command text and the file tree, the tree
afterwards and what the command prints. -/
abbrev Host := String → FileTree → FileTree × List UInt8

/-- What is printed: a text by the session itself, or bytes by a command of the host. -/
inductive Printed
  | session (text : String)
  | host (output : List UInt8)
  deriving DecidableEq

/-- Whether a session goes on. -/
inductive Flow
  | next
  | leave
  deriving DecidableEq

/-! ## Commands -/

/-- A line taken apart. -/
inductive Command
  | blank
  /-- Print the environment. -/
  | display
  /-- Set a parameter to a string. -/
  | assign (name value : String)
  /-- A parameter without a value. -/
  | assignUsage
  /-- Run a command of the host. -/
  | host (command : String)
  /-- List all commands, or describe the one called `topic`. -/
  | help (topic : String)
  | quit
  /-- Any other command word, with its argument text and the whole line. -/
  | other (word args : List Char) (line : String)
  deriving DecidableEq

namespace Command

/-- The arguments of the command that sets parameters. -/
def ofAssignment (args : List Char) : Command :=
  let args := trim args
  if args.isEmpty then .display
  else
    match splitFirst isSpace args with
    | some (name, value) => .assign (String.ofList name) (String.ofList (trim value))
    | none => .assignUsage

/-- A command word and its arguments; `line` is the whole line. -/
def ofWord (line word args : List Char) : Command :=
  if word = "set".toList then ofAssignment args
  else if word = "shell".toList then .host (String.ofList (trim args))
  else if word = "help".toList then .help (String.ofList (trim args))
  else if word = "quit".toList then .quit
  else .other word args (String.ofList line)

/-- The command of a line. A leading `!` stands for the host and a leading `?` for help. -/
def ofLine (line : String) : Command :=
  let line := trim line.toList
  match line with
  | [] => .blank
  | '!' :: rest => ofWord line "shell".toList rest
  | '?' :: rest => ofWord line "help".toList (trimLeft rest)
  | _ =>
    match splitFirst isSpace line with
    | some (word, args) => ofWord line word args
    | none => ofWord line line []

end Command

/-! ## Help -/

/-- The commands of the shell itself with their descriptions. -/
def builtins : List (String × String) :=
  [("help", "List available commands with \"help\" or detailed help with \"help <command>\" " ++
      "(also \"?\")"),
    ("quit", "Say goodbye"),
    ("set", "set key value; if none, print all current parameters"),
    ("shell", "Invoke a shell command (also \"!<command>\")")]

/-- All commands with their descriptions, those of the shell first. -/
def catalogue (tools : Registry) : List (String × String) :=
  builtins ++ tools.entries.map fun (name, tool) => (name, tool.description)

/-- The description of a command. -/
def describe? (tools : Registry) (topic : String) : Option String :=
  ((catalogue tools).find? (·.1 = topic)).map (·.2)

/-- The catalogue sorted by name; commands of the same name keep their order. -/
def sortedCatalogue (tools : Registry) : List (String × String) :=
  (catalogue tools).mergeSort fun a b => !decide (b.1 < a.1)

/-- A line of the catalogue, the name filled up to `width` characters. -/
def catalogueLine (width : Nat) (command : String × String) : String :=
  "  " ++ command.1 ++ String.ofList (List.replicate (width - command.1.length) ' ') ++ "  " ++
    command.2 ++ "\n"

/-- The list of all commands. Names are aligned to the size of the largest in bytes. -/
def helpListing (tools : Registry) : String :=
  let commands := sortedCatalogue tools
  let width := (commands.map (·.1.utf8ByteSize)).foldl max 0
  "Commands (type help <command>):\n" ++ String.join (commands.map (catalogueLine width))

/-- What the help command prints. -/
def helpText (tools : Registry) (topic : String) : String :=
  if topic.isEmpty then helpListing tools
  else
    match describe? tools topic with
    | some description => description ++ "\n"
    | none => "*** No help on " ++ topic ++ "\n"

/-! ## Execution -/

/-- What the lines of a session work on. -/
structure State where
  env : Environment
  tree : FileTree

/-- The result of a line. -/
structure Outcome where
  state : State
  printed : List Printed
  /-- A failure with its message, or whether the session goes on. -/
  flow : Except String Flow

/-- What a shell is equipped with. -/
structure Shell where
  tools : Registry
  host : Host

namespace Shell

/-- A line that prints and leaves everything as it is. -/
def say (s : State) (text : String) : Outcome := ⟨s, [.session text], .ok .next⟩

/-- What is printed about words that are no parameters. -/
def ignoredText (words : List String) : String :=
  String.join (words.map fun w => "Ignoring argument `" ++ w ++ "` (expected key=value)\n")

/-- Runs a tool on the environment extended by the parameters typed after it. -/
def runTool (tool : Tool) (args : List Char) (s : State) : Outcome :=
  let extras := Extras.parse args
  let env := s.env.merge extras.update
  let run := tool.run env s.tree
  let printed := [.session (ignoredText extras.ignored), .session run.output]
  match run.outcome with
  | .error message => ⟨⟨env, run.tree⟩, printed, .error message⟩
  | .ok none => ⟨⟨env, run.tree⟩, printed, .ok .next⟩
  | .ok (some update) => ⟨⟨env.merge update, run.tree⟩, printed, .ok .next⟩

/-- Runs a command of the host. A blank one does nothing, nor does one that holds a NUL
character. -/
def runHost (host : Host) (command : String) (s : State) : Outcome :=
  if command.isEmpty ∨ '\x00' ∈ command.toList then ⟨s, [], .ok .next⟩
  else
    let (tree, output) := host command s.tree
    ⟨⟨s.env, tree⟩, [.host output], .ok .next⟩

/-- Executes a command. -/
def run (shell : Shell) (s : State) : Command → Outcome
  | .blank => ⟨s, [], .ok .next⟩
  | .display => say s (s.env.render ++ "\n")
  | .assign name value =>
    say ⟨s.env.insert name (.string value), s.tree⟩ (name ++ " => " ++ value ++ "\n")
  | .assignUsage => say s "Usage: set <key> <value>\n"
  | .host command => runHost shell.host command s
  | .help topic => say s (helpText shell.tools topic)
  | .quit => ⟨s, [], .ok .leave⟩
  | .other word args line =>
    match shell.tools.get? (String.ofList word) with
    | some tool => runTool tool args s
    | none => say s ("*** Unknown syntax: " ++ line ++ "\n")

/-- Executes a line. -/
def execute (shell : Shell) (s : State) (line : String) : Outcome :=
  shell.run s (Command.ofLine line)

end Shell

end LayoutShell.Session
