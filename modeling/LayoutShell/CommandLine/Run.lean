import LayoutShell.CommandLine.Options
import LayoutShell.Session.Dialogue
import LayoutShell.Settings.Load

/-!
# The command line

* `CommandLine.run` does what the arguments ask for.
-/

namespace LayoutShell.CommandLine

open Files Session

/-- What the program leaves behind. -/
structure Report where
  status : Nat
  output : List UInt8
  tree : FileTree

def versionText : String := "droidtools 0.1.0\n"

def helpText : String :=
  "An interactive shell of Android app analysis tools, " ++
  "starting with a layout resource scanner\n\n" ++
  "Usage: droidtools [OPTIONS]\n\n" ++
  "Options:\n" ++
  "  -c, --config <CONFIG>  Path to configuration file\n" ++
  "  -e, --env <KEY=VALUE>  Preload a parameter into the environment " ++
  "(can be specified multiple times)\n" ++
  "  -v, --verbose          Verbose output\n" ++
  "  -q, --quiet            Quiet mode - only log errors\n" ++
  "  -h, --help             Print help\n" ++
  "  -V, --version          Print version\n"

/-- The settings that the options name, or those of the working directory, with the parameters of
the options added. -/
def settings (o : Options) (t : FileTree) : Except SettingsError Settings := do
  let s ← match o.config? with
    | some path => Settings.load t path
    | none => Settings.loadFrom t "."
  return { s with env := s.env.merge (Dict.ofList o.env) }

/-- The terminals on which input is not edited, so that the prompt is printed before each line. -/
def isPlainTerminal (term : String) : Bool :=
  ["dumb", "cons25", "emacs"].contains (String.ofList (term.toList.map Char.toLower))

/-- The prompt as it is printed on a terminal. -/
def promptOn (term : String) (s : Settings) : String :=
  if isPlainTerminal term then s.shell.prompt else ""

/-- A shell with the default tools. -/
def defaultShell (host : Host) (s : Settings) : Shell :=
  ⟨defaultTools s.layout.database false, host⟩

/-- Runs a session. -/
def runSession (host : Host) (term : String) (o : Options) (input : List UInt8) (t : FileTree) :
    Report :=
  match settings o t with
  | .error _ => ⟨1, [], t⟩
  | .ok s =>
    let (d, ending) := Dialogue.run s (defaultShell host s) (promptOn term s) input t
    ⟨ending.status, Printed.bytes d.printed, d.state.tree⟩

/-- Does what the arguments ask for. The status is 2 for arguments that are refused, 1 for settings
or commands that fail. -/
def run (host : Host) (term : String) (arguments : List String) (input : List UInt8)
    (t : FileTree) : Report :=
  match Request.parse arguments with
  | .error _ => ⟨2, [], t⟩
  | .ok .help => ⟨0, Text.encode helpText.toList, t⟩
  | .ok .version => ⟨0, Text.encode versionText.toList, t⟩
  | .ok (.session o) => runSession host term o input t

end LayoutShell.CommandLine
