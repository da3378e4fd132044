import LayoutShell.Dict
import LayoutShell.Json.Value
import LayoutShell.Text.Space

/-!
# The environment of a session

The environment holds the parameters shared by all commands of a session: a JSON value for each
name. Values are replaced whole and names are never removed.

* `Environment.render` is what the session prints of it.
* `Extras.parse` reads the parameters typed after a command.
-/

namespace LayoutShell.Session

open Json Text

/-- Parameters by name. -/
abbrev Environment := Dict String Value

namespace Environment

/-- The text of an environment, indented by two spaces. -/
def render (env : Environment) : String := (Value.object env.entries).pretty 2

end Environment

/-- The name and the value of `name=value`, with a name that is not empty. -/
def splitAssignment (token : List Char) : Option (List Char × List Char) :=
  match splitFirst (· = '=') token with
  | some ([], _) => none
  | r => r

/-- The parameters typed after a command, and the words that are none. -/
structure Extras where
  update : Environment
  ignored : List String

namespace Extras

/-- Takes in one word. -/
def add (e : Extras) (word : List Char) : Extras :=
  match splitAssignment word with
  | some (name, value) =>
    { e with update := e.update.insert (String.ofList name) (.string (String.ofList value)) }
  | none => { e with ignored := e.ignored ++ [String.ofList word] }

/-- The extras of an argument text: its words in order. -/
def parse (args : List Char) : Extras := (words args).foldl add ⟨∅, []⟩

end Extras

end LayoutShell.Session
