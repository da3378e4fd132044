import LayoutShell.Files.Tree
import LayoutShell.Session.Environment

/-!
# Tools

A tool runs on the environment and the file tree of a session. It prints text, may change files, and
either fails or hands back parameters for later commands.

* `Registry.register` adds a tool, replacing one of the same name.
-/

namespace LayoutShell.Session

open Files

/-- What a tool does. -/
structure ToolRun where
  output : String
  tree : FileTree
  /-- A failure with its message, or the parameters handed back. -/
  outcome : Except String (Option Environment)

/-- A command that a session can be extended with. -/
structure Tool where
  name : String
  description : String
  run : Environment → FileTree → ToolRun

/-- The tools of a session by name. -/
abbrev Registry := Dict String Tool

/-- Adds a tool, replacing one of the same name. -/
def Registry.register (r : Registry) (tool : Tool) : Registry := r.insert tool.name tool

end LayoutShell.Session
