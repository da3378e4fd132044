import LayoutShell.Dict

/-!
# Settings of a session

* `Settings` holds how a session looks, its starting environment and where layout databases go.
-/

namespace LayoutShell

/-- How a session looks. -/
structure ShellSettings where
  prompt : String := "> "
  /-- The line that greets the user. -/
  intro : String := "droidtools integrated tools"
  /-- The file that keeps the lines of earlier sessions. -/
  historyFile? : Option String := none
  deriving DecidableEq

/-- Where layout databases go. -/
structure LayoutSettings where
  database : String := "layout_database.json"
  deriving DecidableEq

/-- Settings of a session; what is not set has a default. -/
structure Settings where
  shell : ShellSettings := {}
  /-- The starting environment. -/
  env : Dict String String := ∅
  layout : LayoutSettings := {}

end LayoutShell
