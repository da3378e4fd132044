/-!
# Summary of an analysis

What the terminal shows after a database has been written.
-/

namespace LayoutShell.Layout

/-- Where a database was saved and what it holds. -/
structure Summary where
  path : String
  layouts : Nat
  classes : Nat
  handlers : Nat
  deriving DecidableEq

/-- Bold green text, if colors are shown. -/
def highlighted (color : Bool) (s : String) : String :=
  if color then "\x1b[1;32m" ++ s ++ "\x1b[0m" else s

/-- The two lines of a summary. -/
def Summary.render (color : Bool) (s : Summary) : String :=
  highlighted color "Done," ++ " saved to " ++ s.path ++ "\n  " ++ toString s.layouts ++
    " layout files, " ++ toString s.classes ++ " classes, " ++ toString s.handlers ++
    " onClick handlers\n"

end LayoutShell.Layout
