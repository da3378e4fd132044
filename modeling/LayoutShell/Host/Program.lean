import LayoutShell.Host.Machine

/-!
# Programs

A program is a command outside the shell. It reads and writes streams and files, and may launch
other programs.

* `Program` is the type of programs, and `Launch` the way in which they launch others.
-/

namespace LayoutShell.Host

/-- Why a command is not run. -/
inductive LaunchError
  | notFound
  | notPermitted
  /-- The search path leads to something that cannot be run. -/
  | unsuitable
  deriving DecidableEq

namespace LaunchError

def message : LaunchError → String
  | notFound => "No such file or directory"
  | notPermitted | unsuitable => "Permission denied"

def status : LaunchError → Nat
  | notFound => 127
  | notPermitted | unsuitable => 126

end LaunchError

/-- Runs a command given by its name and arguments. -/
abbrev Launch := List ByteString → Run (Except LaunchError Nat)

/-- A program: from its arguments to its status. -/
abbrev Program := Launch → List ByteString → Run Nat

end LayoutShell.Host
