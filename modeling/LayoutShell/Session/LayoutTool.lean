import LayoutShell.Layout.Collection
import LayoutShell.Layout.Summary
import LayoutShell.Session.Tool

/-!
# The layout tool

The tool collects the references of the layouts of a disassembled app and writes them as a layout
database, whose path it hands back.

* `Arguments.ofEnvironment` takes its parameters from the environment.
* `layoutTool` is the tool.
-/

namespace LayoutShell.Session

open Files Json Layout

/-- A parameter of a tool. -/
structure Parameter where
  name : String
  help : String
  deriving DecidableEq

/-- Why a parameter cannot be used. -/
inductive ArgumentError
  | missing (p : Parameter)
  | invalid (p : Parameter)
  deriving DecidableEq

def ArgumentError.parameter : ArgumentError → Parameter
  | missing p | invalid p => p

def ArgumentError.message (e : ArgumentError) : String :=
  "Must provide \"" ++ e.parameter.name ++ "\": " ++ e.parameter.help

namespace Parameter

/-- A path is a string that is not empty. -/
def asPath (p : Parameter) : Value → Except ArgumentError String
  | .string s => if s.isEmpty then .error (.invalid p) else .ok s
  | _ => .error (.invalid p)

/-- The path that the environment must hold; null counts as nothing. -/
def requiredPath (p : Parameter) (env : Environment) : Except ArgumentError String :=
  match env.get? p.name with
  | none | some .null => .error (.missing p)
  | some v => p.asPath v

/-- The path that the environment may hold. -/
def optionalPath (p : Parameter) (env : Environment) : Except ArgumentError (Option String) :=
  match env.get? p.name with
  | none => .ok none
  | some v => (p.asPath v).map some

end Parameter

/-- The folder of the disassembled app. -/
def disassembled : Parameter := ⟨"disassembled", "the path to the disassembled apk folder"⟩

/-- The file of the layout database. -/
def layoutDatabase : Parameter :=
  ⟨"layout_database", "the file path to store the parsed layout database"⟩

/-- The parameters of the layout tool. -/
structure Arguments where
  disassembled : String
  database : Option String
  deriving DecidableEq

def Arguments.ofEnvironment (env : Environment) : Except ArgumentError Arguments := do
  return ⟨← Session.disassembled.requiredPath env, ← layoutDatabase.optionalPath env⟩

/-- The folder of an app in which its resources lie. -/
def resourcesOf (app : String) : String := Path.join app "res"

/-- Collects the layouts of an app and writes their references to `database`. -/
def writeDatabase (app database : String) (t : FileTree) :
    Except AnalysisError (FileTree × Summary) := do
  let (c, layouts) ← Collection.analyze References.empty t (resourcesOf app)
  let t ← Collection.output c t database
  return (t, ⟨database, layouts, c.classes.size, c.handlers.size⟩)

/-- The work of the layout tool. Without usable parameters it only says what it needs. -/
def runLayoutTool (fallback : String) (color : Bool) (env : Environment) (t : FileTree) : ToolRun :=
  match Arguments.ofEnvironment env with
  | .error e => ⟨e.message ++ "\n", t, .ok none⟩
  | .ok args =>
    let database := args.database.getD fallback
    match writeDatabase args.disassembled database t with
    | .error e => ⟨"", t, .error e.message⟩
    | .ok (t, summary) =>
      let update : Environment := Dict.empty.insert layoutDatabase.name (.string database)
      ⟨summary.render color, t, .ok (some update)⟩

/-- The layout tool, which writes to `fallback` unless told otherwise. -/
def layoutTool (fallback : String) (color : Bool) : Tool where
  name := "parse_layout"
  description := "Generate the layout database from a disassembled apk"
  run := runLayoutTool fallback color

/-- The tools that every session starts with. -/
def defaultTools (fallback : String) (color : Bool) : Registry :=
  Registry.register ∅ (layoutTool fallback color)

end LayoutShell.Session
