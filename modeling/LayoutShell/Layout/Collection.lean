import LayoutShell.Layout.Database
import LayoutShell.Layout.Discovery
import LayoutShell.Layout.References

/-!
# Collecting references

A collection holds the references of the layouts analyzed so far. Analyzing a resource directory
adds the references of all its layouts, or nothing if one of them cannot be read.

* `collect` reads the layouts of a list of files.
* `Analyzer.absorb` adds the layouts of a resource directory to the collection that an analyzer
  keeps, and `Collection.analyze` gives the collection after it.
* `Collection.output` writes the collection as a database.
-/

namespace LayoutShell.Layout

open Files

/-- Why an analysis fails. -/
inductive AnalysisError
  | discovery (cause : DiscoveryError)
  | read (path : String) (cause : FileError)
  | parse (path : String) (cause : LayoutError)
  | write (path : String) (cause : FileError)
  deriving DecidableEq

def AnalysisError.message : AnalysisError → String
  | discovery cause => cause.message
  | read path cause => "Failed to read layout " ++ path ++ ": " ++ cause.message
  | parse path cause => "Failed to parse layout " ++ path ++ ": " ++ cause.message
  | write path cause => "Failed to write layout database " ++ path ++ ": " ++ cause.message

/-- The references of a layout file. -/
def fileReferences (t : FileTree) (path : String) : Except AnalysisError References := do
  let document ← (t.readText path).mapError (.read path)
  (References.parse document).mapError (.parse path)

/-- The references of all layout files of a list, or the error of the first bad one. -/
def collect (t : FileTree) (paths : List String) : Except AnalysisError References := do
  return (← paths.mapM (fileReferences t)).foldl References.union References.empty

/-- The references of the layouts analyzed so far. -/
abbrev Collection := References

/-- The work of an analyzer, which may fail. The collection outlives a failure. -/
abbrev Analyzer := ExceptT AnalysisError (StateM Collection)

/-- Adds the references of all layouts of a resource directory and gives their number. -/
def Analyzer.absorb (t : FileTree) (resources : String) : Analyzer Nat := do
  let paths ← liftExcept ((findLayouts t resources).mapError AnalysisError.discovery)
  let found ← liftExcept (collect t paths)
  modify fun c => References.union c found
  return paths.length

namespace Collection

/-- The collection after all layouts of a resource directory were added, and their number. -/
def analyze (c : Collection) (t : FileTree) (resources : String) :
    Except AnalysisError (Collection × Nat) :=
  match (Analyzer.absorb t resources).run.run c with
  | (.ok layouts, c) => .ok (c, layouts)
  | (.error e, _) => .error e

def database (c : Collection) : Database := Database.ofSets c.classes c.handlers

/-- Writes the collection as a database. -/
def output (c : Collection) (t : FileTree) (path : String) : Except AnalysisError FileTree :=
  (c.database.save t path).mapError (.write path)

end Collection

end LayoutShell.Layout
