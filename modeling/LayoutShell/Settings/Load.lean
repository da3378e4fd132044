import LayoutShell.Files.Access
import LayoutShell.Settings.Toml
import LayoutShell.Settings.Yaml

/-!
# Loading settings

The extension of a file tells its format. A file with another extension is tried as YAML first and
then as TOML.

* `Settings.load` reads a file.
* `Settings.loadFrom` looks in a directory for a file with one of the names in `defaultNames`.
-/

namespace LayoutShell

open Files

/-- Why settings cannot be loaded. -/
inductive SettingsError
  | unreadable (path : String) (cause : FileError)
  | malformedYaml
  | malformedToml
  /-- Neither YAML nor TOML. -/
  | malformed
  deriving DecidableEq

def SettingsError.message : SettingsError → String
  | unreadable path _ => "Failed to read config file: " ++ path
  | malformedYaml => "Failed to parse YAML config"
  | malformedToml => "Failed to parse TOML config"
  | malformed => "Failed to parse config file"

namespace Settings

/-- The settings in a text whose file has this extension. -/
def ofText (extension? : Option String) (text : String) : Except SettingsError Settings :=
  if extension? = some "yml" ∨ extension? = some "yaml" then
    (ofYaml text).elim (.error .malformedYaml) .ok
  else if extension? = some "toml" then (ofToml text).elim (.error .malformedToml) .ok
  else (ofYaml text <|> ofToml text).elim (.error .malformed) .ok

/-- Loads the settings of a file. -/
def load (t : FileTree) (path : String) : Except SettingsError Settings :=
  match t.readText path with
  | .error cause => .error (.unreadable path cause)
  | .ok text => ofText (Path.extension? (Path.fileName path)) (String.ofList text)

/-- The names of settings files, the most preferred first. -/
def defaultNames : List String :=
  [".droidtools.yml", ".droidtools.yaml", ".droidtools.toml",
    "droidtools.yml", "droidtools.yaml", "droidtools.toml"]

/-- The settings files that a directory may have. -/
def candidates (directory : String) : List String := defaultNames.map (Path.join directory)

/-- Loads the settings of a directory; without a file they are the defaults. -/
def loadFrom (t : FileTree) (directory : String) : Except SettingsError Settings :=
  match (candidates directory).find? t.existsAt with
  | some path => load t path
  | none => .ok {}

end Settings

end LayoutShell
