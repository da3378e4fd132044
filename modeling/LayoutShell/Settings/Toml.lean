import LayoutShell.Settings.Basic
import LayoutShell.Toml.Document

/-!
# Settings written in TOML

A section with fixed fields is a table, or an array of their values in order. A moment is read as a
table with the one name `momentName`. Names that are not known are passed over.

* `Settings.ofToml` reads settings.
-/

namespace LayoutShell.Toml

/-- The name under which a moment appears where a table is expected. -/
def momentName : String := "$__toml_private_datetime"

/-- The entries of a table, or of what is read as one. -/
def Value.entries? : Value → Option Table
  | .table _ entries => some entries
  | .moment m => some [(momentName, .text m.render)]
  | _ => none

def Value.text? : Value → Option String
  | .text s => some s
  | _ => none

/-- The values of fields, by their names in a table or by their order in an array. -/
def fields (names : List String) : Value → Option Table
  | .array items => some (names.zip items)
  | .tables items => some (names.zip (items.map (.table .header)))
  | v => v.entries?

/-- The value of a field, or its default. -/
def field {α : Type} (found : Table) (name : String) (read : Value → Option α) (fallback : α) :
    Option α :=
  match found.lookup name with
  | some v => read v
  | none => some fallback

def shellSettings (v : Value) : Option ShellSettings := do
  let found ← fields ["prompt", "intro", "history_file"] v
  let fallback : ShellSettings := {}
  return {
    prompt := ← field found "prompt" Value.text? fallback.prompt
    intro := ← field found "intro" Value.text? fallback.intro
    historyFile? := ← field found "history_file" (fun v => v.text?.map some) none }

def layoutSettings (v : Value) : Option LayoutSettings := do
  let found ← fields ["default_database"] v
  return { database := ← field found "default_database" Value.text? ({} : LayoutSettings).database }

def env (v : Value) : Option (Dict String String) := do
  let pairs ← (← v.entries?).mapM fun (name, v) => do return (name, ← v.text?)
  return Dict.ofList pairs

def settings (root : Table) : Option Settings := do
  return {
    shell := ← field root "shell" shellSettings {}
    env := ← field root "env" env ∅
    layout := ← field root "layout" layoutSettings {} }

end LayoutShell.Toml

namespace LayoutShell

/-- Reads settings from a TOML text. -/
def Settings.ofToml (text : String) : Option Settings := do
  Toml.settings (← Toml.Document.read text)

end LayoutShell
