import LayoutShell.Settings.Basic
import LayoutShell.Yaml.Node

/-!
# Settings written in YAML

A section that is empty has its defaults. Texts are taken as they are written, whatever they look
like. A section or a field may be given once; names that are not known are passed over.

* `Settings.ofYaml` reads settings.
-/

namespace LayoutShell.Yaml

namespace Document

/-- The text of a scalar. -/
def text (d : Document) (n : Node) : Option String :=
  match d.target n with
  | .scalar _ _ _ text => some (String.ofList text)
  | _ => none

/-- The entries of a mapping; an empty plain scalar is an empty mapping. -/
def entries (d : Document) (n : Node) : Option (List (Node × Node)) :=
  match d.target n with
  | .mapping _ entries => some entries
  | .scalar _ _ true [] => some []
  | _ => none

/-- The values of the fields that are known by `names`, none of them twice. -/
def fields (d : Document) (names : List String) (n : Node) : Option (List (String × Node)) := do
  (← d.entries n).foldlM (fun found (key, value) => do
    let name ← d.text key
    if !names.contains name then return found
    else if (found.lookup name).isSome then none
    else return found ++ [(name, value)]) []

/-- The texts that mean nothing where a text is optional. -/
def isNull (text : List Char) : Bool :=
  ["null", "Null", "NULL", "~"].contains (String.ofList text)

def nullTag : List Char := "tag:yaml.org,2002:null".toList

/-- A text that may be missing. A plain scalar is missing if it is empty or null, unless a tag says
that it is something else. -/
def optionalText (d : Document) (n : Node) : Option (Option String) :=
  match d.target n with
  | .scalar _ none true text =>
    some (if text.isEmpty ∨ isNull text then none else some (String.ofList text))
  | .scalar _ (some tag) true text =>
    if tag ≠ nullTag then some (some (String.ofList text))
    else if isNull text then some none
    else none
  | .scalar _ _ false text => some (some (String.ofList text))
  | _ => none

/-- The value of a field, or its default. -/
def field {α : Type} (found : List (String × Node)) (name : String) (read : Node → Option α)
    (fallback : α) : Option α :=
  match found.lookup name with
  | some n => read n
  | none => some fallback

def shellSettings (d : Document) (n : Node) : Option ShellSettings := do
  let found ← d.fields ["prompt", "intro", "history_file"] n
  let fallback : ShellSettings := {}
  return {
    prompt := ← field found "prompt" d.text fallback.prompt
    intro := ← field found "intro" d.text fallback.intro
    historyFile? := ← field found "history_file" d.optionalText none }

def layoutSettings (d : Document) (n : Node) : Option LayoutSettings := do
  let found ← d.fields ["default_database"] n
  return { database := ← field found "default_database" d.text ({} : LayoutSettings).database }

/-- The last value of a name counts. -/
def env (d : Document) (n : Node) : Option (Dict String String) := do
  let pairs ← (← d.entries n).mapM fun (key, value) => do return (← d.text key, ← d.text value)
  return Dict.ofList pairs

def settings (d : Document) : Option Settings :=
  match d.root? with
  | none => some {}
  | some root => do
    let found ← d.fields ["shell", "env", "layout"] root
    return {
      shell := ← field found "shell" d.shellSettings {}
      env := ← field found "env" d.env ∅
      layout := ← field found "layout" d.layoutSettings {} }

end Document

end LayoutShell.Yaml

namespace LayoutShell

/-- Reads settings from a YAML text. -/
def Settings.ofYaml (text : String) : Option Settings := do (← Yaml.Document.read text).settings

end LayoutShell
