import LayoutShell.NameSet
import LayoutShell.Markup.Entity
import LayoutShell.Markup.Event

/-!
# References of a layout document

A layout document is a markup document with one root element. It refers to the classes that its
elements instantiate and to the methods that handle clicks.

* `References.parse` reads a document and collects its references, or says why it is no layout.
* `Progress.step` is the work at one event of the document.
-/

namespace LayoutShell.Layout

open Markup Text

/-- The names that a layout refers to. -/
structure References where
  classes : NameSet
  handlers : NameSet
  deriving DecidableEq

/-- Why a document is no layout. -/
inductive LayoutError
  | noRoot
  | unclosed
  /-- An element after the root element. -/
  | secondRoot
  | textOutsideRoot
  /-- A name with a prefix that is not bound where it occurs. -/
  | unboundLabel (label : List Char)
  /-- The document cannot be read. -/
  | unreadable (e : ReadError)
  | badAttribute (e : AttributeError)
  | badEntity (e : EntityError)
  deriving DecidableEq

def LayoutError.message : LayoutError → String
  | noRoot => "no root element found"
  | unclosed => "unclosed element at end of document"
  | secondRoot => "content after the root element"
  | textOutsideRoot => "text outside the root element"
  | unboundLabel label => "unbound namespace prefix `" ++ String.ofList label ++ "`"
  | unreadable e => e.message
  | badAttribute e => e.message
  | badEntity e => e.message

/-- The namespace of the attributes that a layout is read for. -/
def androidUri : List Char := "http://schemas.android.com/apk/res/android".toList

/-- The elements that structure a layout and name no class. -/
def structuralTags : List (List Char) :=
  ["include".toList, "merge".toList, "requestFocus".toList, "view".toList, "fragment".toList]

namespace References

def empty : References := ⟨∅, ∅⟩

def addClass (r : References) (name : List Char) : References :=
  { r with classes := r.classes.insert (String.ofList name) }

def addHandler (r : References) (name : List Char) : References :=
  { r with handlers := r.handlers.insert (String.ofList name) }

/-- The references of both. -/
def union (r s : References) : References :=
  ⟨r.classes.union s.classes, r.handlers.union s.handlers⟩

end References

/-- The name under which an element is recorded: a namespace stands in braces before its local
part. -/
def elementTag (e : Element) : Except LayoutError (List Char) :=
  match e.scope.resolveElement e.name with
  | (.unbound, localPart) => .ok localPart
  | (.bound uri, localPart) => .ok ('\x7b' :: uri ++ '\x7d' :: localPart)
  | (.unknown label, _) => .error (.unboundLabel label)

/-- The attributes that belong to markup itself. -/
def isReserved (key : List Char) : Bool :=
  key = xmlnsLabel || "xmlns:".toList.isPrefixOf key || "xml:".toList.isPrefixOf key

/-- Adds what the value of an attribute of the android namespace refers to. -/
def addReference (tag localPart value : List Char) (r : References) : References :=
  if value.isEmpty then r
  else if tag = "view".toList ∧ localPart = "class".toList ∨
      tag = "fragment".toList ∧ localPart = "name".toList then r.addClass value
  else if localPart = "onClick".toList then r.addHandler value
  else r

/-- Adds the reference that an attribute of an element makes. -/
def addAttribute (scope : Scope) (tag : List Char) (r : References) (a : Attribute) :
    Except LayoutError References :=
  if isReserved a.key then .ok r
  else
    match scope.resolveAttribute a.key with
    | (.unknown label, _) => .error (.unboundLabel label)
    | (.unbound, _) => .ok r
    | (.bound uri, localPart) =>
      if uri = androidUri then do
        let value ← (Entity.expand a.value).mapError .badEntity
        return addReference tag localPart value r
      else .ok r

/-- Adds the references of attributes in order. -/
def addAttributes (scope : Scope) (tag : List Char) (r : References) :
    List (Except AttributeError Attribute) → Except LayoutError References
  | [] => .ok r
  | .error e :: _ => .error (.badAttribute e)
  | .ok a :: rest => do addAttributes scope tag (← addAttribute scope tag r a) rest

/-- Adds the references of an element. -/
def addElement (r : References) (e : Element) : Except LayoutError References := do
  let tag ← elementTag e
  let r := if tag ∈ structuralTags then r else r.addClass tag
  addAttributes e.scope tag r e.attributes

/-- How far a document has been read. -/
structure Progress where
  /-- The number of open elements. -/
  depth : Nat
  seenRoot : Bool
  found : References
  deriving DecidableEq

namespace Progress

def initial : Progress := ⟨0, false, References.empty⟩

/-- Enters an element, which may stand outside of all others only once. -/
def visit (p : Progress) (e : Element) : Except LayoutError Progress :=
  if p.depth = 0 ∧ p.seenRoot then .error .secondRoot
  else do return ⟨p.depth, true, ← addElement p.found e⟩

/-- The progress after an event. -/
def step (p : Progress) : Event → Except LayoutError Progress
  | .start e => do
    let p ← p.visit e
    return { p with depth := p.depth + 1 }
  | .empty e => p.visit e
  | .finish => .ok { p with depth := p.depth - 1 }
  | .text content => do
    let content ← (Entity.expand content).mapError .badEntity
    if p.depth = 0 ∧ !isBlank content then .error .textOutsideRoot else .ok p
  | .aside => .ok p

/-- The progress after all events. -/
def run (p : Progress) : List (Except ReadError Event) → Except LayoutError Progress
  | [] => .ok p
  | .error e :: _ => .error (.unreadable e)
  | .ok event :: rest => do run (← p.step event) rest

/-- The references found when the document ends. -/
def finish (p : Progress) : Except LayoutError References :=
  if !p.seenRoot then .error .noRoot
  else if 0 < p.depth then .error .unclosed
  else .ok p.found

end Progress

/-- The references of a layout document. -/
def References.parse (document : List Char) : Except LayoutError References := do
  (← Progress.initial.run (Event.scan document)).finish

end LayoutShell.Layout
