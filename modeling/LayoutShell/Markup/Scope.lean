import LayoutShell.Markup.Attribute

/-!
# Namespace scopes

A tag may bind prefixes to namespaces for itself and its content: `xmlns:p="uri"` binds `p` and
`xmlns="uri"` the names without prefix. A binding to the empty text withdraws an outer one.

* `Scope.declare` adds the bindings of a tag, or finds one that the standard reserves.
* `Scope.resolveElement` and `Scope.resolveAttribute` give the namespace of a name and its local
  part.
-/

namespace LayoutShell.Markup

open Text

/-- A prefix, empty for names without one, and the namespace it stands for. -/
structure Binding where
  label : List Char
  uri : List Char
  deriving DecidableEq

/-- The bindings in force, the innermost first. -/
abbrev Scope := List Binding

def xmlLabel : List Char := "xml".toList

def xmlnsLabel : List Char := "xmlns".toList

/-- The namespace of the prefix `xml`. -/
def xmlUri : List Char := "http://www.w3.org/XML/1998/namespace".toList

/-- The namespace of the prefix `xmlns`. -/
def xmlnsUri : List Char := "http://www.w3.org/2000/xmlns/".toList

/-- A binding of `label` to `uri` that the standard does not allow. -/
structure BindingError where
  label : List Char
  uri : List Char
  deriving DecidableEq

namespace BindingError

/-- A byte as a character, or by its number unless it is printable ASCII. -/
def showByte (b : UInt8) : String :=
  if b = 0x22 then "\\\""
  else if 32 ≤ b ∧ b ≤ 126 then (Char.ofNat b.toNat).toString
  else "0x" ++ String.ofList ((Nat.toDigits 16 b.toNat).map Char.toUpper)

def showBytes (s : List Char) : String := "\"" ++ String.join ((encode s).map showByte) ++ "\""

def message (e : BindingError) : String :=
  "The namespace prefix '" ++ showBytes e.label ++ "' cannot be bound to '" ++ showBytes e.uri ++
    "'"

end BindingError

/-- What a name belongs to. -/
inductive Resolution
  /-- No namespace. -/
  | unbound
  /-- The namespace `uri`. -/
  | bound (uri : List Char)
  /-- Its prefix `label` is not bound. -/
  | unknown (label : List Char)
  deriving DecidableEq

/-- The prefix of a name, if it has one, and its local part. -/
def splitName (name : List Char) : Option (List Char) × List Char :=
  match splitFirst (· = ':') name with
  | some (label, localPart) => (some label, localPart)
  | none => (none, name)

namespace Scope

/-- The bindings outside of all tags. -/
def initial : Scope := [⟨xmlLabel, xmlUri⟩, ⟨xmlnsLabel, xmlnsUri⟩]

/-- The namespace declaration that an attribute key makes: `some none` for names without prefix,
`some (some p)` for the prefix `p`. -/
def declared? (key : List Char) : Option (Option (List Char)) :=
  if key = xmlnsLabel then some none
  else if "xmlns:".toList.isPrefixOf key then some (some (key.drop 6))
  else none

/-- Adds the binding that an attribute declares, if it declares one. The prefix `xml` keeps its
namespace, `xmlns` cannot be bound, and no other prefix shares a namespace with them. -/
def declareOne (scope : Scope) (a : Attribute) : Except BindingError Scope :=
  match declared? a.key with
  | none => .ok scope
  | some none => .ok (⟨[], a.value⟩ :: scope)
  | some (some label) =>
    if label = xmlLabel then
      if a.value = xmlUri then .ok scope else .error ⟨label, a.value⟩
    else if label = xmlnsLabel ∨ a.value = xmlUri ∨ a.value = xmlnsUri then
      .error ⟨label, a.value⟩
    else .ok (⟨label, a.value⟩ :: scope)

/-- Adds the bindings that the attributes of a tag declare. -/
def declare (scope : Scope) (attributes : List Attribute) : Except BindingError Scope :=
  attributes.foldlM declareOne scope

/-- The namespace that a prefix is bound to, none if it is bound to the empty text. -/
def lookup? (scope : Scope) (label : List Char) : Option (List Char) :=
  match scope.find? (·.label = label) with
  | some b => if b.uri.isEmpty then none else some b.uri
  | none => none

/-- The namespace of a prefix that was written; an empty one is never bound. -/
def resolveLabel (scope : Scope) (label : List Char) : Resolution :=
  if label.isEmpty then .unknown label
  else
    match scope.lookup? label with
    | some uri => .bound uri
    | none => .unknown label

/-- The namespace and the local part of an element name. -/
def resolveElement (scope : Scope) (name : List Char) : Resolution × List Char :=
  match splitName name with
  | (some label, localPart) => (scope.resolveLabel label, localPart)
  | (none, localPart) =>
    match scope.lookup? [] with
    | some uri => (.bound uri, localPart)
    | none => (.unbound, localPart)

/-- The namespace and the local part of an attribute key: without prefix it has none. -/
def resolveAttribute (scope : Scope) (key : List Char) : Resolution × List Char :=
  match splitName key with
  | (some label, localPart) => (scope.resolveLabel label, localPart)
  | (none, localPart) => (.unbound, localPart)

end Scope

end LayoutShell.Markup
