import LayoutShell.Markup.Lexeme
import LayoutShell.Markup.Scope

/-!
# Events of a markup document

Reading a document front to back gives a sequence of events. The reader keeps the open elements and
the bindings in force inside them, so an end tag must name the innermost open element and the
bindings of an element end with it.

* `Reader.step` turns a lexeme into an event.
* `Event.ofLexemes` and `Event.scan` give the events of a document, up to its end or the first
  error.
-/

namespace LayoutShell.Markup

open Text

/-- A start tag or an empty tag: its content and the bindings in force in it. -/
structure Element where
  content : List Char
  scope : Scope
  deriving DecidableEq

namespace Element

/-- The characters before the first space. -/
def nameOf (content : List Char) : List Char := content.takeWhile (!isMarkupSpace ·)

def name (e : Element) : List Char := nameOf e.content

/-- The text after the name. -/
def attributeText (content : List Char) : List Char := content.dropWhile (!isMarkupSpace ·)

/-- The attributes of an element in order, up to the first error. -/
def attributes (e : Element) : List (Except AttributeError Attribute) :=
  Attribute.distinct (size e.name) (attributeText e.content)

end Element

/-- What a reader meets in a document. -/
inductive Event
  /-- An element is opened. -/
  | start (e : Element)
  /-- An element without content. -/
  | empty (e : Element)
  /-- The innermost open element is closed. -/
  | finish
  /-- Character data, entities not yet replaced. -/
  | text (content : List Char)
  /-- A comment, character data section, document type declaration or instruction. -/
  | aside
  deriving DecidableEq

/-- What keeps a document from being read. -/
inductive ReadError
  | fault (f : Fault)
  | binding (e : BindingError)
  /-- An end tag that does not name the innermost open element. -/
  | mismatch (expected found : List Char)
  deriving DecidableEq

def ReadError.message : ReadError → String
  | fault f => f.message
  | binding e => e.message
  | mismatch expected found =>
    "Expecting </" ++ String.ofList expected ++ "> found </" ++ String.ofList found ++ ">"

/-- An open element: its name and the bindings in force in its content. -/
structure Frame where
  name : List Char
  scope : Scope
  deriving DecidableEq

/-- The open elements, the innermost first. -/
abbrev Reader := List Frame

namespace Reader

/-- The bindings in force. -/
def scope : Reader → Scope
  | [] => Scope.initial
  | frame :: _ => frame.scope

/-- The element of a tag in the given bindings. -/
def element (outer : Scope) (content : List Char) : Except BindingError Element := do
  let attributes := Attribute.scan (size (Element.nameOf content)) (Element.attributeText content)
  return ⟨content, ← outer.declare attributes⟩

/-- The name in an end tag: its content without trailing space, unless it is all space. -/
def endName (content : List Char) : List Char :=
  if content.all isMarkupSpace then content else dropRightWhile isMarkupSpace content

/-- The event of a lexeme and the elements open after it. -/
def step (reader : Reader) : Lexeme → Except ReadError (Event × Reader)
  | .text content => .ok (.text content, reader)
  | .startTag content => do
    let e ← (element reader.scope content).mapError .binding
    return (.start e, ⟨e.name, e.scope⟩ :: reader)
  | .emptyTag content => do
    let e ← (element reader.scope content).mapError .binding
    return (.empty e, reader)
  | .endTag content =>
    match reader with
    | [] => .error (.mismatch [] content)
    | frame :: outer =>
      if endName content = frame.name then .ok (.finish, outer)
      else .error (.mismatch frame.name (endName content))
  | .comment _ | .cdata _ | .doctype _ | .instruction _ => .ok (.aside, reader)

end Reader

namespace Event

/-- The events of lexemes, read with the given elements open. -/
def ofLexemes (reader : Reader) : List (Except Fault Lexeme) → List (Except ReadError Event)
  | [] => []
  | .error f :: _ => [.error (.fault f)]
  | .ok l :: rest =>
    match reader.step l with
    | .error e => [.error e]
    | .ok (event, reader) => .ok event :: ofLexemes reader rest

/-- A document without the byte order mark it may begin with. -/
def withoutMark : List Char → List Char
  | '\uFEFF' :: s => s
  | s => s

/-- The events of a document, up to its end or the first error. -/
def scan (document : List Char) : List (Except ReadError Event) :=
  ofLexemes [] (Lexeme.scan (withoutMark document))

end Event

end LayoutShell.Markup
