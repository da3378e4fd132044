import LayoutShell.Proofs.Bytes.Attributes

/-!
# Events of a document of bytes

The reader of a document keeps the names of the open elements and the bindings in force as bytes,
and compares them as bytes. On the bytes of a text it comes to the bytes of the events of the text.

* `Bytes.Scope`, `Bytes.Reader` and `Bytes.Event.scan` are the bindings, the open elements and the
  events of a document of bytes.
* `Bytes.Scope.declare_encode` and `Bytes.Scope.resolveElement_encode` compare bindings and what
  names belong to.
* `Bytes.Event.scan_encode`: the events of the bytes of a text are the bytes of its events.
-/

namespace LayoutShell.Markup

open Text

namespace Bytes

/-! ## Bindings -/

/-- A prefix, empty for names without one, and the namespace it stands for. -/
structure Binding where
  label : Slice
  uri : Slice
  deriving DecidableEq

/-- The bindings in force, the innermost first. -/
abbrev Scope := List Binding

/-- What a name belongs to. -/
inductive Resolution
  | unbound
  | bound (uri : Slice)
  | unknown (label : Slice)
  deriving DecidableEq

/-- The prefix of a name, if it has one, and its local part. -/
def splitName (name : Slice) : Option Slice × Slice :=
  match name.dropWhile (· != ':'.toUInt8) with
  | _ :: localPart => (some (name.takeWhile (· != ':'.toUInt8)), localPart)
  | [] => (none, name)

/-- Bytes in a message. -/
def showSlice (s : Slice) : String := "\"" ++ String.join (s.map BindingError.showByte) ++ "\""

/-- The message about a binding that the standard does not allow. -/
def refusedBinding (label uri : Slice) : String :=
  "The namespace prefix '" ++ showSlice label ++ "' cannot be bound to '" ++ showSlice uri ++ "'"

namespace Scope

/-- The bindings outside of all tags. -/
def initial : Scope :=
  [⟨encode xmlLabel, encode xmlUri⟩, ⟨encode xmlnsLabel, encode xmlnsUri⟩]

/-- The namespace declaration that an attribute key makes. -/
def declared? (key : Slice) : Option (Option Slice) :=
  if key = encode xmlnsLabel then some none
  else if (encode "xmlns:".toList).isPrefixOf key then some (some (key.drop 6))
  else none

/-- Adds the binding that an attribute declares, if it declares one. -/
def declareOne (scope : Scope) (a : Attribute) : Except String Scope :=
  match declared? a.key with
  | none => .ok scope
  | some none => .ok (⟨[], a.value⟩ :: scope)
  | some (some label) =>
    if label = encode xmlLabel then
      if a.value = encode xmlUri then .ok scope else .error (refusedBinding label a.value)
    else if label = encode xmlnsLabel ∨ a.value = encode xmlUri ∨ a.value = encode xmlnsUri then
      .error (refusedBinding label a.value)
    else .ok (⟨label, a.value⟩ :: scope)

/-- Adds the bindings that the attributes of a tag declare. -/
def declare (scope : Scope) (attributes : List Attribute) : Except String Scope :=
  attributes.foldlM declareOne scope

/-- The namespace that a prefix is bound to, none if it is bound to nothing. -/
def lookup? (scope : Scope) (label : Slice) : Option Slice :=
  match scope.find? (·.label = label) with
  | some b => if b.uri.isEmpty then none else some b.uri
  | none => none

/-- The namespace of a prefix that was written. -/
def resolveLabel (scope : Scope) (label : Slice) : Resolution :=
  if label.isEmpty then .unknown label
  else
    match scope.lookup? label with
    | some uri => .bound uri
    | none => .unknown label

/-- The namespace and the local part of an element name. -/
def resolveElement (scope : Scope) (name : Slice) : Resolution × Slice :=
  match splitName name with
  | (some label, localPart) => (scope.resolveLabel label, localPart)
  | (none, localPart) =>
    match scope.lookup? [] with
    | some uri => (.bound uri, localPart)
    | none => (.unbound, localPart)

/-- The namespace and the local part of an attribute key. -/
def resolveAttribute (scope : Scope) (key : Slice) : Resolution × Slice :=
  match splitName key with
  | (some label, localPart) => (scope.resolveLabel label, localPart)
  | (none, localPart) => (.unbound, localPart)

end Scope

/-! ## Events -/

/-- A start tag or an empty tag: its content and the bindings in force in it. -/
structure Element where
  content : Slice
  scope : Scope
  deriving DecidableEq

namespace Element

/-- The bytes before the first space. -/
def nameOf (content : Slice) : Slice := content.takeWhile (!isSpace ·)

def name (e : Element) : Slice := nameOf e.content

/-- The bytes after the name. -/
def attributeText (content : Slice) : Slice := content.dropWhile (!isSpace ·)

/-- The attributes of an element in order, up to the first error. -/
def attributes (e : Element) : List (Except AttributeError Attribute) :=
  Attribute.distinct e.name.length (attributeText e.content)

end Element

/-- What a reader meets in a document. -/
inductive Event
  | start (e : Element)
  | empty (e : Element)
  | finish
  | text (content : Slice)
  | aside
  deriving DecidableEq

/-- An open element: its name and the bindings in force in its content. -/
structure Frame where
  name : Slice
  scope : Scope
  deriving DecidableEq

/-- The open elements, the innermost first. -/
abbrev Reader := List Frame

/-- The message about an end tag that does not name the innermost open element. -/
def mismatch (expected found : Slice) : String :=
  "Expecting </" ++ String.ofList ((decode expected).getD []) ++ "> found </" ++
    String.ofList ((decode found).getD []) ++ ">"

namespace Reader

/-- The bindings in force. -/
def scope : Reader → Scope
  | [] => Scope.initial
  | frame :: _ => frame.scope

/-- The element of a tag in the given bindings. -/
def element (outer : Scope) (content : Slice) : Except String Element := do
  let attributes :=
    Attribute.scan (Element.nameOf content).length (Element.attributeText content)
  return ⟨content, ← outer.declare attributes⟩

/-- The name in an end tag: its content without trailing space, unless it is all space. -/
def endName (content : Slice) : Slice :=
  if content.all isSpace then content else content.rdropWhile isSpace

/-- The event of a lexeme and the elements open after it. -/
def step (reader : Reader) : Lexeme → Except String (Event × Reader)
  | .text content => .ok (.text content, reader)
  | .startTag content => do
    let e ← element reader.scope content
    return (.start e, ⟨e.name, e.scope⟩ :: reader)
  | .emptyTag content => do
    let e ← element reader.scope content
    return (.empty e, reader)
  | .endTag content =>
    match reader with
    | [] => .error (mismatch [] content)
    | frame :: outer =>
      if endName content = frame.name then .ok (.finish, outer)
      else .error (mismatch frame.name (endName content))
  | .aside => .ok (.aside, reader)

end Reader

namespace Event

/-- The events of lexemes, read with the given elements open. -/
def ofLexemes (reader : Reader) : List (Except String Lexeme) → List (Except String Event)
  | [] => []
  | .error message :: _ => [.error message]
  | .ok l :: rest =>
    match reader.step l with
    | .error message => [.error message]
    | .ok (event, reader) => .ok event :: ofLexemes reader rest

/-- A document without the byte order mark it may begin with. -/
def withoutMark (s : Slice) : Slice :=
  if [0xEF, 0xBB, 0xBF].isPrefixOf s then s.drop 3 else s

/-- The events of a document, up to its end or the first error. -/
def scan (document : Slice) : List (Except String Event) :=
  ofLexemes [] (Bytes.scan (withoutMark document))

end Event

end Bytes

/-! ## Bytes of bindings and events -/

def Binding.bytes (b : Binding) : Bytes.Binding := ⟨encode b.label, encode b.uri⟩

/-- The bindings with their bytes in place of their characters. -/
def Scope.bytes (scope : Scope) : Bytes.Scope := scope.map Binding.bytes

def Resolution.bytes : Resolution → Bytes.Resolution
  | .unbound => .unbound
  | .bound uri => .bound (encode uri)
  | .unknown label => .unknown (encode label)

def Element.bytes (e : Element) : Bytes.Element := ⟨encode e.content, e.scope.bytes⟩

/-- The event with its bytes in place of its characters. -/
def Event.bytes : Event → Bytes.Event
  | .start e => .start e.bytes
  | .empty e => .empty e.bytes
  | .finish => .finish
  | .text content => .text (encode content)
  | .aside => .aside

/-- The open elements with their bytes in place of their characters. -/
def Reader.bytes (reader : Reader) : Bytes.Reader :=
  reader.map fun frame => ⟨encode frame.name, frame.scope.bytes⟩

namespace Bytes

/-! ## Names -/

theorem splitName_encode (name : List Char) :
    splitName (encode name) =
      ((Markup.splitName name).1.map encode, encode (Markup.splitName name).2) := by
  have hpred : (fun c : Char => !decide (c = ':')) = fun c => decide (c ≠ ':') := by
    funext c
    simp
  have hagree := Agree.ascii_ne (d := ':') (by decide)
  rw [splitName, Markup.splitName, splitFirst_eq, hpred, takeWhile_encode hagree]
  cases hrest : name.dropWhile fun c => decide (c ≠ ':') with
  | nil =>
    rw [dropWhile_encode hagree, hrest]
    rfl
  | cons c t =>
    rw [dropWhile_encode hagree, hrest, eq_of_dropWhile_eq_cons hrest,
      encode_cons_of_ascii (by decide)]
    rfl

namespace Scope

theorem declared?_encode (key : List Char) :
    declared? (encode key) = (Markup.Scope.declared? key).map (Option.map encode) := by
  have hascii : ∀ c ∈ "xmlns:".toList, c.toNat < 0x80 := forall_mem_of_all (by decide)
  simp only [declared?, Markup.Scope.declared?, encode_eq_iff, encode_of_ascii hascii,
    isPrefixOf_encode hascii]
  split
  · rfl
  · split
    · next hkey =>
      rw [show 6 = "xmlns:".toList.length from rfl, drop_encode hascii hkey]
      rfl
    · rfl

theorem refusedBinding_encode (label uri : List Char) :
    refusedBinding (encode label) (encode uri) = BindingError.message ⟨label, uri⟩ := rfl

theorem declareOne_encode (scope : Markup.Scope) (a : Markup.Attribute) :
    declareOne scope.bytes a.bytes =
      ((scope.declareOne a).map Markup.Scope.bytes).mapError BindingError.message := by
  simp only [declareOne, Markup.Scope.declareOne, Markup.Attribute.bytes, declared?_encode]
  rcases Markup.Scope.declared? a.key with _ | _ | label
  · rfl
  · rfl
  · simp only [Option.map_some, encode_eq_iff, refusedBinding_encode]
    split_ifs <;> rfl

/-- The bindings of the bytes of a tag are the bytes of its bindings. -/
theorem declare_encode (scope : Markup.Scope) (as : List Markup.Attribute) :
    declare scope.bytes (as.map Markup.Attribute.bytes) =
      ((scope.declare as).map Markup.Scope.bytes).mapError BindingError.message := by
  induction as generalizing scope with
  | nil => rfl
  | cons a as ih =>
    rw [List.map_cons, declare, List.foldlM_cons, declareOne_encode, Markup.Scope.declare,
      List.foldlM_cons]
    cases scope.declareOne a with
    | error e => rfl
    | ok scope' => exact ih scope'

theorem lookup?_encode (scope : Markup.Scope) (label : List Char) :
    lookup? scope.bytes (encode label) = (scope.lookup? label).map encode := by
  have hfind : scope.bytes.find? (·.label = encode label) =
      (scope.find? (·.label = label)).map Binding.bytes := by
    rw [Markup.Scope.bytes, List.find?_map]
    congr 2
    funext b
    simp [Binding.bytes, encode_eq_iff]
  rw [lookup?, Markup.Scope.lookup?, hfind]
  cases scope.find? (·.label = label) with
  | none => rfl
  | some b =>
    simp only [Option.map_some, Binding.bytes, isEmpty_encode]
    split <;> rfl

theorem resolveLabel_encode (scope : Markup.Scope) (label : List Char) :
    resolveLabel scope.bytes (encode label) = (scope.resolveLabel label).bytes := by
  simp only [resolveLabel, Markup.Scope.resolveLabel, isEmpty_encode, lookup?_encode]
  split
  · rfl
  · cases scope.lookup? label <;> rfl

theorem resolveElement_encode (scope : Markup.Scope) (name : List Char) :
    resolveElement scope.bytes (encode name) =
      ((scope.resolveElement name).1.bytes, encode (scope.resolveElement name).2) := by
  rw [resolveElement, Markup.Scope.resolveElement, splitName_encode]
  rcases Markup.splitName name with ⟨_ | label, localPart⟩
  · have hlookup := lookup?_encode scope []
    rw [encode_nil] at hlookup
    simp only [Option.map_none, hlookup]
    cases scope.lookup? [] <;> rfl
  · simp only [Option.map_some, resolveLabel_encode]

theorem resolveAttribute_encode (scope : Markup.Scope) (key : List Char) :
    resolveAttribute scope.bytes (encode key) =
      ((scope.resolveAttribute key).1.bytes, encode (scope.resolveAttribute key).2) := by
  rw [resolveAttribute, Markup.Scope.resolveAttribute, splitName_encode]
  rcases Markup.splitName key with ⟨_ | label, localPart⟩
  · rfl
  · simp only [Option.map_some, resolveLabel_encode]

end Scope

/-! ## Elements -/

namespace Element

theorem nameOf_encode (content : List Char) :
    nameOf (encode content) = encode (Markup.Element.nameOf content) :=
  takeWhile_encode agree_isSpace.not content

theorem attributeText_encode (content : List Char) :
    attributeText (encode content) = encode (Markup.Element.attributeText content) :=
  dropWhile_encode agree_isSpace.not content

theorem name_bytes (e : Markup.Element) : e.bytes.name = encode e.name := nameOf_encode e.content

theorem attributes_bytes (e : Markup.Element) :
    e.bytes.attributes = e.attributes.map (Except.map Markup.Attribute.bytes) := by
  rw [attributes, name_bytes, length_encode, Markup.Element.bytes, attributeText_encode,
    Attribute.distinct_encode]
  rfl

end Element

namespace Reader

theorem scope_bytes (reader : Markup.Reader) : Reader.scope reader.bytes = reader.scope.bytes := by
  cases reader <;> rfl

theorem element_encode (outer : Markup.Scope) (content : List Char) :
    element outer.bytes (encode content) =
      ((Markup.Reader.element outer content).map Markup.Element.bytes).mapError
        BindingError.message := by
  rw [element, Markup.Reader.element, Element.nameOf_encode, Element.attributeText_encode,
    length_encode, Attribute.scan_encode, Scope.declare_encode]
  cases outer.declare _ <;> rfl

theorem endName_encode (content : List Char) :
    endName (encode content) = encode (Markup.Reader.endName content) := by
  rw [endName, Markup.Reader.endName, all_encode agree_isSpace, rdropWhile_encode agree_isSpace]
  split <;> rfl

theorem mismatch_encode (expected found : List Char) :
    mismatch (encode expected) (encode found) = (ReadError.mismatch expected found).message := by
  unfold mismatch ReadError.message
  simp only [decode_encode, Option.getD_some]

/-- A lexeme of bytes does to the reader what the lexeme of characters does. -/
theorem step_encode (reader : Markup.Reader) (l : Markup.Lexeme) :
    step reader.bytes l.bytes =
      ((reader.step l).map fun (event, reader) => (event.bytes, reader.bytes)).mapError
        ReadError.message := by
  cases l with
  | text content => rfl
  | startTag content =>
    rw [Markup.Lexeme.bytes, step, scope_bytes, element_encode, Markup.Reader.step]
    cases Markup.Reader.element reader.scope content with
    | error e => rfl
    | ok e =>
      simp only [Except.map, Except.mapError, bind, Except.bind, pure, Except.pure,
        Element.name_bytes]
      rfl
  | emptyTag content =>
    rw [Markup.Lexeme.bytes, step, scope_bytes, element_encode, Markup.Reader.step]
    cases Markup.Reader.element reader.scope content <;> rfl
  | endTag content =>
    cases reader with
    | nil => exact congrArg Except.error (mismatch_encode [] content)
    | cons frame outer =>
      simp only [Markup.Lexeme.bytes, Markup.Reader.bytes, List.map_cons, step, Markup.Reader.step,
        endName_encode, encode_eq_iff, mismatch_encode]
      split <;> rfl
  | comment | cdata | doctype | instruction => rfl

end Reader

/-! ## Documents -/

namespace Event

theorem ofLexemes_encode (reader : Markup.Reader) (ls : List (Except Fault Markup.Lexeme)) :
    ofLexemes reader.bytes
        (ls.map fun x => (x.map Markup.Lexeme.bytes).mapError Fault.message) =
      (Markup.Event.ofLexemes reader ls).map fun x =>
        (x.map Markup.Event.bytes).mapError ReadError.message := by
  induction ls generalizing reader with
  | nil => rfl
  | cons x ls ih =>
    cases x with
    | error f => rfl
    | ok l =>
      rw [List.map_cons, Except.map, Except.mapError, ofLexemes, Reader.step_encode,
        Markup.Event.ofLexemes]
      cases reader.step l with
      | error e => rfl
      | ok next =>
        obtain ⟨event, reader'⟩ := next
        exact congrArg (Except.ok event.bytes :: ·) (ih reader')

/-- The bytes of a text begin with a byte order mark exactly if the text does. -/
theorem withoutMark_encode (s : List Char) :
    withoutMark (encode s) = encode (Markup.Event.withoutMark s) := by
  have hmark : encodeChar '\uFEFF' = [0xEF, 0xBB, 0xBF] := by decide
  unfold Markup.Event.withoutMark
  split
  · next t =>
    rw [withoutMark, encode_cons, hmark]
    rfl
  · next hs =>
    refine if_neg fun h => ?_
    obtain ⟨rest, hrest⟩ := List.isPrefixOf_iff_prefix.1 h
    have hdecode := decode_encode s
    rw [← hrest, ← hmark, decode_encodeChar_append] at hdecode
    obtain ⟨t, -, ht⟩ := Option.map_eq_some_iff.1 hdecode
    exact hs t ht.symm

/-- **The events of the bytes of a text are the bytes of its events.** -/
theorem scan_encode (document : List Char) :
    scan (encode document) = (Markup.Event.scan document).map fun x =>
      (x.map Markup.Event.bytes).mapError ReadError.message := by
  rw [scan, withoutMark_encode, Bytes.scan_encode]
  exact ofLexemes_encode [] _

end Event

end Bytes

end LayoutShell.Markup
