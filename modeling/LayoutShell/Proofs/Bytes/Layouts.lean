import LayoutShell.Proofs.Bytes.Events
import LayoutShell.Proofs.Layout.Outcomes
import LayoutShell.Proofs.Layout.Sources
import LayoutShell.Proofs.Text.LossyDecoding

/-!
# Layouts of bytes

The references of a layout can be read from its bytes. Names, namespaces and prefixes are then
slices of these bytes, and each is decoded where it is recorded or reported, with a replacement
character for what is not UTF-8.

* `Decoding` is work that keeps the slices it decodes, and `Decodes` says what it comes to and which
  slices these are.
* `Bytes.parse` is the references of a document of bytes, with the slices that were decoded.
* `Bytes.parse_encode`: on the bytes of a text it comes to the references of the text, and every
  slice is the bytes of a text that stands in the document.
-/

namespace LayoutShell.Layout

open Markup.Bytes Text

namespace LayoutError

/-- What is told about an error: its kind and its message. -/
def report (e : LayoutError) : Kind × String := (e.kind, e.message)

end LayoutError

open LayoutError

namespace Bytes

/-! ## Decoding -/

/-- What a slice is in the document. -/
inductive Part
  | elementName
  | attributeName
  | uri
  | label
  deriving DecidableEq

/-- A slice that is decoded. -/
structure Piece where
  part : Part
  slice : Slice
  deriving DecidableEq

/-- Work that may fail, and that keeps the slices it decodes. -/
abbrev Decoding := ExceptT (Kind × String) (StateM (List Piece))

/-- The text of a slice, with a replacement character for what is not UTF-8. -/
def lossy (part : Part) (slice : Slice) : Decoding (List Char) := do
  modify (· ++ [⟨part, slice⟩])
  return decodeLossy slice

/-- A result that needs no decoding. -/
def direct {α : Type} (x : Except (Kind × String) α) : Decoding α := ExceptT.mk (pure x)

/-- The text of a slice, which has to be UTF-8, with its entities replaced. -/
def unescape (slice : Slice) : Except (Kind × String) (List Char) :=
  match decode slice with
  | some s => (Markup.Entity.expand s).mapError fun e => (.markup, e.message)
  | none => .error (.markup, "Malformed UTF-8 input")

/-! ## References -/

/-- Reports a prefix that is not bound. -/
def refuseLabel {α : Type} (label : Slice) : Decoding α := do
  direct (.error (LayoutError.unboundLabel (← lossy .label label)).report)

/-- The name under which an element is recorded. -/
def elementTag (e : Element) : Decoding (List Char) := do
  let l ← lossy .elementName (e.scope.resolveElement e.name).2
  match (e.scope.resolveElement e.name).1 with
  | .unbound => return l
  | .bound uri => return '\x7b' :: (← lossy .uri uri) ++ '\x7d' :: l
  | .unknown label => refuseLabel label

/-- The attributes that belong to markup itself. -/
def isReserved (key : Slice) : Bool :=
  key = encode Markup.xmlnsLabel || (encode "xmlns:".toList).isPrefixOf key ||
    (encode "xml:".toList).isPrefixOf key

/-- Adds the reference that an attribute of an element makes. -/
def addAttribute (scope : Scope) (tag : List Char) (r : References) (a : Attribute) :
    Decoding References :=
  if isReserved a.key then return r
  else do
    let l ← lossy .attributeName (scope.resolveAttribute a.key).2
    match (scope.resolveAttribute a.key).1 with
    | .unknown label => refuseLabel label
    | .unbound => return r
    | .bound uri =>
      if uri = encode androidUri then return addReference tag l (← direct (unescape a.value)) r
      else return r

/-- Adds the references of attributes in order. -/
def addAttributes (scope : Scope) (tag : List Char) (r : References) :
    List (Except Markup.AttributeError Attribute) → Decoding References
  | [] => return r
  | .error e :: _ => direct (.error (LayoutError.badAttribute e).report)
  | .ok a :: rest => do addAttributes scope tag (← addAttribute scope tag r a) rest

/-- Adds the references of an element. -/
def addElement (r : References) (e : Element) : Decoding References := do
  let tag ← elementTag e
  let r := if structuralTags.contains tag then r else r.addClass tag
  addAttributes e.scope tag r e.attributes

/-- Enters an element, which may stand outside of all others only once. -/
def visit (p : Progress) (e : Element) : Decoding Progress :=
  if p.depth = 0 ∧ p.seenRoot then direct (.error LayoutError.secondRoot.report)
  else do return ⟨p.depth, true, ← addElement p.found e⟩

/-- The progress after an event. -/
def step (p : Progress) : Event → Decoding Progress
  | .start e => do
    let p ← visit p e
    return { p with depth := p.depth + 1 }
  | .empty e => visit p e
  | .finish => return { p with depth := p.depth - 1 }
  | .text content => do
    let content ← direct (unescape content)
    if p.depth = 0 ∧ !isBlank content then direct (.error LayoutError.textOutsideRoot.report)
    else return p
  | .aside => return p

/-- The progress after all events. -/
def run (p : Progress) : List (Except String Event) → Decoding Progress
  | [] => return p
  | .error message :: _ => direct (.error (.markup, message))
  | .ok event :: rest => do run (← step p event) rest

/-- The references of a layout document of bytes, and the slices that were decoded. -/
def parse (document : Slice) : Except (Kind × String) References × List Piece :=
  (do direct ((← run Progress.initial (Event.scan document)).finish.mapError report)).run.run []

/-! ## What decoding comes to -/

/-- The work comes to `x` and decodes slices with `P`. -/
def Decodes {α : Type} (P : Piece → Prop) (m : Decoding α) (x : Except (Kind × String) α) : Prop :=
  ∃ pieces, (∀ piece ∈ pieces, P piece) ∧ ∀ log, m.run.run log = (x, log ++ pieces)

theorem run_bind_of_ok {α β : Type} {m : Decoding α} {a : α} {log log' : List Piece}
    (h : m.run.run log = (.ok a, log')) (f : α → Decoding β) :
    (m >>= f).run.run log = (f a).run.run log' := by
  rw [ExceptT.run_bind, StateT.run_bind, h]
  rfl

theorem run_bind_of_error {α β : Type} {m : Decoding α} {e : Kind × String} {log log' : List Piece}
    (h : m.run.run log = (.error e, log')) (f : α → Decoding β) :
    (m >>= f).run.run log = (.error e, log') := by
  rw [ExceptT.run_bind, StateT.run_bind, h]
  rfl

namespace Decodes

variable {α β : Type} {P : Piece → Prop}

theorem direct (x : Except (Kind × String) α) : Decodes P (direct x) x :=
  ⟨[], by simp, fun log => by rw [List.append_nil]; rfl⟩

theorem pure (a : α) : Decodes P (pure a : Decoding α) (.ok a) := direct (.ok a)

theorem lossy {part : Part} {slice : Slice} (h : P ⟨part, slice⟩) :
    Decodes P (lossy part slice) (.ok (decodeLossy slice)) :=
  ⟨[⟨part, slice⟩], List.forall_mem_singleton.2 h, fun _ => rfl⟩

theorem bind {m : Decoding α} {x : Except (Kind × String) α} (hm : Decodes P m x)
    {f : α → Decoding β} {g : α → Except (Kind × String) β}
    (hf : ∀ a, x = .ok a → Decodes P (f a) (g a)) : Decodes P (m >>= f) (x >>= g) := by
  obtain ⟨pieces, hpieces, hrun⟩ := hm
  cases x with
  | error e => exact ⟨pieces, hpieces, fun log => run_bind_of_error (hrun log) f⟩
  | ok a =>
    obtain ⟨pieces', hpieces', hrun'⟩ := hf a rfl
    refine ⟨pieces ++ pieces', List.forall_mem_append.2 ⟨hpieces, hpieces'⟩, fun log => ?_⟩
    rw [run_bind_of_ok (hrun log), hrun', List.append_assoc]
    rfl

end Decodes

/-! ## Bytes of a text -/

/-- Where the text of a piece stands: a namespace may be one that is bound in every document. -/
def Part.StandsIn (document s : List Char) : Part → Prop
  | .uri => Markup.StandsIn document s
  | .elementName | .attributeName | .label => s <:+: document

/-- The slice is the bytes of a text that stands in the document. -/
def Piece.IsOf (document : List Char) (piece : Piece) : Prop :=
  ∃ s, piece.slice = encode s ∧ piece.part.StandsIn document s

variable {document : List Char}

/-- The bytes of a text of the document are decoded into that text. -/
theorem lossy_encode_bind {α : Type} (part : Part) {s : List Char} (hs : part.StandsIn document s)
    {f : List Char → Decoding α} {x : Except (Kind × String) α}
    (h : Decodes (Piece.IsOf document) (f s) x) :
    Decodes (Piece.IsOf document) (lossy part (encode s) >>= f) x := by
  have hpiece : Piece.IsOf document ⟨part, encode s⟩ := ⟨s, rfl, hs⟩
  have hlossy := Decodes.lossy hpiece
  rw [decodeLossy_encode] at hlossy
  refine hlossy.bind (g := fun _ => x) fun a ha => ?_
  cases ha
  exact h

theorem unescape_encode (s : List Char) :
    unescape (encode s) = ((Markup.Entity.expand s).mapError .badEntity).mapError report := by
  rw [unescape, decode_encode]
  dsimp only
  cases Markup.Entity.expand s <;> rfl

theorem refuseLabel_encode {α : Type} {label : List Char} (h : label <:+: document) :
    Decodes (Piece.IsOf document) (refuseLabel (encode label) : Decoding α)
      (.error (LayoutError.unboundLabel label).report) :=
  lossy_encode_bind .label h (Decodes.direct _)

theorem elementTag_encode {e : Markup.Element} (he : e.Within document) :
    Decodes (Piece.IsOf document) (elementTag e.bytes) ((Layout.elementTag e).mapError report) := by
  have hname := he.scope.resolveElement he.name
  unfold elementTag Layout.elementTag
  rw [Element.name_bytes, Markup.Element.bytes, Scope.resolveElement_encode]
  refine lossy_encode_bind .elementName hname.localPart ?_
  generalize e.scope.resolveElement e.name = resolved at hname ⊢
  obtain ⟨resolution, l⟩ := resolved
  cases resolution with
  | unbound => exact Decodes.pure _
  | bound uri => exact lossy_encode_bind .uri (hname.uri uri rfl) (Decodes.pure _)
  | unknown label => exact refuseLabel_encode (hname.label label rfl)

theorem isReserved_encode (key : List Char) : isReserved (encode key) = Layout.isReserved key := by
  have hbinding : ∀ c ∈ "xmlns:".toList, c.toNat < 0x80 := forall_mem_of_all (by decide)
  have hmarkup : ∀ c ∈ "xml:".toList, c.toNat < 0x80 := forall_mem_of_all (by decide)
  rw [isReserved, Layout.isReserved, encode_of_ascii hbinding, encode_of_ascii hmarkup,
    isPrefixOf_encode hbinding, isPrefixOf_encode hmarkup]
  simp only [encode_eq_iff]

theorem addAttribute_encode {scope : Markup.Scope} (hscope : scope.Within document)
    {a : Markup.Attribute} (ha : a.Within document) (tag : List Char) (r : References) :
    Decodes (Piece.IsOf document) (addAttribute scope.bytes tag r a.bytes)
      ((Layout.addAttribute scope tag r a).mapError report) := by
  have hkey := hscope.resolveAttribute ha.key
  unfold addAttribute Layout.addAttribute
  rw [Markup.Attribute.bytes, isReserved_encode, Scope.resolveAttribute_encode, unescape_encode]
  split
  · exact Decodes.pure r
  · refine lossy_encode_bind .attributeName hkey.localPart ?_
    generalize scope.resolveAttribute a.key = resolved at hkey ⊢
    obtain ⟨resolution, l⟩ := resolved
    cases resolution with
    | unbound => exact Decodes.pure r
    | unknown label => exact refuseLabel_encode (hkey.label label rfl)
    | bound uri =>
      simp only [Markup.Resolution.bytes, encode_eq_iff]
      split
      · rw [mapError_bind]
        exact (Decodes.direct _).bind fun v _ => Decodes.pure _
      · exact Decodes.pure r

theorem addAttributes_encode {scope : Markup.Scope} (hscope : scope.Within document)
    (tag : List Char) {xs : List (Except Markup.AttributeError Markup.Attribute)}
    (hxs : ∀ x ∈ xs, Delivers (Markup.Attribute.Within document)
      (Markup.AttributeError.Within document) x) (r : References) :
    Decodes (Piece.IsOf document)
      (addAttributes scope.bytes tag r (xs.map (Except.map Markup.Attribute.bytes)))
      ((Layout.addAttributes scope tag r xs).mapError report) := by
  induction xs generalizing r with
  | nil => exact Decodes.pure r
  | cons x xs ih =>
    obtain ⟨hx, hrest⟩ := List.forall_mem_cons.1 hxs
    cases x with
    | error e => exact Decodes.direct _
    | ok a =>
      rw [Layout.addAttributes, mapError_bind]
      exact (addAttribute_encode hscope hx tag r).bind fun r' _ => ih hrest r'

theorem addElement_encode {e : Markup.Element} (he : e.Within document) (r : References) :
    Decodes (Piece.IsOf document) (addElement r e.bytes)
      ((Layout.addElement r e).mapError report) := by
  rw [addElement, Layout.addElement, mapError_bind, Element.attributes_bytes]
  refine (elementTag_encode he).bind fun tag _ => ?_
  simp only [List.contains_iff_mem]
  exact addAttributes_encode he.scope tag he.attributes _

theorem visit_encode (p : Progress) {e : Markup.Element} (he : e.Within document) :
    Decodes (Piece.IsOf document) (visit p e.bytes) ((p.visit e).mapError report) := by
  unfold visit Progress.visit
  split
  · exact Decodes.direct _
  · rw [mapError_bind]
    exact (addElement_encode he p.found).bind fun r _ => Decodes.pure _

theorem step_encode (p : Progress) {event : Markup.Event} (hevent : event.Within document) :
    Decodes (Piece.IsOf document) (step p event.bytes) ((p.step event).mapError report) := by
  cases event with
  | start e =>
    rw [Progress.step, mapError_bind]
    exact (visit_encode p hevent).bind fun q _ => Decodes.pure _
  | empty e => exact visit_encode p hevent
  | finish => exact Decodes.pure _
  | text content =>
    rw [Progress.step, mapError_bind, Markup.Event.bytes, step, unescape_encode]
    refine (Decodes.direct _).bind fun value _ => ?_
    split
    · exact Decodes.direct _
    · exact Decodes.pure p
  | aside => exact Decodes.pure p

theorem run_encode (p : Progress) {xs : List (Except Markup.ReadError Markup.Event)}
    (hxs : ∀ x ∈ xs, Delivers (Markup.Event.Within document) (Markup.ReadError.Within document) x) :
    Decodes (Piece.IsOf document)
      (run p (xs.map fun x => (x.map Markup.Event.bytes).mapError Markup.ReadError.message))
      ((p.run xs).mapError report) := by
  induction xs generalizing p with
  | nil => exact Decodes.pure p
  | cons x xs ih =>
    obtain ⟨hx, hrest⟩ := List.forall_mem_cons.1 hxs
    cases x with
    | error e => exact Decodes.direct _
    | ok event =>
      rw [Progress.run, mapError_bind]
      exact (step_encode p hx).bind fun q _ => ih q hrest

/-- **The bytes of a text are read as the text is**, and the slices that are decoded on the way are
the bytes of parts of it. -/
theorem parse_encode (document : List Char) :
    (parse (encode document)).1 = (References.parse document).mapError report ∧
      ∀ piece ∈ (parse (encode document)).2, piece.IsOf document := by
  have hparse : Decodes (Piece.IsOf document)
      (run Progress.initial (Event.scan (encode document)) >>= fun p =>
        direct (p.finish.mapError report)) ((References.parse document).mapError report) := by
    rw [Event.scan_encode, References.parse, mapError_bind]
    exact (run_encode _ (Markup.Event.delivers_of_mem_scan document)).bind
      fun p _ => Decodes.direct _
  obtain ⟨pieces, hpieces, hrun⟩ := hparse
  have hparsed : parse (encode document) = ((References.parse document).mapError report, pieces) :=
    hrun []
  rw [hparsed]
  exact ⟨rfl, hpieces⟩

end Bytes

end LayoutShell.Layout
