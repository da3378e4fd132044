import LayoutShell.Proofs.Layout.Elements
import LayoutShell.Proofs.Layout.Rendering
import LayoutShell.Proofs.Markup.Bindings

/-!
# The references of a tree

What a layout refers to can be said on its tree, without its text: every element is recorded with
its namespace, and the attributes of the android namespace name classes and handlers.

* `Node.elements` lists the elements of a tree with the bindings in force in them.
* `Placed.WellFormed` is what an element must satisfy to be written down and read back.
* `Placed.RefersToClass` and `Placed.RefersToHandler` are the references of an element.
* `parse_render_of_wellFormed`: a tree that is written down and parsed gives the references of its
  elements.
-/

namespace LayoutShell.Layout

open Markup Text References

/-! ## Elements in their place -/

/-- An element of a tree and the bindings in force in it. -/
structure Placed where
  bindings : Bindings
  tag : Name
  items : List Item

mutual

/-- The elements of a tree that stands in the given bindings. -/
def elements (b : Bindings) : Node → List Placed
  | .text _ => []
  | .element tag items _ children =>
    ⟨b.enter items, tag, items⟩ :: elementsAll (b.enter items) children

/-- The elements of trees in a row. -/
def elementsAll (b : Bindings) : List Node → List Placed
  | [] => []
  | node :: nodes => elements b node ++ elementsAll b nodes

end

/-- What an item of a tag must satisfy in the bindings in force in that tag. -/
inductive WellFormedItem (b : Bindings) : Item → Prop
  /-- The prefixes `xml` and `xmlns` and their namespaces are not declared. -/
  | declaration (label : Option NamePart) (uri : List Char) (closed : '"' ∉ uri)
      (label_ne : ∀ p, label = some p → p.chars ≠ xmlLabel ∧ p.chars ≠ xmlnsLabel)
      (uri_ne : uri ≠ xmlUri ∧ uri ≠ xmlnsUri) : WellFormedItem b (.declaration label uri closed)
  /-- An attribute is no declaration and its prefix is bound. -/
  | ordinary (name : Name) (value : List Char)
      (no_declaration : (Item.ofValue name value).declared? = none)
      (bound : ∀ p, name.label = some p → b p.chars ≠ []) : WellFormedItem b (.ofValue name value)

namespace Placed

/-- The prefix of the element is bound, its items are well formed, and no key is repeated. -/
structure WellFormed (e : Placed) : Prop where
  bound : ∀ p, e.tag.label = some p → e.bindings p.chars ≠ []
  items : ∀ i ∈ e.items, WellFormedItem e.bindings i
  distinct : (e.items.map (·.name.chars)).Nodup

/-- The namespace of the element, empty if it has none. -/
def uri (e : Placed) : List Char :=
  match e.tag.label with
  | none => e.bindings []
  | some label => e.bindings label.chars

/-- The name of the element, after its namespace in braces if it has one. -/
def recordedName (e : Placed) : List Char :=
  if e.uri = [] then e.tag.localPart.chars else '\x7b' :: e.uri ++ '\x7d' :: e.tag.localPart.chars

/-- The element has an attribute of the android namespace called `l` with the value `v`. -/
def HasAndroid (e : Placed) (l v : List Char) : Prop :=
  ∃ name label, .ofValue name v ∈ e.items ∧ name.label = some label ∧
    e.bindings label.chars = androidUri ∧ name.localPart.chars = l

/-- The element refers to the class `n`. -/
def RefersToClass (e : Placed) (n : String) : Prop :=
  e.recordedName ∉ structuralTags ∧ n = String.ofList e.recordedName ∨
    ∃ l v, e.HasAndroid l v ∧ IsClassAttribute e.recordedName l ∧ v ≠ [] ∧ n = String.ofList v

/-- The element refers to the handler `n`. -/
def RefersToHandler (e : Placed) (n : String) : Prop :=
  ∃ v, e.HasAndroid "onClick".toList v ∧ v ≠ [] ∧ n = String.ofList v

end Placed

/-! ## One element -/

theorem WellFormedItem.declares {b : Bindings} {i : Item} (h : WellFormedItem b i) :
    i.declared? = none ∨ ∃ label, i.Declares label := by
  cases h with
  | declaration label uri closed label_ne uri_ne =>
    refine .inr ?_
    cases label with
    | none => exact ⟨[], rfl, by decide, uri_ne⟩
    | some p => exact ⟨p.chars, rfl, label_ne p rfl, uri_ne⟩
  | ordinary name value no_declaration => exact .inl no_declaration

theorem isReserved_declaration (label : Option NamePart) (uri : List Char) (closed : '"' ∉ uri) :
    isReserved (Item.declaration label uri closed).name.chars = true := by
  cases label with
  | none => rfl
  | some p => rfl

section

variable {scope : Scope} {b : Bindings} {items : List Item}

/-- The attributes of the android namespace that the reader sees are those of the tree. -/
theorem exists_isAndroid_iff (hscope : Agrees scope b) (hstd : scope.Standard)
    (hitems : ∀ i ∈ items, WellFormedItem b i) (place : Nat) {l v : List Char} :
    (∃ a ∈ Attribute.ofItems place items, IsAndroid scope a l v) ↔
      ∃ name label, .ofValue name v ∈ items ∧ name.label = some label ∧
        b label.chars = androidUri ∧ name.localPart.chars = l := by
  constructor
  · rintro ⟨a, ha, hl, hv⟩
    obtain ⟨i, hi, hkey, hvalue⟩ := Attribute.mem_ofItems ha
    rw [hkey] at hl
    rw [hvalue] at hv
    cases hitems i hi with
    | declaration label uri closed =>
      exact absurd hl (reserved_not_android hstd (isReserved_declaration label uri closed) l)
    | ordinary name value no_declaration bound =>
      obtain rfl : value = v := Except.ok.inj ((Entity.expand_escape value).symm.trans hv)
      cases hlabel : name.label with
      | none =>
        rw [Item.ofValue, resolveAttribute_of_none scope hlabel] at hl
        cases hl
      | some label =>
        rw [Item.ofValue, hscope.resolveAttribute_of_some hlabel (bound label hlabel)] at hl
        obtain ⟨huri, hlocal⟩ := Prod.mk.inj hl
        exact ⟨name, label, hi, hlabel, Resolution.bound.inj huri, hlocal⟩
  · rintro ⟨name, label, hi, hlabel, hb, rfl⟩
    obtain ⟨a, ha, hkey, hvalue⟩ := Attribute.exists_mem_ofItems place hi
    refine ⟨a, ha, ?_, ?_⟩
    · rw [hkey, Item.ofValue, hscope.resolveAttribute_of_some hlabel (by rw [hb]; decide), hb]
    · rw [hvalue]
      exact Entity.expand_escape v

theorem soundAttribute_of_wellFormed (hscope : Agrees scope b) (hstd : scope.Standard)
    {i : Item} (hi : WellFormedItem b i) {a : Attribute} (hkey : a.key = i.name.chars)
    (hvalue : a.value = i.raw) : SoundAttribute scope a := by
  cases hi with
  | declaration label uri closed label_ne uri_ne =>
    have hreserved : isReserved a.key = true := hkey ▸ isReserved_declaration label uri closed
    refine ⟨fun h => ?_, fun l hl => absurd hl (reserved_not_android hstd hreserved l)⟩
    rw [hreserved] at h
    cases h
  | ordinary name value no_declaration bound =>
    refine ⟨fun _ l => ?_, fun _ _ => ⟨value, by rw [hvalue]; exact Entity.expand_escape value⟩⟩
    rw [hkey, Item.ofValue]
    cases hlabel : name.label with
    | none =>
      rw [resolveAttribute_of_none scope hlabel]
      exact Resolution.noConfusion
    | some label =>
      rw [hscope.resolveAttribute_of_some hlabel (bound label hlabel)]
      exact Resolution.noConfusion

/-- An element of a tree is recorded under its name. -/
theorem elementTag_of_agrees {p : Placed}
    (hbound : ∀ l, p.tag.label = some l → p.bindings l.chars ≠ []) {e : Element}
    (hscope : Agrees e.scope p.bindings) (hname : e.name = p.tag.chars) :
    elementTag e = .ok p.recordedName := by
  rw [elementTag, hname, Placed.recordedName, Placed.uri]
  cases hlabel : p.tag.label with
  | none =>
    rw [hscope.resolveElement_of_none hlabel]
    by_cases h : p.bindings [] = [] <;> simp [h]
  | some label =>
    rw [hscope.resolveElement_of_some hlabel (hbound label hlabel)]
    simp [hbound label hlabel]

theorem tagElement_eq (scope : Scope) (tag : Name) (items : List Item) :
    tagElement scope tag items =
      ((scope.declare (Attribute.ofItems (size tag.chars) items)).map
        (Element.mk (tagText tag items))).mapError fun e => .unreadable (.binding e) := by
  rw [tagElement, Reader.element, nameOf_tagText, attributeText_tagText,
    (Attribute.readings_itemsText _ items).2]
  rfl

/-- The reader meets an element of a tree with its bindings. -/
theorem tagElement_of_allowed (hscope : Agrees scope b) (hstd : scope.Standard)
    (hitems : ∀ i ∈ items, i.Allowed) (tag : Name) :
    ∃ inner, tagElement scope tag items = .ok ⟨tagText tag items, inner⟩ ∧
      Agrees inner (b.enter items) ∧ inner.Standard := by
  obtain ⟨inner, hdeclare, hinner⟩ := hscope.declare hstd (size tag.chars) hitems
  refine ⟨inner, ?_, hinner, hstd.declare hdeclare⟩
  rw [tagElement_eq, hdeclare]
  rfl

/-- There it finds the references of the element. -/
theorem tagElement_of_wellFormed (hscope : Agrees scope b) (hstd : scope.Standard) {tag : Name}
    {items : List Item} (hp : (Placed.mk (b.enter items) tag items).WellFormed) :
    ∃ e, tagElement scope tag items = .ok e ∧ Agrees e.scope (b.enter items) ∧
      e.scope.Standard ∧ SoundElement e ∧
        (∀ n, ElementClass e n ↔ (Placed.mk (b.enter items) tag items).RefersToClass n) ∧
          ∀ n, ElementHandler e n ↔ (Placed.mk (b.enter items) tag items).RefersToHandler n := by
  obtain ⟨scope', helement, hscope', hstd'⟩ :=
    tagElement_of_allowed hscope hstd
      (fun i hi => Item.allowed_of_declares (hp.items i hi).declares) tag
  obtain ⟨hfound, hscan⟩ := Attribute.readings_itemsText (size tag.chars) items
  have hattributes : attributeList ⟨tagText tag items, scope'⟩ =
      Attribute.ofItems (size tag.chars) items := by
    rw [attributeList, Element.name, nameOf_tagText, attributeText_tagText, hscan]
  have htag : elementTag ⟨tagText tag items, scope'⟩ = .ok _ :=
    elementTag_of_agrees hp.bound hscope' (nameOf_tagText tag items)
  have handroid := fun l v =>
    exists_isAndroid_iff hscope' hstd' hp.items (size tag.chars) (l := l) (v := v)
  refine ⟨⟨tagText tag items, scope'⟩, helement, hscope', hstd', ⟨?_, ?_, ?_, ?_⟩, fun n => ?_,
    fun n => ?_⟩
  · exact exists_elementTag_iff.1 ⟨_, htag⟩
  · rw [Element.name, nameOf_tagText, attributeText_tagText]
    exact hfound
  · rw [hattributes, Attribute.map_key_ofItems]
    exact hp.distinct
  · intro a ha
    obtain ⟨i, hi, hkey, hvalue⟩ := Attribute.mem_ofItems (hattributes ▸ ha)
    exact soundAttribute_of_wellFormed hscope' hstd' (hp.items i hi) hkey hvalue
  · rw [ElementClass, Placed.RefersToClass, hattributes]
    constructor
    · rintro ⟨_, htag', hroot | ⟨a, ha, l, v, hav, hrest⟩⟩ <;>
        cases Except.ok.inj (htag.symm.trans htag')
      · exact .inl hroot
      · exact .inr ⟨l, v, (handroid l v).1 ⟨a, ha, hav⟩, hrest⟩
    · rintro (hroot | ⟨l, v, hlv, hrest⟩)
      · exact ⟨_, htag, .inl hroot⟩
      · obtain ⟨a, ha, hav⟩ := (handroid l v).2 hlv
        exact ⟨_, htag, .inr ⟨a, ha, l, v, hav, hrest⟩⟩
  · rw [ElementHandler, Placed.RefersToHandler, hattributes]
    constructor
    · rintro ⟨a, ha, v, hav, hrest⟩
      exact ⟨v, (handroid _ v).1 ⟨a, ha, hav⟩, hrest⟩
    · rintro ⟨v, hlv, hrest⟩
      obtain ⟨a, ha, hav⟩ := (handroid _ v).2 hlv
      exact ⟨a, ha, v, hav, hrest⟩

end

/-! ## All elements -/

mutual

/-- A walk over a well-formed tree adds the references of its elements. -/
theorem walk_of_wellFormed (node : Node) {scope : Scope} {b : Bindings} (hscope : Agrees scope b)
    (hstd : scope.Standard) (hnode : ∀ p ∈ elements b node, p.WellFormed) (r : References) :
    ∃ r', walk scope r node = .ok r' ∧
      Adds r r' (fun n => ∃ p ∈ elements b node, p.RefersToClass n)
        fun n => ∃ p ∈ elements b node, p.RefersToHandler n := by
  match node with
  | .text content => exact ⟨r, rfl, (Adds.refl r).congr (by simp [elements]) (by simp [elements])⟩
  | .element tag items short children =>
    rw [elements, List.forall_mem_cons] at hnode
    obtain ⟨e, he, hscope', hstd', hsound, hclass, hhandler⟩ :=
      tagElement_of_wellFormed hscope hstd hnode.1
    obtain ⟨r₁, h₁, hadds₁⟩ := addElement_of_sound hstd' hsound r
    obtain ⟨r₂, h₂, hadds₂⟩ := walkAll_of_wellFormed children hscope' hstd' hnode.2 r₁
    refine ⟨r₂, ?_, (hadds₁.trans hadds₂).congr (fun n => ?_) fun n => ?_⟩
    · rw [walk, he]
      show (addElement r e >>= _) = _
      rw [h₁]
      exact h₂
    · rw [hclass, elements, List.exists_mem_cons_iff]
    · rw [hhandler, elements, List.exists_mem_cons_iff]

theorem walkAll_of_wellFormed (nodes : List Node) {scope : Scope} {b : Bindings}
    (hscope : Agrees scope b) (hstd : scope.Standard)
    (hnodes : ∀ p ∈ elementsAll b nodes, p.WellFormed) (r : References) :
    ∃ r', walkAll scope r nodes = .ok r' ∧
      Adds r r' (fun n => ∃ p ∈ elementsAll b nodes, p.RefersToClass n)
        fun n => ∃ p ∈ elementsAll b nodes, p.RefersToHandler n := by
  match nodes with
  | [] => exact ⟨r, rfl, (Adds.refl r).congr (by simp [elementsAll]) (by simp [elementsAll])⟩
  | node :: nodes =>
    rw [elementsAll, List.forall_mem_append] at hnodes
    obtain ⟨r₁, h₁, hadds₁⟩ := walk_of_wellFormed node hscope hstd hnodes.1 r
    obtain ⟨r₂, h₂, hadds₂⟩ := walkAll_of_wellFormed nodes hscope hstd hnodes.2 r₁
    refine ⟨r₂, ?_, (hadds₁.trans hadds₂).congr (fun n => ?_) fun n => ?_⟩
    · rw [walkAll, h₁]
      exact h₂
    · simp only [elementsAll, List.mem_append, or_and_right, exists_or]
    · simp only [elementsAll, List.mem_append, or_and_right, exists_or]

end

/-- **A well-formed tree that is written down and parsed gives the references of its elements.** -/
theorem parse_render_of_wellFormed (tag : Name) (items : List Item) (short : Bool)
    (children : List Node)
    (h : ∀ p ∈ elements Bindings.initial (.element tag items short children), p.WellFormed) :
    ∃ r, References.parse (Node.element tag items short children).render = .ok r ∧
      (∀ n, n ∈ r.classes ↔
        ∃ p ∈ elements Bindings.initial (.element tag items short children), p.RefersToClass n) ∧
      ∀ n, n ∈ r.handlers ↔
        ∃ p ∈ elements Bindings.initial (.element tag items short children),
          p.RefersToHandler n := by
  obtain ⟨r, hwalk, hadds⟩ :=
    walk_of_wellFormed _ Agrees.initial Scope.standard_initial h References.empty
  exact ⟨r, (parse_render ..).trans hwalk, adds_empty_iff.1 hadds⟩

/-! A prefix that is bound again inside an element has its outer namespace after that element. -/

namespace Shadowed

def label : NamePart := { chars := ['a'] }

def outer : Item := .declaration (some label) "urn:x".toList

def inner : Item := .declaration (some label) androidUri

def className : Item :=
  .ofValue ⟨some label, { chars := "class".toList }⟩ "com.example.Map".toList

def clicked : Item := .ofValue ⟨some label, { chars := "onClick".toList }⟩ "go & stop".toList

def tree : Node :=
  .element ⟨some label, { chars := "Pane".toList }⟩ [outer] false [
    .text "1 < 2".toList,
    .element ⟨none, { chars := "view".toList }⟩ [className, inner, clicked] true [],
    .element ⟨some label, { chars := "Button".toList }⟩ [] false []]

theorem wellFormed : ∀ p ∈ elements Bindings.initial tree, p.WellFormed := by
  simp only [tree, elements, elementsAll, List.nil_append, List.append_nil, List.forall_mem_cons,
    List.cons_append]
  have hlabel : ∀ p, some label = some p → p.chars ≠ xmlLabel ∧ p.chars ≠ xmlnsLabel := by
    rintro _ ⟨⟩
    decide
  refine ⟨⟨?_, ?_, ?_⟩, ⟨?_, ?_, ?_⟩, ⟨?_, ?_, ?_⟩, by simp⟩
  · rintro _ ⟨⟩
    decide
  · rw [List.forall_mem_singleton]
    exact .declaration _ _ _ hlabel (by decide)
  · decide
  · rintro _ ⟨⟩
  · simp only [List.forall_mem_cons]
    refine ⟨.ordinary _ _ rfl ?_, .declaration _ _ _ hlabel (by decide), .ordinary _ _ rfl ?_,
      by simp⟩ <;>
    · rintro _ ⟨⟩
      decide
  · decide
  · rintro _ ⟨⟩
    decide
  · simp
  · decide

end Shadowed

theorem parse_render_shadowed :
    (∀ p ∈ elements Bindings.initial Shadowed.tree, p.WellFormed) ∧
    Shadowed.tree.render =
      "<a:Pane xmlns:a=\"urn:x\">1 &lt; 2<view a:class=\"com.example.Map\"".toList ++
        " xmlns:a=\"http://schemas.android.com/apk/res/android\"".toList ++
          " a:onClick=\"go &amp; stop\"/><a:Button></a:Button></a:Pane>".toList ∧
    ∃ r, References.parse Shadowed.tree.render = .ok r ∧
      "\x7burn:x\x7dButton" ∈ r.classes ∧ "com.example.Map" ∈ r.classes ∧
        "go & stop" ∈ r.handlers := by
  obtain ⟨r, hr, hclasses, hhandlers⟩ := parse_render_of_wellFormed _ _ _ _ Shadowed.wellFormed
  refine ⟨Shadowed.wellFormed, by decide +kernel, r, hr, (hclasses _).2 ?_, (hclasses _).2 ?_,
    (hhandlers _).2 ?_⟩
  · exact ⟨_, .tail _ (.tail _ (.head _)), .inl ⟨by decide, by decide⟩⟩
  · exact ⟨_, .tail _ (.head _), .inr ⟨"class".toList, "com.example.Map".toList,
      ⟨_, _, .head _, rfl, rfl, rfl⟩, .inl ⟨by decide, rfl⟩, by decide, by decide⟩⟩
  · exact ⟨_, .tail _ (.head _), "go & stop".toList,
      ⟨_, _, .tail _ (.tail _ (.head _)), rfl, rfl, rfl⟩, by decide, by decide⟩

end LayoutShell.Layout
