import LayoutShell.Proofs.Layout.Trees

/-!
# What becomes of a tree

A tree that is written down and parsed gives references, or is refused for a reason of some kind.
Both can be said on the tree, also where prefixes are not bound, keys are repeated or values cannot
be expanded.

* `LayoutError.kind` forgets the place of an error and what is written there.
* `addItem` and `Placed.addTo` are the work at one item and at one element of a tree.
* `outcome` is the work on a tree, and `parse_outcome` says that parsing its text comes to the same.
-/

namespace LayoutShell.Layout

open Markup Text

/-! ## Kinds of errors -/

namespace LayoutError

/-- The kinds of reasons why a document is no layout. -/
inductive Kind
  | noRoot
  | unclosed
  | secondRoot
  | textOutsideRoot
  | unboundLabel (label : List Char)
  /-- The document is not sound as markup. -/
  | markup
  deriving DecidableEq

def kind : LayoutError → Kind
  | noRoot => .noRoot
  | unclosed => .unclosed
  | secondRoot => .secondRoot
  | textOutsideRoot => .textOutsideRoot
  | unboundLabel label => .unboundLabel label
  | unreadable _ | badAttribute _ | badEntity _ => .markup

end LayoutError

open LayoutError

/-! ## Work on a tree -/

/-- Adds what an item refers to on an element recorded as `tag`. -/
def addItem (b : Bindings) (tag : List Char) (r : References) (i : Item) :
    Except Kind References :=
  match i.name.label with
  | none => .ok r
  | some label =>
    if label.chars = xmlLabel ∨ label.chars = xmlnsLabel then .ok r
    else if b label.chars = [] then .error (.unboundLabel label.chars)
    else if b label.chars = androidUri then do
      let value ← (Entity.expand i.raw).mapError fun _ => .markup
      return addReference tag i.name.localPart.chars value r
    else .ok r

/-- Adds what items in a row refer to; none may have a name that was `seen` before. -/
def addItems (b : Bindings) (tag : List Char) (seen : List Name) (r : References) :
    List Item → Except Kind References
  | [] => .ok r
  | i :: items =>
    if i.name ∈ seen then .error .markup
    else do addItems b tag (i.name :: seen) (← addItem b tag r i) items

namespace Placed

/-- The name under which the element is recorded, if its prefix is bound. -/
def tagName (e : Placed) : Except Kind (List Char) :=
  match e.tag.label with
  | none => .ok e.recordedName
  | some label =>
    if e.bindings label.chars = [] then .error (.unboundLabel label.chars) else .ok e.recordedName

/-- Adds what the element refers to. -/
def addTo (e : Placed) (r : References) : Except Kind References := do
  let tag ← e.tagName
  addItems e.bindings tag [] (if structuralTags.contains tag then r else r.addClass tag) e.items

end Placed

mutual

/-- What becomes of a tree that stands in the given bindings. -/
def outcome (b : Bindings) (r : References) : Node → Except Kind References
  | .text _ => .ok r
  | .element tag items _ children =>
    if ∀ i ∈ items, i.Allowed then do
      outcomeAll (b.enter items) (← (Placed.mk (b.enter items) tag items).addTo r) children
    else .error .markup

/-- What becomes of trees in a row. -/
def outcomeAll (b : Bindings) (r : References) : List Node → Except Kind References
  | [] => .ok r
  | node :: nodes => do outcomeAll b (← outcome b r node) nodes

end

/-! ## Items -/

/-- The names seen before matter only as far as they occur again. -/
theorem addItems_congr (b : Bindings) (tag : List Char) {items : List Item} {seen seen' : List Name}
    (h : ∀ i ∈ items, i.name ∈ seen ↔ i.name ∈ seen') (r : References) :
    addItems b tag seen r items = addItems b tag seen' r items := by
  induction items generalizing seen seen' r with
  | nil => rfl
  | cons i items ih =>
    rw [List.forall_mem_cons] at h
    rw [addItems, addItems]
    simp only [h.1]
    split
    · rfl
    · refine bind_congr fun r => ih (fun j hj => ?_) r
      rw [List.mem_cons, List.mem_cons, h.2 j hj]

theorem isReserved_chars (n : Name) :
    isReserved n.chars = true ↔
      n.label = none ∧ n.localPart.chars = xmlnsLabel ∨
        ∃ label, n.label = some label ∧ (label.chars = xmlLabel ∨ label.chars = xmlnsLabel) := by
  have hkey := n.chars_eq_iff (w := xmlnsLabel) (forall_mem_of_all (by decide))
  have hxmlns := n.isPrefixOf_chars (w := xmlnsLabel) (forall_mem_of_all (by decide))
  have hxml := n.isPrefixOf_chars (w := xmlLabel) (forall_mem_of_all (by decide))
  rw [show xmlnsLabel ++ [':'] = "xmlns:".toList from rfl] at hxmlns
  rw [show xmlLabel ++ [':'] = "xml:".toList from rfl] at hxml
  rw [isReserved, Bool.or_eq_true, Bool.or_eq_true, decide_eq_true_eq, hkey, hxmlns, hxml]
  cases n.label <;> simp [or_comm]

section

variable {scope : Scope} {b : Bindings}

theorem addAttribute_kind (h : Agrees scope b) (tag : List Char) (r : References) {i : Item}
    {a : Attribute} (hkey : a.key = i.name.chars) (hvalue : a.value = i.raw) :
    (addAttribute scope tag r a).mapError kind = addItem b tag r i := by
  rw [addAttribute, addItem, hkey, hvalue]
  cases hlabel : i.name.label with
  | none =>
    rw [resolveAttribute_of_none scope hlabel]
    dsimp only
    split <;> rfl
  | some label =>
    have hreserved := isReserved_chars i.name
    simp only [hlabel, reduceCtorEq, false_and, false_or, Option.some.injEq,
      exists_eq_left'] at hreserved
    dsimp only
    by_cases hmarkup : label.chars = xmlLabel ∨ label.chars = xmlnsLabel
    · rw [if_pos (hreserved.2 hmarkup), if_pos hmarkup]
      rfl
    · rw [if_neg (fun h => hmarkup (hreserved.1 h)), if_neg hmarkup]
      by_cases hb : b label.chars = []
      · rw [h.resolveAttribute_of_unbound hlabel hb, if_pos hb]
        rfl
      · rw [h.resolveAttribute_of_some hlabel hb, if_neg hb]
        dsimp only
        split
        · cases Entity.expand i.raw <;> rfl
        · rfl

theorem addAttributes_kind (h : Agrees scope b) (tag : List Char) (items : List Item) (place : Nat)
    {seen : List (List Char × Nat)} {names : List Name}
    (hseen : seen.map Prod.fst = names.map Name.chars) (r : References) :
    (addAttributes scope tag r
      (Attribute.distinctFrom seen (Attribute.readings place (itemsText items)))).mapError kind =
        addItems b tag names r items := by
  induction items generalizing place seen names r with
  | nil =>
    rw [itemsText, List.flatMap_nil, Attribute.readings_of_done rfl]
    rfl
  | cons i items ih =>
    rw [itemsText, List.flatMap_cons, Attribute.readings_of_read (Attribute.read_item place i _),
      ← itemsText, addItems, Attribute.distinctFrom]
    have hmem : i.name ∈ names ↔ ∃ p ∈ seen, p.1 = i.name.chars := by
      rw [← List.mem_map_of_injective Name.chars_injective, ← hseen, List.mem_map]
    cases hlookup : seen.lookup (Attribute.ofItem place i).key with
    | some previous =>
      have hold : i.name ∈ names := by
        by_contra hnew
        have : seen.lookup i.name.chars = none := List.lookup_eq_none_iff.2 fun p hp => by
          simpa using fun h : i.name.chars = p.1 => hnew (hmem.2 ⟨p, hp, h.symm⟩)
        rw [show seen.lookup i.name.chars = some previous from hlookup] at this
        cases this
      rw [if_pos hold]
      rfl
    | none =>
      have hnew : i.name ∉ names := fun h => by
        obtain ⟨p, hp, hname⟩ := hmem.1 h
        simpa [Attribute.ofItem, hname] using List.lookup_eq_none_iff.1 hlookup p hp
      rw [if_neg hnew, addAttributes, mapError_bind, addAttribute_kind h tag r rfl rfl]
      refine bind_congr fun r => ih _ ?_ r
      rw [List.map_cons, List.map_cons, hseen]
      rfl

/-! ## Elements -/

theorem elementTag_kind {p : Placed} {e : Element} (hscope : Agrees e.scope p.bindings)
    (hname : e.name = p.tag.chars) : (elementTag e).mapError kind = p.tagName := by
  have hbound : (∀ l, p.tag.label = some l → p.bindings l.chars ≠ []) →
      (elementTag e).mapError kind = .ok p.recordedName := fun h => by
    rw [elementTag_of_agrees h hscope hname]
    rfl
  rw [Placed.tagName]
  cases hlabel : p.tag.label with
  | none => exact hbound fun l hl => by simp [hlabel] at hl
  | some label =>
    dsimp only
    split
    · next hb =>
      rw [elementTag, hname, hscope.resolveElement_of_unbound hlabel hb]
      rfl
    · next hb =>
      exact hbound fun l hl => by
        rw [hlabel] at hl
        exact Option.some.inj hl ▸ hb

/-- The work at an element of a tree. -/
theorem addElement_kind {tag : Name} {items : List Item} (hscope : Agrees scope b)
    (r : References) :
    (addElement r ⟨tagText tag items, scope⟩).mapError kind = (Placed.mk b tag items).addTo r := by
  have htag := elementTag_kind (p := ⟨b, tag, items⟩) (e := ⟨tagText tag items, scope⟩) hscope
    (nameOf_tagText tag items)
  rw [addElement, Placed.addTo, mapError_bind, htag]
  refine bind_congr fun name => ?_
  rw [Element.attributes, Element.name, nameOf_tagText, attributeText_tagText]
  simp only [List.contains_iff_mem]
  exact addAttributes_kind hscope name items _ rfl _

/-! ## Trees -/

theorem tagElement_of_not_allowed (scope : Scope) {items : List Item}
    (hitems : ¬∀ i ∈ items, i.Allowed) (tag : Name) :
    (tagElement scope tag items).mapError kind = .error .markup := by
  obtain ⟨e, he⟩ := scope.declare_of_not_allowed (size tag.chars) hitems
  rw [tagElement_eq, he]
  rfl

end

mutual

theorem walk_kind (node : Node) {scope : Scope} {b : Bindings} (hscope : Agrees scope b)
    (hstd : scope.Standard) (r : References) :
    (walk scope r node).mapError kind = outcome b r node := by
  match node with
  | .text content => rfl
  | .element tag items short children =>
    rw [walk, outcome, mapError_bind]
    by_cases hitems : ∀ i ∈ items, i.Allowed
    · obtain ⟨inner, he, hinner, hstd'⟩ := tagElement_of_allowed hscope hstd hitems tag
      rw [if_pos hitems, he, ← addElement_kind hinner]
      show (addElement r ⟨tagText tag items, inner⟩ >>= fun r =>
        walkAll inner r children).mapError kind = _
      rw [mapError_bind]
      exact bind_congr fun r => walkAll_kind children hinner hstd' r
    · rw [if_neg hitems, tagElement_of_not_allowed scope hitems tag]
      rfl

theorem walkAll_kind (nodes : List Node) {scope : Scope} {b : Bindings} (hscope : Agrees scope b)
    (hstd : scope.Standard) (r : References) :
    (walkAll scope r nodes).mapError kind = outcomeAll b r nodes := by
  match nodes with
  | [] => rfl
  | node :: nodes =>
    rw [walkAll, outcomeAll, mapError_bind, walk_kind node hscope hstd r]
    exact bind_congr fun r => walkAll_kind nodes hscope hstd r

end

/-- **Parsing the text of a tree comes to the same as the work on the tree.** -/
theorem parse_outcome (tag : Name) (items : List Item) (short : Bool) (children : List Node) :
    (References.parse (Node.element tag items short children).render).mapError kind =
      outcome Bindings.initial References.empty (.element tag items short children) := by
  rw [parse_render]
  exact walk_kind _ Agrees.initial Scope.standard_initial _

end LayoutShell.Layout
