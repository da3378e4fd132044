import LayoutShell.Proofs.Layout.Outcomes

/-!
# Items that change nothing

A layout is read for the attributes of the android namespace. Any other item that declares nothing
can be inserted into a tag, whatever its value, as long as its prefix is bound.

* `Inert` says this of an item in the bindings of its tag.
* `Inserted` relates a tree to the same tree with one more item somewhere in it.
* `outcome_of_inserted` compares the work on the two trees and `parse_of_inserted` their texts.
* `not_inert_declaration`: a declaration can decide whether a layout is accepted.
-/

namespace LayoutShell.Layout

open Markup Text LayoutError

/-! ## Inert items -/

/-- The item belongs to no namespace or to one that a layout is not read for. -/
def Foreign (b : Bindings) (i : Item) : Prop :=
  ∀ label, i.name.label = some label →
    label.chars = xmlLabel ∨ b label.chars ≠ [] ∧ b label.chars ≠ androidUri

/-- The item is foreign and declares nothing. -/
structure Inert (b : Bindings) (i : Item) : Prop where
  undeclared : i.declared? = none
  foreign : Foreign b i

/-- The second tree is the first one, which stands in the given bindings, with an inert item of a
new name inserted into one of its tags. -/
inductive Inserted (i : Item) : Bindings → Node → Node → Prop
  | here {b : Bindings} (tag : Name) (before after : List Item) (short : Bool)
      (children : List Node) (new : ∀ j ∈ before ++ after, j.name ≠ i.name)
      (inert : Inert (b.enter (before ++ after)) i) :
      Inserted i b (.element tag (before ++ after) short children)
        (.element tag (before ++ i :: after) short children)
  | inside {b : Bindings} (tag : Name) {items : List Item} (short : Bool)
      (before after : List Node) {node node' : Node} (h : Inserted i (b.enter items) node node') :
      Inserted i b (.element tag items short (before ++ node :: after))
        (.element tag items short (before ++ node' :: after))

variable {b : Bindings} {i : Item}

/-! ## One tag -/

theorem add_of_undeclared (h : i.declared? = none) (b : Bindings) : b.add i = b := by
  funext label
  rw [Bindings.add, h, if_neg (by simp)]

theorem enter_insert (h : i.declared? = none) (b : Bindings) (before after : List Item) :
    b.enter (before ++ i :: after) = b.enter (before ++ after) := by
  rw [Bindings.enter, Bindings.enter, List.foldl_append, List.foldl_append, List.foldl_cons,
    add_of_undeclared h]

theorem allowed_insert (h : i.declared? = none) (before after : List Item) :
    (∀ j ∈ before ++ i :: after, j.Allowed) ↔ ∀ j ∈ before ++ after, j.Allowed := by
  have hi : i.Allowed := Item.allowed_of_declares (.inl h)
  rw [List.forall_mem_append, List.forall_mem_append, List.forall_mem_cons, and_iff_right hi]

theorem Inert.addItem (h : Inert b i) (tag : List Char) (r : References) :
    addItem b tag r i = .ok r := by
  rw [Layout.addItem]
  cases hlabel : i.name.label with
  | none => rfl
  | some label =>
    dsimp only
    rcases h.foreign label hlabel with hxml | ⟨hbound, huri⟩
    · rw [if_pos (.inl hxml)]
    · rw [if_neg hbound, if_neg huri, ite_self]

theorem Inert.addItems (h : Inert b i) (tag : List Char) {before after : List Item}
    (hnew : ∀ j ∈ before ++ after, j.name ≠ i.name) {seen : List Name} (hseen : i.name ∉ seen)
    (r : References) :
    addItems b tag seen r (before ++ i :: after) = addItems b tag seen r (before ++ after) := by
  induction before generalizing seen r with
  | nil =>
    rw [List.nil_append, List.nil_append, Layout.addItems, if_neg hseen, h.addItem]
    refine addItems_congr b tag (fun j hj => ?_) r
    rw [List.mem_cons, or_iff_right (hnew j hj)]
  | cons j before ih =>
    rw [List.cons_append, List.forall_mem_cons] at hnew
    rw [List.cons_append, List.cons_append, Layout.addItems, Layout.addItems]
    split
    · rfl
    · refine bind_congr fun r => ih hnew.2 ?_ r
      rw [List.mem_cons, not_or]
      exact ⟨hnew.1.symm, hseen⟩

/-! ## Trees -/

theorem outcomeAll_append (b : Bindings) (r : References) (nodes nodes' : List Node) :
    outcomeAll b r (nodes ++ nodes') =
      (outcomeAll b r nodes >>= fun r => outcomeAll b r nodes') := by
  induction nodes generalizing r with
  | nil => rfl
  | cons node nodes ih =>
    rw [List.cons_append, outcomeAll, outcomeAll, bind_assoc]
    exact bind_congr fun r => ih r

theorem outcome_of_inserted {node node' : Node} (h : Inserted i b node node') (r : References) :
    outcome b r node' = outcome b r node := by
  induction h generalizing r with
  | @here b tag before after short children new inert =>
    have hadd : (Placed.mk (b.enter (before ++ after)) tag (before ++ i :: after)).addTo r =
        (Placed.mk (b.enter (before ++ after)) tag (before ++ after)).addTo r :=
      bind_congr fun name => inert.addItems name new (by simp) _
    rw [outcome, outcome, enter_insert inert.undeclared, hadd]
    simp only [allowed_insert inert.undeclared]
  | @inside b tag items short before after node node' h ih =>
    have hchildren : ∀ r, outcomeAll (b.enter items) r (before ++ node' :: after) =
        outcomeAll (b.enter items) r (before ++ node :: after) := fun r => by
      rw [outcomeAll_append, outcomeAll_append]
      refine bind_congr fun r => ?_
      rw [outcomeAll, outcomeAll, ih]
    rw [outcome, outcome]
    split
    · exact bind_congr hchildren
    · rfl

/-- **An inert item changes neither the references of a layout nor the kind of reason for which it
is refused.** -/
theorem parse_of_inserted {node node' : Node} (h : Inserted i Bindings.initial node node') :
    (References.parse node'.render).mapError kind =
      (References.parse node.render).mapError kind := by
  have houtcome := outcome_of_inserted h References.empty
  cases h <;> rwa [parse_outcome, parse_outcome]

/-! A value may hold what would end a tag or break an entity elsewhere. -/

namespace Hinted

def label : NamePart := { chars := "t".toList }

def foreign : Item := .declaration (some label) "urn:t".toList

def hint : Item := ⟨⟨some label, { chars := "hint".toList }⟩, "</Field> &none; &".toList, by decide⟩

def shade : Item := .ofValue ⟨some label, { chars := "shade".toList }⟩ "dark".toList

/-- The tree with the given items in its inner tag. -/
def tree (items : List Item) : Node :=
  .element ⟨none, { chars := "Group".toList }⟩ [foreign] false [
    .text "1 < 2".toList, .element ⟨none, { chars := "Field".toList }⟩ items true []]

theorem inserted : Inserted hint Bindings.initial (tree [shade]) (tree [hint, shade]) := by
  refine .inside _ false [.text _] [] (.here _ [] [shade] true [] ?_ ?_)
  · decide
  · refine ⟨by decide, ?_⟩
    rintro _ ⟨⟩
    exact .inr ⟨by decide, by decide⟩

end Hinted

theorem parse_of_inserted_hinted :
    Inserted Hinted.hint Bindings.initial (Hinted.tree [Hinted.shade])
      (Hinted.tree [Hinted.hint, Hinted.shade]) ∧
    (Hinted.tree [Hinted.hint, Hinted.shade]).render =
      "<Group xmlns:t=\"urn:t\">1 &lt; 2".toList ++
        "<Field t:hint=\"</Field> &none; &\" t:shade=\"dark\"/></Group>".toList ∧
    (References.parse (Hinted.tree [Hinted.hint, Hinted.shade]).render).mapError kind =
      (References.parse (Hinted.tree [Hinted.shade]).render).mapError kind :=
  ⟨Hinted.inserted, by decide, parse_of_inserted Hinted.inserted⟩

/-! A declaration is foreign too, since `xmlns` is bound, but it is not inert. -/

namespace Declared

def label : NamePart := { chars := "a".toList }

def declaration : Item := .declaration (some label) "u".toList

/-- An element with a prefix, and the given items in its tag. -/
def tree (items : List Item) : Node :=
  .element ⟨some label, { chars := "b".toList }⟩ items true []

end Declared

theorem not_inert_declaration :
    Foreign (Bindings.initial.enter []) Declared.declaration ∧
    (Declared.tree [Declared.declaration]).render = "<a:b xmlns:a=\"u\"/>".toList ∧
    References.parse (Declared.tree []).render = .error (.unboundLabel "a".toList) ∧
    ∃ r, References.parse (Declared.tree [Declared.declaration]).render = .ok r ∧
      "\x7bu\x7db" ∈ r.classes := by
  have hforeign : Foreign (Bindings.initial.enter []) Declared.declaration := by
    rintro _ ⟨⟩
    exact .inr ⟨by decide, by decide⟩
  have hrefused : walk Scope.initial References.empty (Declared.tree []) =
      .error (.unboundLabel "a".toList) := by
    decide +kernel
  have haccepted : walk Scope.initial References.empty (Declared.tree [Declared.declaration]) =
      .ok ⟨⟨["\x7bu\x7db"], by decide⟩, ∅⟩ := by
    decide +kernel
  exact ⟨hforeign, by decide, (parse_render _ _ _ _).trans hrefused, _,
    (parse_render _ _ _ _).trans haccepted, by decide⟩

end LayoutShell.Layout
