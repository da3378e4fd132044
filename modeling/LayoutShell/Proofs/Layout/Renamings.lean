import LayoutShell.Proofs.Layout.Outcomes
import Mathlib.Logic.Equiv.Basic

/-!
# Prefixes by other names

The prefixes of a tree stand for namespaces and mean nothing by themselves: under other names, with
the declarations changed accordingly, they stand for the same.

* `Renaming` gives each prefix a name of its own; `xml` and `xmlns` keep theirs.
* `Renames` relates the bindings of a tree to those of the renamed tree, and `Renames.enter` keeps
  it true from tag to tag.
* `outcome_rename` compares the work on the two trees and `parse_rename` their texts.
-/

namespace LayoutShell.Markup

open Text

/-! ## Renamings -/

/-- New names for prefixes. -/
structure Renaming where
  toFun : NamePart → NamePart
  injective : Function.Injective toFun
  /-- The prefixes `xml` and `xmlns` keep their names. -/
  keeps : ∀ p : NamePart, p.chars = xmlLabel ∨ p.chars = xmlnsLabel → toFun p = p

namespace Renaming

/-- Two prefixes change places. -/
def swap (p q : NamePart) (hp : p.chars ≠ xmlLabel ∧ p.chars ≠ xmlnsLabel)
    (hq : q.chars ≠ xmlLabel ∧ q.chars ≠ xmlnsLabel) : Renaming where
  toFun := Equiv.swap p q
  injective := (Equiv.swap p q).injective
  keeps := by
    intro s hs
    refine Equiv.swap_apply_of_ne_of_ne ?_ ?_
    · rintro rfl
      exact hs.elim hp.1 hp.2
    · rintro rfl
      exact hs.elim hq.1 hq.2

/-- The new name of an element: its prefix is renamed. -/
def tag (ρ : Renaming) (n : Name) : Name := ⟨n.label.map ρ.toFun, n.localPart⟩

/-- The new name of an item: its prefix is renamed, and so is the prefix that it declares. -/
def key (ρ : Renaming) (n : Name) : Name :=
  ⟨n.label.map ρ.toFun,
    if n.label.map NamePart.chars = some xmlnsLabel then ρ.toFun n.localPart else n.localPart⟩

def item (ρ : Renaming) (i : Item) : Item := { i with name := ρ.key i.name }

mutual

/-- The tree with its prefixes renamed. -/
def node (ρ : Renaming) : Node → Node
  | .text content => .text content
  | .element tag items short children =>
    .element (ρ.tag tag) (items.map ρ.item) short (ρ.nodes children)

def nodes (ρ : Renaming) : List Node → List Node
  | [] => []
  | node :: nodes => ρ.node node :: ρ.nodes nodes

end

/-- The new name of a prefix that is given by its text. A text that cannot be a prefix stays. -/
def label (ρ : Renaming) (s : List Char) : List Char :=
  if h : s ≠ [] ∧ s.all isNameChar = true then
    (ρ.toFun ⟨s, h.1, List.all_eq_true.1 h.2⟩).chars
  else s

variable (ρ : Renaming)

theorem label_chars (p : NamePart) : ρ.label p.chars = (ρ.toFun p).chars :=
  dif_pos ⟨p.ne_nil, List.all_eq_true.2 p.plain⟩

theorem label_cases (s : List Char) :
    (∃ p : NamePart, p.chars = s) ∨ ρ.label s = s ∧ ∀ p : NamePart, p.chars ≠ s := by
  by_cases h : s ≠ [] ∧ s.all isNameChar = true
  · exact .inl ⟨⟨s, h.1, List.all_eq_true.1 h.2⟩, rfl⟩
  · refine .inr ⟨dif_neg h, ?_⟩
    rintro p rfl
    exact h ⟨p.ne_nil, List.all_eq_true.2 p.plain⟩

@[simp]
theorem label_nil : ρ.label [] = [] := dif_neg fun h => h.1 rfl

@[simp]
theorem label_xml : ρ.label xmlLabel = xmlLabel :=
  (ρ.label_chars { chars := xmlLabel }).trans (congrArg NamePart.chars (ρ.keeps _ (.inl rfl)))

@[simp]
theorem label_xmlns : ρ.label xmlnsLabel = xmlnsLabel :=
  (ρ.label_chars { chars := xmlnsLabel }).trans (congrArg NamePart.chars (ρ.keeps _ (.inr rfl)))

theorem label_injective : Function.Injective ρ.label := by
  intro s t h
  rcases ρ.label_cases s with ⟨p, rfl⟩ | ⟨hs, hp⟩ <;>
    rcases ρ.label_cases t with ⟨q, rfl⟩ | ⟨ht, hq⟩
  · rw [label_chars, label_chars] at h
    rw [ρ.injective (NamePart.chars_injective h)]
  · rw [label_chars, ht] at h
    exact absurd h (hq _)
  · rw [label_chars, hs] at h
    exact absurd h.symm (hp _)
  · rwa [hs, ht] at h

@[simp]
theorem label_eq_nil_iff {s : List Char} : ρ.label s = [] ↔ s = [] :=
  ρ.label_injective.eq_iff' ρ.label_nil

@[simp]
theorem label_eq_xml_iff {s : List Char} : ρ.label s = xmlLabel ↔ s = xmlLabel :=
  ρ.label_injective.eq_iff' ρ.label_xml

@[simp]
theorem label_eq_xmlns_iff {s : List Char} : ρ.label s = xmlnsLabel ↔ s = xmlnsLabel :=
  ρ.label_injective.eq_iff' ρ.label_xmlns

/-! ## Items -/

theorem key_injective : Function.Injective ρ.key := by
  intro n m h
  obtain ⟨hlabel, hlocal⟩ := Name.mk.inj h
  have hlabel := Option.map_injective ρ.injective hlabel
  rw [hlabel] at hlocal
  refine congrArg₂ Name.mk hlabel ?_
  split at hlocal
  · exact ρ.injective hlocal
  · exact hlocal

/-- A renamed item declares the new name of a prefix. -/
theorem declared?_item (i : Item) : (ρ.item i).declared? = i.declared?.map ρ.label := by
  unfold Item.declared? item key
  cases i.name.label with
  | none =>
    simp only [Option.map_none, reduceCtorEq, if_false]
    split
    · rw [Option.map_some, label_nil]
    · rfl
  | some p =>
    simp only [Option.map_some, Option.some.injEq, ← label_chars, label_eq_xmlns_iff]
    split
    · rw [Option.map_some, label_chars]
    · rfl

theorem allowed_item (i : Item) : (ρ.item i).Allowed ↔ i.Allowed := by
  unfold Item.Allowed
  rw [declared?_item]
  cases i.declared? with
  | none => simp
  | some s => simp [item]

end Renaming

/-! ## Bindings -/

/-- The second bindings say about the new names what the first say about the old ones. -/
def Renames (ρ : Renaming) (b b' : Bindings) : Prop := ∀ s, b' (ρ.label s) = b s

namespace Renames

variable {ρ : Renaming}

theorem initial : Renames ρ Bindings.initial Bindings.initial := by
  intro s
  simp only [Bindings.initial, Renaming.label_eq_xml_iff, Renaming.label_eq_xmlns_iff]

theorem add {b b' : Bindings} (h : Renames ρ b b') (i : Item) :
    Renames ρ (b.add i) (b'.add (ρ.item i)) := by
  intro s
  have hdeclared : (ρ.item i).declared? = some (ρ.label s) ↔ i.declared? = some s := by
    rw [ρ.declared?_item, ← Option.map_some, (Option.map_injective ρ.label_injective).eq_iff]
  simp only [Bindings.add, hdeclared, h s]
  rfl

/-- From tag to tag. -/
theorem enter {b b' : Bindings} (h : Renames ρ b b') (items : List Item) :
    Renames ρ (b.enter items) (b'.enter (items.map ρ.item)) := by
  induction items generalizing b b' with
  | nil => exact h
  | cons i items ih => exact ih (h.add i)

end Renames

end LayoutShell.Markup

namespace LayoutShell.Layout

open Markup Text LayoutError

/-- A kind of error in a renamed tree. -/
def LayoutError.Kind.rename (ρ : Renaming) : Kind → Kind
  | .unboundLabel label => .unboundLabel (ρ.label label)
  | k => k

variable {ρ : Renaming} {b b' : Bindings}

/-! ## Work on a renamed tree -/

theorem addItem_rename (h : Renames ρ b b') (tag : List Char) (r : References) (i : Item) :
    addItem b' tag r (ρ.item i) = (addItem b tag r i).mapError (Kind.rename ρ) := by
  have hname : (ρ.item i).name.label = i.name.label.map ρ.toFun := rfl
  rw [addItem, addItem, hname]
  cases hlabel : i.name.label with
  | none => rfl
  | some p =>
    simp only [Option.map_some, ← ρ.label_chars, ρ.label_eq_xml_iff, ρ.label_eq_xmlns_iff,
      h p.chars]
    split
    · rfl
    · next hmarkup =>
      rw [not_or] at hmarkup
      split
      · rfl
      · split
        · -- only a declaration gets another local part
          have hlocal : (ρ.item i).name.localPart = i.name.localPart :=
            if_neg (by simpa [hlabel] using hmarkup.2)
          rw [hlocal, mapError_bind]
          show ((Entity.expand i.raw).mapError _ >>= _) = _
          cases Entity.expand i.raw <;> rfl
        · rfl

theorem addItems_rename (h : Renames ρ b b') (tag : List Char) (items : List Item)
    (seen : List Name) (r : References) :
    addItems b' tag (seen.map ρ.key) r (items.map ρ.item) =
      (addItems b tag seen r items).mapError (Kind.rename ρ) := by
  induction items generalizing seen r with
  | nil => rfl
  | cons i items ih =>
    have hseen : (ρ.item i).name ∈ seen.map ρ.key ↔ i.name ∈ seen :=
      List.mem_map_of_injective ρ.key_injective
    rw [List.map_cons, addItems, addItems, addItem_rename h]
    by_cases hold : i.name ∈ seen
    · rw [if_pos hold, if_pos (hseen.2 hold)]
      rfl
    · rw [if_neg hold, if_neg (hseen.not.2 hold), mapError_bind]
      exact bind_congr fun r => ih (i.name :: seen) r

theorem tagName_rename (h : Renames ρ b b') (tag : Name) (items items' : List Item) :
    (Placed.mk b' (ρ.tag tag) items').tagName =
      (Placed.mk b tag items).tagName.mapError (Kind.rename ρ) := by
  have hnil : b' [] = b [] := by rw [← h [], ρ.label_nil]
  have hlabel : (ρ.tag tag).label = tag.label.map ρ.toFun := rfl
  have huri : (Placed.mk b' (ρ.tag tag) items').uri = (Placed.mk b tag items).uri := by
    rw [Placed.uri, Placed.uri, hlabel]
    cases tag.label with
    | none => exact hnil
    | some p => exact (congrArg b' (ρ.label_chars p)).symm.trans (h p.chars)
  have hname : (Placed.mk b' (ρ.tag tag) items').recordedName =
      (Placed.mk b tag items).recordedName := by
    rw [Placed.recordedName, Placed.recordedName, huri]
    rfl
  rw [Placed.tagName, Placed.tagName, hname, hlabel]
  cases tag.label with
  | none => rfl
  | some p =>
    simp only [Option.map_some, ← ρ.label_chars, h p.chars]
    split <;> rfl

theorem addTo_rename (h : Renames ρ b b') (tag : Name) (items : List Item) (r : References) :
    (Placed.mk b' (ρ.tag tag) (items.map ρ.item)).addTo r =
      ((Placed.mk b tag items).addTo r).mapError (Kind.rename ρ) := by
  rw [Placed.addTo, Placed.addTo, mapError_bind, tagName_rename h tag items]
  exact bind_congr fun name => addItems_rename h name items [] _

mutual

theorem outcome_rename {b b' : Bindings} (h : Renames ρ b b') (node : Node) (r : References) :
    outcome b' r (ρ.node node) = (outcome b r node).mapError (Kind.rename ρ) := by
  match node with
  | .text content => rfl
  | .element tag items short children =>
    have hitems : (∀ i ∈ items.map ρ.item, i.Allowed) ↔ ∀ i ∈ items, i.Allowed := by
      simp only [List.forall_mem_map, ρ.allowed_item]
    rw [Renaming.node, outcome, outcome]
    by_cases hallowed : ∀ i ∈ items, i.Allowed
    · rw [if_pos hallowed, if_pos (hitems.2 hallowed), mapError_bind,
        addTo_rename (h.enter items)]
      exact bind_congr fun r => outcomeAll_rename (h.enter items) children r
    · rw [if_neg hallowed, if_neg (hitems.not.2 hallowed)]
      rfl

theorem outcomeAll_rename {b b' : Bindings} (h : Renames ρ b b') (nodes : List Node)
    (r : References) :
    outcomeAll b' r (ρ.nodes nodes) = (outcomeAll b r nodes).mapError (Kind.rename ρ) := by
  match nodes with
  | [] => rfl
  | node :: nodes =>
    rw [Renaming.nodes, outcomeAll, outcomeAll, mapError_bind, outcome_rename h]
    exact bind_congr fun r => outcomeAll_rename h nodes r

end

/-- **A renamed tree has the same references, or is refused for the same kind of reason, in which a
prefix goes by its new name.** -/
theorem parse_rename (ρ : Renaming) (tag : Name) (items : List Item) (short : Bool)
    (children : List Node) :
    (References.parse (ρ.node (.element tag items short children)).render).mapError kind =
      ((References.parse (Node.element tag items short children).render).mapError kind).mapError
        (Kind.rename ρ) := by
  rw [parse_outcome, ← outcome_rename .initial, Renaming.node, parse_outcome]

example :
    ((Renaming.swap { chars := "p".toList } { chars := "q".toList } (by decide) (by decide)).node
      (.element ⟨some { chars := "p".toList }, { chars := "Row".toList }⟩
        [.declaration (some { chars := "p".toList }) "urn:p".toList,
          .ofValue ⟨some { chars := "q".toList }, { chars := "p".toList }⟩ "1".toList]
        true [])).render =
      "<q:Row xmlns:q=\"urn:p\" p:p=\"1\"/>".toList := by
  decide

end LayoutShell.Layout
