import LayoutShell.Proofs.Layout.Outcomes

/-!
# Items in another order

The items of a tag can stand in any order, and a declaration also after the names that use it.

* `Reordered` relates a tree to the same tree with the items of its tags in another order.
* `enter_of_perm`: the declarations of a tag bind the same prefixes in any order.
* `addItems_of_perm`: so do its attributes add the same references.
* `outcome_of_reordered` compares the work on the two trees and `parse_of_reordered` their texts.
-/

namespace LayoutShell.Markup

/-! ## Declarations -/

/-- The name of a declaration says which prefix it declares. -/
theorem Item.chars_of_declared {i : Item} {label : List Char} (h : i.declared? = some label) :
    i.name.chars = if label = [] then xmlnsLabel else xmlnsLabel ++ ':' :: label := by
  rw [Item.declared?] at h
  cases hlabel : i.name.label with
  | none =>
    rw [hlabel] at h
    obtain ⟨hlocal, h⟩ := Option.ite_none_right_eq_some.1 h
    obtain rfl := Option.some.inj h
    rw [if_pos rfl, Name.chars_of_none hlabel, hlocal]
  | some p =>
    rw [hlabel] at h
    obtain ⟨hp, h⟩ := Option.ite_none_right_eq_some.1 h
    obtain rfl := Option.some.inj h
    rw [if_neg i.name.localPart.ne_nil, Name.chars_of_some hlabel, hp]

theorem Item.name_eq_of_declared {i j : Item} {label : List Char} (hi : i.declared? = some label)
    (hj : j.declared? = some label) : i.name = j.name :=
  Name.chars_injective ((chars_of_declared hi).trans (chars_of_declared hj).symm)

namespace Bindings

theorem add_comm (b : Bindings) {i j : Item} (h : i.name ≠ j.name) :
    (b.add i).add j = (b.add j).add i := by
  funext label
  simp only [add]
  split
  · next hj => rw [if_neg fun hi => h (Item.name_eq_of_declared hi hj)]
  · rfl

/-- In another order, items of different names bind the same prefixes. -/
theorem enter_of_perm {items items' : List Item} (h : items.Perm items')
    (hnodup : (items.map (·.name)).Nodup) (b : Bindings) : b.enter items = b.enter items' := by
  refine h.foldl_eq' (fun i hi j hj b => ?_) b
  by_cases hij : i = j
  · rw [hij]
  · exact b.add_comm fun hname => hij (List.inj_on_of_nodup_map hnodup hi hj hname)

end Bindings

end LayoutShell.Markup

namespace LayoutShell.Layout

open Markup Text LayoutError References

/-! ## Trees -/

mutual

/-- The second tree is the first one with the items of its tags in another order. -/
inductive Reordered : Node → Node → Prop
  | text (content : List Char) : Reordered (.text content) (.text content)
  | element (tag : Name) {items items' : List Item} (short : Bool) {children children' : List Node}
      (perm : items.Perm items') (inside : ReorderedAll children children') :
      Reordered (.element tag items short children) (.element tag items' short children')

/-- The same for trees in a row. -/
inductive ReorderedAll : List Node → List Node → Prop
  | nil : ReorderedAll [] []
  | cons {node node' : Node} {nodes nodes' : List Node} (first : Reordered node node')
      (rest : ReorderedAll nodes nodes') : ReorderedAll (node :: nodes) (node' :: nodes')

end

/-! ## References -/

theorem addReference_comm (tag l v l' v' : List Char) (r : References) :
    addReference tag l v (addReference tag l' v' r) =
      addReference tag l' v' (addReference tag l v r) := by
  have h := (adds_addReference tag l v r).trans (adds_addReference tag l' v' _)
  have h' := (adds_addReference tag l' v' r).trans (adds_addReference tag l v _)
  exact h'.unique (h.congr (fun _ => or_comm) fun _ => or_comm)

variable {b : Bindings}

/-- An item is refused, or it adds one reference at most, whatever was found before. -/
theorem addItem_cases (b : Bindings) (tag : List Char) (i : Item) :
    (∃ k, ∀ r, addItem b tag r i = .error k) ∨
      ∃ l v, ∀ r, addItem b tag r i = .ok (addReference tag l v r) := by
  have hnothing : ∀ r, addReference tag [] [] r = r := fun _ => rfl
  unfold addItem
  cases i.name.label with
  | none => exact .inr ⟨[], [], fun r => by rw [hnothing]⟩
  | some label =>
    dsimp only
    split
    · exact .inr ⟨[], [], fun r => by rw [hnothing]⟩
    · split
      · exact .inl ⟨_, fun _ => rfl⟩
      · split
        · cases Entity.expand i.raw with
          | error e => exact .inl ⟨_, fun _ => rfl⟩
          | ok value => exact .inr ⟨_, value, fun _ => rfl⟩
        · exact .inr ⟨[], [], fun r => by rw [hnothing]⟩

theorem addItems_cons_eq_ok_iff {tag : List Char} {seen : List Name} {r r' : References} {i : Item}
    {items : List Item} :
    addItems b tag seen r (i :: items) = .ok r' ↔ i.name ∉ seen ∧
      ∃ r₁, addItem b tag r i = .ok r₁ ∧ addItems b tag (i.name :: seen) r₁ items = .ok r' := by
  rw [addItems]
  split
  · next h => exact iff_of_false (by simp) fun h' => h'.1 h
  · next h => rw [and_iff_right h, bind_eq_ok_iff]

/-- Items that are accepted have different names. -/
theorem nodup_of_addItems {tag : List Char} {seen : List Name} {r r' : References}
    {items : List Item} (h : addItems b tag seen r items = .ok r') :
    (items.map (·.name)).Nodup ∧ ∀ i ∈ items, i.name ∉ seen := by
  induction items generalizing seen r with
  | nil => exact ⟨.nil, by simp⟩
  | cons i items ih =>
    obtain ⟨hi, r₁, -, h⟩ := addItems_cons_eq_ok_iff.1 h
    obtain ⟨hnodup, hseen⟩ := ih h
    simp only [List.mem_cons, not_or] at hseen
    refine ⟨List.nodup_cons.2 ⟨fun hmem => ?_, hnodup⟩,
      List.forall_mem_cons.2 ⟨hi, fun j hj => (hseen j hj).2⟩⟩
    obtain ⟨j, hj, hname⟩ := List.mem_map.1 hmem
    exact (hseen j hj).1 hname

/-- Two neighbours can change places. -/
theorem addItems_swap {tag : List Char} {seen : List Name} {r r' : References} {i j : Item}
    {items : List Item} (h : addItems b tag seen r (i :: j :: items) = .ok r') :
    addItems b tag seen r (j :: i :: items) = .ok r' := by
  obtain ⟨hi, r₁, h₁, h⟩ := addItems_cons_eq_ok_iff.1 h
  obtain ⟨hj, r₂, h₂, h⟩ := addItems_cons_eq_ok_iff.1 h
  rw [List.mem_cons, not_or] at hj
  rcases addItem_cases b tag i with ⟨k, hk⟩ | ⟨l, v, hiadd⟩
  · rw [hk] at h₁
    cases h₁
  rcases addItem_cases b tag j with ⟨k, hk⟩ | ⟨l', v', hjadd⟩
  · rw [hk] at h₂
    cases h₂
  obtain rfl := Except.ok.inj ((hiadd r).symm.trans h₁)
  obtain rfl := Except.ok.inj ((hjadd _).symm.trans h₂)
  refine addItems_cons_eq_ok_iff.2 ⟨hj.2, _, hjadd r, ?_⟩
  refine addItems_cons_eq_ok_iff.2 ⟨?_, _, hiadd _, ?_⟩
  · rw [List.mem_cons, not_or]
    exact ⟨Ne.symm hj.1, hi⟩
  · rw [addReference_comm, ← h]
    exact addItems_congr b tag (fun _ _ => by simp only [List.mem_cons, or_left_comm]) _

/-- Items that are accepted add the same references in another order. -/
theorem addItems_of_perm {items items' : List Item} (hperm : items.Perm items') {tag : List Char}
    {seen : List Name} {r r' : References} (h : addItems b tag seen r items = .ok r') :
    addItems b tag seen r items' = .ok r' := by
  induction hperm generalizing seen r with
  | nil => exact h
  | cons i _ ih =>
    obtain ⟨hi, r₁, h₁, h⟩ := addItems_cons_eq_ok_iff.1 h
    exact addItems_cons_eq_ok_iff.2 ⟨hi, r₁, h₁, ih h⟩
  | swap i j items => exact addItems_swap h
  | trans _ _ ih₁ ih₂ => exact ih₂ (ih₁ h)

/-! ## Work on a reordered tree -/

mutual

theorem Reordered.symm (node : Node) {node' : Node} (h : Reordered node node') :
    Reordered node' node := by
  match node, h with
  | _, .text content => exact .text content
  | .element tag items short children, .element _ _ perm inside =>
    exact .element tag short perm.symm (ReorderedAll.symm children inside)

theorem ReorderedAll.symm (nodes : List Node) {nodes' : List Node} (h : ReorderedAll nodes nodes') :
    ReorderedAll nodes' nodes := by
  match nodes, h with
  | _, .nil => exact .nil
  | node :: nodes, .cons first rest =>
    exact .cons (Reordered.symm node first) (ReorderedAll.symm nodes rest)

end

mutual

theorem outcome_of_reordered (node : Node) {node' : Node} (hnode : Reordered node node')
    {b : Bindings} {r r' : References} (h : outcome b r node = .ok r') :
    outcome b r node' = .ok r' := by
  match node, hnode with
  | _, .text content => exact h
  | .element tag items short children, .element _ _ perm inside =>
    rw [outcome] at h ⊢
    split at h
    · next hallowed =>
      obtain ⟨r₁, hadd, h⟩ := bind_eq_ok_iff.1 h
      obtain ⟨name, hname, hadd⟩ := bind_eq_ok_iff.1 hadd
      rw [if_pos fun i hi => hallowed i (perm.mem_iff.2 hi),
        ← Bindings.enter_of_perm perm (nodup_of_addItems hadd).1 b]
      exact bind_eq_ok_iff.2 ⟨r₁, bind_eq_ok_iff.2 ⟨name, hname, addItems_of_perm perm hadd⟩,
        outcomeAll_of_reordered children inside h⟩
    · cases h

theorem outcomeAll_of_reordered (nodes : List Node) {nodes' : List Node}
    (hnodes : ReorderedAll nodes nodes') {b : Bindings} {r r' : References}
    (h : outcomeAll b r nodes = .ok r') : outcomeAll b r nodes' = .ok r' := by
  match nodes, hnodes with
  | _, .nil => exact h
  | node :: nodes, .cons first rest =>
    obtain ⟨r₁, h₁, h⟩ := bind_eq_ok_iff.1 h
    exact bind_eq_ok_iff.2
      ⟨r₁, outcome_of_reordered node first h₁, outcomeAll_of_reordered nodes rest h⟩

end

theorem parse_eq_ok_of_reordered {node node' : Node} (h : Reordered node node') {r : References}
    (hr : References.parse node.render = .ok r) : References.parse node'.render = .ok r := by
  cases h with
  | text content => exact hr
  | @element tag items items' short children children' perm inside =>
    have hnode : outcome Bindings.initial References.empty (.element tag items short children) =
        .ok r := by
      rw [← parse_outcome, hr]
      rfl
    have hnode' := outcome_of_reordered _ (.element tag short perm inside) hnode
    rw [← parse_outcome] at hnode'
    exact mapError_eq_ok_iff.1 hnode'

/-- **In any order of its items a tree has the same references, or it is refused in each of
them.** -/
theorem parse_of_reordered {node node' : Node} (h : Reordered node node') :
    (References.parse node'.render).toOption = (References.parse node.render).toOption :=
  toOption_congr fun _ => ⟨parse_eq_ok_of_reordered (h.symm node), parse_eq_ok_of_reordered h⟩

/-! A prefix that is bound again may be used before its declaration. -/

namespace UsedFirst

/-- The tree with the given items in its inner tag. -/
def tree (items : List Item) : Node :=
  .element ⟨none, { chars := "Stack".toList }⟩ [Shadowed.outer] false [
    .element ⟨some Shadowed.label, { chars := "Card".toList }⟩ items true []]

theorem reordered :
    Reordered (tree [Shadowed.clicked, Shadowed.inner])
      (tree [Shadowed.inner, Shadowed.clicked]) :=
  .element _ false (.refl _) (.cons (.element _ true (.swap _ _ _) .nil) .nil)

end UsedFirst

theorem parse_of_reordered_usedFirst :
    Reordered (UsedFirst.tree [Shadowed.clicked, Shadowed.inner])
      (UsedFirst.tree [Shadowed.inner, Shadowed.clicked]) ∧
    (UsedFirst.tree [Shadowed.clicked, Shadowed.inner]).render =
      "<Stack xmlns:a=\"urn:x\"><a:Card a:onClick=\"go &amp; stop\"".toList ++
        " xmlns:a=\"http://schemas.android.com/apk/res/android\"/></Stack>".toList ∧
    (References.parse (UsedFirst.tree [Shadowed.inner, Shadowed.clicked]).render).toOption =
      (References.parse (UsedFirst.tree [Shadowed.clicked, Shadowed.inner]).render).toOption :=
  ⟨UsedFirst.reordered, by decide, parse_of_reordered UsedFirst.reordered⟩

end LayoutShell.Layout
