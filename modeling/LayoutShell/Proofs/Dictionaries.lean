import LayoutShell.Dict
import Mathlib.Data.List.Nodup

/-!
# What dictionaries answer

A dictionary is determined by its answers, and the answers of dictionaries that are built from lists
and from each other are those of their parts.

* `ext_get?`: dictionaries with the same answers are equal.
* `get?_foldl_insert`: of entries that are inserted one after another, the last one of a key counts.
* `get?_ofList` and `get?_merge` are what follows for lists and for updates.
-/

namespace LayoutShell.Dict

variable {κ α : Type} [LT κ] [LE κ] [Std.IsLinearOrder κ] [Std.LawfulOrderLT κ] [DecidableEq κ]

theorem ext_get? {a b : Dict κ α} (h : ∀ k, a.get? k = b.get? k) : a = b := by
  have hmem : ∀ e, e ∈ a.entries ↔ e ∈ b.entries := fun ⟨k, v⟩ => by
    rw [← get?_eq_some_iff, ← get?_eq_some_iff, h]
  have hnodup : ∀ d : Dict κ α, d.entries.Nodup := by
    intro d
    apply d.sorted.imp
    rintro e _ hlt rfl
    exact Std.lt_irrefl hlt
  have hperm : a.entries.Perm b.entries :=
    (List.perm_ext_iff_of_nodup (hnodup a) (hnodup b)).2 hmem
  refine ext_entries (hperm.eq_of_pairwise (fun d e _ _ hde hed => ?_) a.sorted b.sorted)
  exact absurd (Std.lt_trans hde hed) Std.lt_irrefl

omit [Std.IsLinearOrder κ] in
/-- No key occurs twice, so the entries may be searched from either end. -/
theorem lookup_reverse {l : List (κ × α)} (h : l.Pairwise fun a b => a.1 < b.1) (k : κ) :
    l.reverse.lookup k = l.lookup k := by
  induction l with
  | nil => rfl
  | cons e rest ih =>
    obtain ⟨he, hrest⟩ := List.pairwise_cons.1 h
    obtain ⟨a, v⟩ := e
    rw [List.reverse_cons, List.lookup_append, ih hrest]
    by_cases hk : k = a
    · subst hk
      have hnone : rest.lookup k = none := by
        refine Option.eq_none_iff_forall_ne_some.2 fun w hw => ?_
        exact Std.lt_irrefl (he (k, w) ((lookup_eq_some_iff hrest).1 hw))
      rw [hnone, Option.none_or, List.lookup_cons_self, List.lookup_cons_self]
    · simp [List.lookup_cons, beq_eq_false_iff_ne.2 hk]

variable [DecidableLT κ]

theorem get?_foldl_insert (d : Dict κ α) (l : List (κ × α)) (k : κ) :
    (l.foldl (fun d e => d.insert e.1 e.2) d).get? k = (l.reverse.lookup k).or (d.get? k) := by
  induction l generalizing d with
  | nil => rfl
  | cons e l ih =>
    obtain ⟨a, v⟩ := e
    rw [List.foldl_cons, ih, get?_insert, List.reverse_cons, List.lookup_append, Option.or_assoc]
    by_cases hk : k = a <;> simp [List.lookup_cons, hk, beq_eq_false_iff_ne.2]

theorem get?_ofList (l : List (κ × α)) (k : κ) : (ofList l).get? k = l.reverse.lookup k :=
  (get?_foldl_insert empty l k).trans Option.or_none

/-- What the update answers counts. -/
theorem get?_merge (d update : Dict κ α) (k : κ) :
    (d.merge update).get? k = (update.get? k).or (d.get? k) := by
  rw [merge, get?_foldl_insert, lookup_reverse update.sorted]
  rfl

/-- A list may be merged as a dictionary or entry by entry. -/
theorem merge_ofList (d : Dict κ α) (l : List (κ × α)) :
    d.merge (ofList l) = l.foldl (fun d e => d.insert e.1 e.2) d :=
  ext_get? fun k => by rw [get?_merge, get?_ofList, get?_foldl_insert]

end LayoutShell.Dict
