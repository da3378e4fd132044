import Mathlib.Data.List.Forall2

/-!
# Computations that may fail

When a computation built from others succeeds, and what it gives then.
-/

namespace LayoutShell

variable {ε ε' α β : Type}

theorem bind_eq_ok_iff {x : Except ε α} {f : α → Except ε β} {b : β} :
    x >>= f = .ok b ↔ ∃ a, x = .ok a ∧ f a = .ok b := by
  cases x <;> simp [bind, Except.bind]

theorem mapError_eq_ok_iff {x : Except ε α} {f : ε → ε'} {a : α} :
    x.mapError f = .ok a ↔ x = .ok a := by
  cases x <;> simp [Except.mapError]

theorem map_eq_ok_iff {x : Except ε α} {f : α → β} {b : β} :
    x.map f = .ok b ↔ ∃ a, x = .ok a ∧ f a = b := by
  cases x <;> simp [Except.map]

theorem mapError_eq_error_iff {x : Except ε α} {f : ε → ε'} {e : ε'} :
    x.mapError f = .error e ↔ ∃ d, x = .error d ∧ f d = e := by
  cases x <;> simp [Except.mapError]

theorem map_eq_error_iff {x : Except ε α} {f : α → β} {e : ε} :
    x.map f = .error e ↔ x = .error e := by
  cases x <;> simp [Except.map]

theorem mapError_bind (x : Except ε α) (f : α → Except ε β) (g : ε → ε') :
    (x >>= f).mapError g = x.mapError g >>= fun a => (f a).mapError g := by
  cases x <;> rfl

/-- The computation delivers a result with `P`, or fails with an error that has `Q`. -/
def Delivers (P : α → Prop) (Q : ε → Prop) : Except ε α → Prop
  | .ok a => P a
  | .error e => Q e

namespace Delivers

variable {P : α → Prop} {P' : β → Prop} {Q : ε → Prop} {x : Except ε α}

theorem mono {P₁ : α → Prop} {Q₁ : ε → Prop} (hP : ∀ a, P a → P₁ a) (hQ : ∀ e, Q e → Q₁ e)
    (h : Delivers P Q x) : Delivers P₁ Q₁ x := by
  cases x with
  | ok a => exact hP a h
  | error e => exact hQ e h

theorem bind (h : Delivers P Q x) {f : α → Except ε β} (hf : ∀ a, P a → Delivers P' Q (f a)) :
    Delivers P' Q (x >>= f) := by
  cases x with
  | ok a => exact hf a h
  | error e => exact h

theorem map {f : α → β} (h : Delivers (fun a => P' (f a)) Q x) : Delivers P' Q (x.map f) := by
  cases x with
  | ok a => exact h
  | error e => exact h

theorem mapError {Q' : ε' → Prop} {g : ε → ε'} (h : Delivers P (fun e => Q' (g e)) x) :
    Delivers P Q' (x.mapError g) := by
  cases x with
  | ok a => exact h
  | error e => exact h

end Delivers

/-- Computations that succeed with the same results are the same, their failures aside. -/
theorem toOption_congr {x : Except ε α} {y : Except ε' α} (h : ∀ a, x = .ok a ↔ y = .ok a) :
    x.toOption = y.toOption := by
  cases x with
  | ok a =>
    rw [(h a).1 rfl]
    rfl
  | error e =>
    cases y with
    | ok a => cases (h a).2 rfl
    | error e' => rfl

/-- Work on a list succeeds if it succeeds on each member. -/
theorem mapM_eq_ok_iff {f : α → Except ε β} {xs : List α} {ys : List β} :
    xs.mapM f = .ok ys ↔ List.Forall₂ (fun x y => f x = .ok y) xs ys := by
  induction xs generalizing ys with
  | nil => simp [pure, Except.pure, eq_comm]
  | cons x xs ih =>
    rw [List.mapM_cons, bind_eq_ok_iff, List.forall₂_cons_left_iff]
    simp only [bind_eq_ok_iff, ih, pure, Except.pure, Except.ok.injEq]
    constructor
    · rintro ⟨y, hy, ys, hys, rfl⟩
      exact ⟨y, ys, hy, hys, rfl⟩
    · rintro ⟨y, ys, hy, hys, rfl⟩
      exact ⟨y, hy, ys, hys, rfl⟩

theorem forall_mem_of_mapM {f : α → Except ε β} {xs : List α} {ys : List β}
    (h : xs.mapM f = .ok ys) : ∀ x ∈ xs, ∃ y, f x = .ok y := by
  rw [mapM_eq_ok_iff] at h
  induction h with
  | nil => simp
  | cons hxy _ ih => exact List.forall_mem_cons.2 ⟨⟨_, hxy⟩, ih⟩

/-- The results are those of the members. -/
theorem exists_mem_iff_of_mapM {f : α → Except ε β} {xs : List α} {ys : List β}
    (h : xs.mapM f = .ok ys) (P : β → Prop) :
    (∃ y ∈ ys, P y) ↔ ∃ x ∈ xs, ∃ y, f x = .ok y ∧ P y := by
  rw [mapM_eq_ok_iff] at h
  induction h with
  | nil => simp
  | cons hxy _ ih => simp [hxy, ih]

/-- The results are in order if the members are. -/
theorem pairwise_of_mapM {f : α → Except ε β} {xs : List α} {ys : List β} {R : α → α → Prop}
    {S : β → β → Prop} (h : xs.mapM f = .ok ys) (hxs : xs.Pairwise R)
    (hRS : ∀ x x' y y', f x = .ok y → f x' = .ok y' → R x x' → S y y') : ys.Pairwise S := by
  rw [mapM_eq_ok_iff] at h
  induction h with
  | nil => exact .nil
  | @cons x y xs ys hxy htail ih =>
    rw [List.pairwise_cons] at hxs
    refine List.pairwise_cons.2 ⟨fun y' hy' => ?_, ih hxs.2⟩
    obtain ⟨x', hx', hxy'⟩ := (exists_mem_iff_of_mapM (mapM_eq_ok_iff.2 htail) (· = y')).1
      ⟨y', hy', rfl⟩
    obtain ⟨y', hxy', rfl⟩ := hxy'
    exact hRS x x' y y' hxy hxy' (hxs.1 x' hx')

/-- Otherwise it fails as it does on the first member on which it fails. -/
theorem mapM_eq_error_iff {f : α → Except ε β} {xs : List α} {e : ε} :
    xs.mapM f = .error e ↔ ∃ before x after, xs = before ++ x :: after ∧
      (∀ a ∈ before, ∃ b, f a = .ok b) ∧ f x = .error e := by
  induction xs with
  | nil => simp [pure, Except.pure]
  | cons x xs ih =>
    rw [List.mapM_cons]
    cases hx : f x with
    | error d =>
      constructor
      · intro h
        cases h
        exact ⟨[], x, xs, rfl, by simp, hx⟩
      · rintro ⟨_ | ⟨a, before⟩, x', after, heq, hbefore, hx'⟩
        · cases heq
          cases hx.symm.trans hx'
          rfl
        · cases heq
          obtain ⟨b, hb⟩ := hbefore x List.mem_cons_self
          rw [hx] at hb
          cases hb
    | ok y =>
      have htail : (do let ys ← xs.mapM f; pure (y :: ys) : Except ε (List β)) = .error e ↔
          xs.mapM f = .error e := by
        cases xs.mapM f <;> simp [bind, Except.bind, pure, Except.pure]
      refine htail.trans (ih.trans ⟨?_, ?_⟩)
      · rintro ⟨before, x', after, rfl, hbefore, hx'⟩
        exact ⟨x :: before, x', after, rfl, List.forall_mem_cons.2 ⟨⟨y, hx⟩, hbefore⟩, hx'⟩
      · rintro ⟨_ | ⟨a, before⟩, x', after, heq, hbefore, hx'⟩
        · cases heq
          rw [hx] at hx'
          cases hx'
        · cases heq
          exact ⟨before, x', after, rfl, (List.forall_mem_cons.1 hbefore).2, hx'⟩

end LayoutShell
