/-!
# Sets of names

A set of names is a strictly increasing list, so it is determined by its members (`NameSet.ext`).
Names are compared by code points, which is also the order of their UTF-8 bytes.

* `insert` adds a name (`mem_insert`), and `union` the names of another set (`mem_union`).
* `ofList` collects the names of a list, dropping repetitions (`mem_ofList`).
-/

namespace LayoutShell

/-- A finite set of names in increasing order. -/
structure NameSet where
  toList : List String
  sorted : toList.Pairwise (· < ·)
  deriving DecidableEq

namespace NameSet

instance : Membership String NameSet := ⟨fun s n => n ∈ s.toList⟩

theorem mem_def {s : NameSet} {n : String} : n ∈ s ↔ n ∈ s.toList := Iff.rfl

instance (n : String) (s : NameSet) : Decidable (n ∈ s) :=
  inferInstanceAs (Decidable (n ∈ s.toList))

def empty : NameSet := ⟨[], .nil⟩

instance : EmptyCollection NameSet := ⟨empty⟩

instance : Inhabited NameSet := ⟨empty⟩

theorem not_mem_empty (n : String) : n ∉ (∅ : NameSet) := List.not_mem_nil

def size (s : NameSet) : Nat := s.toList.length

theorem ext {s t : NameSet} (h : ∀ n, n ∈ s ↔ n ∈ t) : s = t := by
  obtain ⟨l, hl⟩ := s
  obtain ⟨m, hm⟩ := t
  congr
  induction l generalizing m with
  | nil =>
    cases m with
    | nil => rfl
    | cons b m => exact absurd ((h b).2 List.mem_cons_self) List.not_mem_nil
  | cons a l ih =>
    cases m with
    | nil => exact absurd ((h a).1 List.mem_cons_self) List.not_mem_nil
    | cons b m =>
      obtain ⟨hal, hl'⟩ := List.pairwise_cons.1 hl
      obtain ⟨hbm, hm'⟩ := List.pairwise_cons.1 hm
      have hab : a = b := by
        rcases List.mem_cons.1 ((h a).1 List.mem_cons_self) with e | hb
        · exact e
        · rcases List.mem_cons.1 ((h b).2 List.mem_cons_self) with e | ha
          · exact e.symm
          · exact absurd (String.lt_trans (hal b ha) (hbm a hb)) (String.lt_irrefl a)
      subst hab
      congr 1
      refine ih hl' m hm' fun n => ⟨fun hn => ?_, fun hn => ?_⟩
      · rcases List.mem_cons.1 ((h n).1 (List.mem_cons_of_mem _ hn)) with e | hn'
        · exact absurd (e ▸ hal n hn) (String.lt_irrefl n)
        · exact hn'
      · rcases List.mem_cons.1 ((h n).2 (List.mem_cons_of_mem _ hn)) with e | hn'
        · exact absurd (e ▸ hbm n hn) (String.lt_irrefl n)
        · exact hn'

/-! ## Insertion -/

/-- Adds a name to an increasing list of names. -/
def insertName (n : String) : List String → List String
  | [] => [n]
  | m :: rest =>
    if n < m then n :: m :: rest
    else if m < n then m :: insertName n rest
    else m :: rest

theorem mem_insertName {n k : String} {l : List String} :
    k ∈ insertName n l ↔ k = n ∨ k ∈ l := by
  induction l with
  | nil => simp [insertName]
  | cons m rest ih =>
    simp only [insertName]
    split
    next => simp
    next hlt =>
      split
      next => simp only [List.mem_cons, ih]; grind
      next hgt =>
        have : n = m := by
          rcases Std.lt_trichotomy n m with h | h | h
          · exact absurd h hlt
          · exact h
          · exact absurd h hgt
        simp [this]

theorem sorted_insertName (n : String) {l : List String} (h : l.Pairwise (· < ·)) :
    (insertName n l).Pairwise (· < ·) := by
  induction l with
  | nil => simp [insertName]
  | cons m rest ih =>
    obtain ⟨hm, hrest⟩ := List.pairwise_cons.1 h
    simp only [insertName]
    split
    next hlt =>
      refine List.pairwise_cons.2 ⟨fun k hk => ?_, h⟩
      rcases List.mem_cons.1 hk with rfl | hk
      · exact hlt
      · exact String.lt_trans hlt (hm k hk)
    next =>
      split
      next hgt =>
        refine List.pairwise_cons.2 ⟨fun k hk => ?_, ih hrest⟩
        rcases mem_insertName.1 hk with rfl | hk
        · exact hgt
        · exact hm k hk
      next => exact h

def insert (s : NameSet) (n : String) : NameSet :=
  ⟨insertName n s.toList, sorted_insertName n s.sorted⟩

@[simp]
theorem mem_insert {s : NameSet} {n k : String} : k ∈ s.insert n ↔ k = n ∨ k ∈ s :=
  mem_insertName

/-- The members of either set. -/
def union (s t : NameSet) : NameSet := t.toList.foldl insert s

theorem mem_foldl_insert {l : List String} {s : NameSet} {k : String} :
    k ∈ l.foldl insert s ↔ k ∈ s ∨ k ∈ l := by
  induction l generalizing s with
  | nil => simp
  | cons n l ih => simp only [List.foldl_cons, ih, mem_insert, List.mem_cons]; grind

@[simp]
theorem mem_union {s t : NameSet} {k : String} : k ∈ s.union t ↔ k ∈ s ∨ k ∈ t :=
  mem_foldl_insert

/-- The members of a list. -/
def ofList (l : List String) : NameSet := l.foldl insert ∅

@[simp]
theorem mem_ofList {l : List String} {k : String} : k ∈ ofList l ↔ k ∈ l := by
  simp [ofList, mem_foldl_insert, not_mem_empty]

end NameSet

end LayoutShell
