/-!
# Sorted dictionaries

A dictionary is a list of entries with strictly increasing keys, so it holds each key at most once
and two dictionaries with the same entries are equal.

* `get?` looks up a key (`get?_eq_some_iff`).
* `insert` sets a key (`get?_insert`), `erase` removes one and `merge` inserts the entries of
  another dictionary.
* `ofList` inserts entries one after another: the last one of a key wins.
-/

namespace LayoutShell

variable {κ α : Type} [LT κ]

/-- A finite map as its entries in increasing order of their keys. -/
structure Dict (κ : Type) [LT κ] (α : Type) where
  entries : List (κ × α)
  sorted : entries.Pairwise fun a b => a.1 < b.1

namespace Dict

instance [DecidableEq κ] [DecidableEq α] : DecidableEq (Dict κ α) := fun a b =>
  if h : a.entries = b.entries then .isTrue (by cases a; cases b; simpa using h)
  else .isFalse (by rintro rfl; exact h rfl)

theorem ext_entries {a b : Dict κ α} (h : a.entries = b.entries) : a = b := by
  cases a; cases b; simpa using h

def empty : Dict κ α := ⟨[], .nil⟩

instance : EmptyCollection (Dict κ α) := ⟨empty⟩

instance : Inhabited (Dict κ α) := ⟨empty⟩

def size (d : Dict κ α) : Nat := d.entries.length

def keys (d : Dict κ α) : List κ := d.entries.map (·.1)

def get? [DecidableEq κ] (d : Dict κ α) (k : κ) : Option α := d.entries.lookup k

/-- The entries whose key and value satisfy `p`. -/
def filter (p : κ → α → Bool) (d : Dict κ α) : Dict κ α :=
  ⟨d.entries.filter fun e => p e.1 e.2, d.sorted.filter _⟩

def erase [DecidableEq κ] (d : Dict κ α) (k : κ) : Dict κ α := d.filter fun k' _ => k' ≠ k

/-! ## Insertion -/

/-- Sets `k` to `v` in a list of entries with increasing keys. -/
def insertEntry [DecidableLT κ] (k : κ) (v : α) : List (κ × α) → List (κ × α)
  | [] => [(k, v)]
  | e :: rest =>
    if k < e.1 then (k, v) :: e :: rest
    else if e.1 < k then e :: insertEntry k v rest
    else (k, v) :: rest

variable [DecidableLT κ] [LE κ] [Std.IsLinearOrder κ] [Std.LawfulOrderLT κ]

omit [LE κ] [Std.IsLinearOrder κ] [Std.LawfulOrderLT κ] in
theorem mem_insertEntry {k : κ} {v : α} {l : List (κ × α)} {e : κ × α}
    (h : e ∈ insertEntry k v l) : e = (k, v) ∨ e ∈ l := by
  induction l with
  | nil => simpa [insertEntry] using h
  | cons d rest ih =>
    simp only [insertEntry] at h
    split at h
    · simpa using h
    · split at h
      · rcases List.mem_cons.1 h with rfl | h
        · simp
        · rcases ih h with h | h <;> simp [h]
      · rcases List.mem_cons.1 h with rfl | h <;> simp_all

theorem sorted_insertEntry (k : κ) (v : α) {l : List (κ × α)}
    (h : l.Pairwise fun a b => a.1 < b.1) :
    (insertEntry k v l).Pairwise fun a b => a.1 < b.1 := by
  induction l with
  | nil => simp [insertEntry]
  | cons d rest ih =>
    obtain ⟨hd, hrest⟩ := List.pairwise_cons.1 h
    simp only [insertEntry]
    split
    next hlt =>
      refine List.pairwise_cons.2 ⟨fun e he => ?_, h⟩
      rcases List.mem_cons.1 he with rfl | he
      · exact hlt
      · exact Std.lt_trans hlt (hd e he)
    next hlt =>
      split
      next hgt =>
        refine List.pairwise_cons.2 ⟨fun e he => ?_, ih hrest⟩
        rcases mem_insertEntry he with rfl | he
        · exact hgt
        · exact hd e he
      next hgt =>
        have hk : k = d.1 := by
          rcases Std.lt_trichotomy k d.1 with h | h | h
          · exact absurd h hlt
          · exact h
          · exact absurd h hgt
        exact List.pairwise_cons.2 ⟨fun e he => hk ▸ hd e he, hrest⟩

def insert (d : Dict κ α) (k : κ) (v : α) : Dict κ α :=
  ⟨insertEntry k v d.entries, sorted_insertEntry k v d.sorted⟩

/-- The entries of `d`, overridden and extended by those of `update`. -/
def merge (d update : Dict κ α) : Dict κ α :=
  update.entries.foldl (fun d e => d.insert e.1 e.2) d

/-- The entries of a list, the last one of a key winning. -/
def ofList (l : List (κ × α)) : Dict κ α := l.foldl (fun d e => d.insert e.1 e.2) empty

/-! ## Look-up -/

variable [DecidableEq κ]

theorem lookup_insertEntry (k : κ) (v : α) (l : List (κ × α)) (k' : κ)
    (h : l.Pairwise fun a b => a.1 < b.1) :
    (insertEntry k v l).lookup k' = if k' = k then some v else l.lookup k' := by
  induction l with
  | nil => by_cases hk : k' = k <;> simp [insertEntry, List.lookup_cons, hk, beq_eq_false_iff_ne.2]
  | cons d rest ih =>
    obtain ⟨hd, hrest⟩ := List.pairwise_cons.1 h
    have ih := ih hrest
    simp only [insertEntry]
    split
    next => by_cases hk : k' = k <;> simp [List.lookup_cons, hk, beq_eq_false_iff_ne.2]
    next hlt =>
      split
      next hgt =>
        by_cases hk : k' = k
        · have hne : k ≠ d.1 := fun e => Std.lt_irrefl (e ▸ hgt)
          obtain ⟨a, b⟩ := d
          simp_all [List.lookup_cons, beq_eq_false_iff_ne.2]
        · obtain ⟨a, b⟩ := d
          simp [List.lookup_cons, ih, hk]
      next hgt =>
        have hkd : k = d.1 := by
          rcases Std.lt_trichotomy k d.1 with h | h | h
          · exact absurd h hlt
          · exact h
          · exact absurd h hgt
        by_cases hk : k' = k
        · simp [hk]
        · obtain ⟨a, b⟩ := d
          subst hkd
          simp [List.lookup_cons, hk, beq_eq_false_iff_ne.2]

@[simp]
theorem get?_insert (d : Dict κ α) (k k' : κ) (v : α) :
    (d.insert k v).get? k' = if k' = k then some v else d.get? k' :=
  lookup_insertEntry k v d.entries k' d.sorted

omit [DecidableLT κ] [Std.IsLinearOrder κ] in
theorem lookup_eq_some_iff {k : κ} {v : α} {l : List (κ × α)}
    (h : l.Pairwise fun a b => a.1 < b.1) : l.lookup k = some v ↔ (k, v) ∈ l := by
  induction l with
  | nil => simp
  | cons d rest ih =>
    obtain ⟨hd, hrest⟩ := List.pairwise_cons.1 h
    obtain ⟨a, b⟩ := d
    by_cases hk : k = a
    · subst hk
      have hnot : (k, v) ∉ rest := fun hmem => Std.lt_irrefl (hd (k, v) hmem)
      simp [hnot, eq_comm]
    · simp [List.lookup_cons, beq_eq_false_iff_ne.2 hk, hk, ih hrest]

omit [DecidableLT κ] [Std.IsLinearOrder κ] in
theorem get?_eq_some_iff {d : Dict κ α} {k : κ} {v : α} :
    d.get? k = some v ↔ (k, v) ∈ d.entries :=
  lookup_eq_some_iff d.sorted

end Dict

end LayoutShell
