import LayoutShell.Markup.Event
import Mathlib.Data.List.Nodup

/-!
# The attributes of a tag

A tag has a list of attributes if all that stands after its name can be read as attributes and no
key is repeated.

* `readings_of_read` is one step of reading the attributes of a tag.
* `distinct_eq_map_ok_iff` says when the attributes of a tag are read without an error: each of them
  is well formed and their keys differ.
-/

namespace LayoutShell.Markup.Attribute

open Text

namespace Reading

/-- The attribute that was read, if it is well formed. -/
def attribute? : Reading → Option Attribute
  | found a _ _ => some a
  | _ => none

/-- A well-formed attribute was read. -/
def IsFound (r : Reading) : Prop := r.attribute?.isSome

instance (r : Reading) : Decidable r.IsFound := inferInstanceAs (Decidable (_ = true))

@[simp]
theorem isFound_found (a : Attribute) (next : Nat) (rest : List Char) :
    (found a next rest).IsFound := rfl

end Reading

theorem scan_eq (place : Nat) (s : List Char) :
    scan place s = (readings place s).filterMap Reading.attribute? := by
  unfold scan
  congr 1

/-! ## One step of reading -/

theorem readings_of_read {place next : Nat} {s rest : List Char} {a : Attribute}
    (h : read place s = .found a next rest) :
    readings place s = .found a next rest :: readings next rest := by
  rw [readings]
  split
  · next h' => rw [h] at h'; cases h'
  · next h' => rw [h] at h'; cases h'; rfl
  · next hd hf => exact absurd h (hf _ _ _)

theorem readings_of_done {place : Nat} {s : List Char} (h : read place s = .done) :
    readings place s = [] := by
  rw [readings]
  split
  · rfl
  · next h' => rw [h] at h'; cases h'
  · next hd hf => exact absurd h hd

theorem done_notMem_readings (place : Nat) (s : List Char) : .done ∉ readings place s := by
  fun_induction readings place s with
  | case1 => simp
  | case2 place s a next rest h ih => simpa using ih
  | case3 place s hd hf => simpa using fun h => hd h.symm

/-! ## Distinct keys -/

theorem singleton_error_ne_map_ok (e : AttributeError) (as : List Attribute) :
    [Except.error e] ≠ as.map Except.ok := by
  rcases as with _ | ⟨a, as⟩ <;> simp

theorem distinctFrom_eq_map_ok_iff {seen : List (List Char × Nat)} {rs : List Reading}
    (hrs : .done ∉ rs) {as : List Attribute} :
    distinctFrom seen rs = as.map .ok ↔
      (∀ r ∈ rs, r.IsFound) ∧ rs.filterMap Reading.attribute? = as ∧
        (as.map (·.key)).Nodup ∧ ∀ a ∈ as, a.key ∉ seen.map (·.1) := by
  induction rs generalizing seen as with
  | nil =>
    simp only [distinctFrom, List.nil_eq, List.map_eq_nil_iff, List.not_mem_nil, false_imp_iff,
      implies_true, List.filterMap_nil, true_and]
    constructor
    · rintro rfl
      simp
    · rintro ⟨rfl, -⟩
      rfl
  | cons r rs ih =>
    have hrs' : .done ∉ rs := fun h => hrs (List.mem_cons_of_mem _ h)
    cases r with
    | done => exact absurd List.mem_cons_self hrs
    | noKey e =>
      refine iff_of_false (singleton_error_ne_map_ok e as) fun h => ?_
      exact absurd (h.1 _ List.mem_cons_self) Bool.false_ne_true
    | noValue place key e =>
      refine iff_of_false (fun h => ?_) fun h => ?_
      · simp only [distinctFrom] at h
        split at h <;> exact singleton_error_ne_map_ok _ as h
      · exact absurd (h.1 _ List.mem_cons_self) Bool.false_ne_true
    | found a next rest =>
      simp only [distinctFrom, List.filterMap_cons, Reading.attribute?]
      cases hl : seen.lookup a.key with
      | some previous =>
        refine iff_of_false (singleton_error_ne_map_ok _ as) fun ⟨_, has, _, hseen⟩ => ?_
        have hmem : a.key ∉ seen.map (·.1) := hseen a (has ▸ List.mem_cons_self)
        have : seen.lookup a.key = none := List.lookup_eq_none_iff.2 fun p hp => by
          have hne : a.key ≠ p.1 := fun he => hmem (he ▸ List.mem_map_of_mem hp)
          simpa using hne
        rw [hl] at this
        cases this
      | none =>
        have hmem : a.key ∉ seen.map (·.1) := fun h => by
          obtain ⟨p, hp, he⟩ := List.mem_map.1 h
          simpa [he] using List.lookup_eq_none_iff.1 hl p hp
        rcases as with _ | ⟨b, as⟩
        · simp
        · rw [List.forall_mem_cons, List.forall_mem_cons]
          simp only [List.map_cons, List.cons.injEq, Except.ok.injEq, ih hrs', List.mem_cons,
            not_or, List.nodup_cons, Reading.isFound_found, true_and]
          constructor
          · rintro ⟨rfl, hfound, has, hnodup, hseen⟩
            refine ⟨hfound, ⟨rfl, has⟩, ⟨fun h => ?_, hnodup⟩, hmem, fun c hc => (hseen c hc).2⟩
            obtain ⟨c, hc, he⟩ := List.mem_map.1 h
            exact (hseen c hc).1 he
          · rintro ⟨hfound, ⟨rfl, has⟩, ⟨hnew, hnodup⟩, -, hseen⟩
            exact ⟨rfl, hfound, has, hnodup, fun c hc =>
              ⟨fun he => hnew (he ▸ List.mem_map_of_mem hc), hseen c hc⟩⟩

/-- **The attributes of a tag are read without an error exactly if each is well formed and their
keys differ.** -/
theorem distinct_eq_map_ok_iff {place : Nat} {s : List Char} {as : List Attribute} :
    distinct place s = as.map .ok ↔
      (∀ r ∈ readings place s, r.IsFound) ∧ scan place s = as ∧ (as.map (·.key)).Nodup := by
  rw [distinct, distinctFrom_eq_map_ok_iff (done_notMem_readings place s), scan_eq]
  simp

end LayoutShell.Markup.Attribute
