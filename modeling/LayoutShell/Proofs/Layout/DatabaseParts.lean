import LayoutShell.Proofs.Json.Spelling
import LayoutShell.Proofs.Layout.Databases

/-!
# The parts of a database text

Arrays of strings and members of objects in any spelling, and values of any kind in their places.

* `read_separated` and `read_enclosed` go from what a reader does at one item to what it does at any
  number of them.
* `readNames_spelled` reads an array of strings in each of its spellings.
* `passes_readNames`: any other value in its place is wrong in itself.
* `passes_memberOf` and `ignored_append` read the value of a member.
-/

namespace LayoutShell.Layout.Database

open Files Json Text

section

variable {first : Bool} {lead ws rest : List UInt8}

theorem nextKey_spelled (hlead : Lead first lead) (hws : IsBlank ws) {key : String}
    {s : List UInt8} (h : SpellsString key s) (t : List UInt8) :
    nextKey first (lead ++ (ws ++ (s ++ t))) = .ok (some (key, t)) := by
  cases h with
  | intro h =>
    rw [List.cons_append, List.append_assoc, List.singleton_append, nextKey_append hlead hws,
      readText_spells h]
    simp [Except.map]

theorem passes_nextKey (hlead : Lead first lead) (hws : IsBlank ws) {key : List UInt8}
    (h : IsText key) (t : List UInt8) :
    Passes (fun a => ∃ name, a = some (name, t))
      (nextKey first (lead ++ (ws ++ byte '"' :: (key ++ byte '"' :: t)))) := by
  rw [nextKey_append hlead hws]
  refine (passes_readText h).map ?_
  rintro ⟨name, _⟩ rfl
  exact ⟨_, rfl⟩

theorem enclosed_append (opening closing : UInt8) (s rest : List UInt8) :
    opening :: (s ++ [closing]) ++ rest = opening :: (s ++ closing :: rest) := by
  simp

/-! ## Items one after another -/

section

variable {α σ ρ : Type} {Item : α → List UInt8 → Prop} {inside : Bracket}
  (read : Nat → Bool → σ → List UInt8 → ρ) (Reads : σ → List α → ρ → Prop)
  (hend : ∀ {fuel first state ws}, IsBlank ws →
    Reads state [] (read (fuel + 1) first state (ws ++ inside.closing :: rest)))
  (hitem : ∀ {fuel first state lead ws s tail a as}, Lead first lead → IsBlank ws → Item a s →
    Delimited tail → (∀ state', Reads state' as (read fuel false state' tail)) →
      Reads state (a :: as) (read (fuel + 1) first state (lead ++ (ws ++ (s ++ tail)))))

include hend hitem

/-- What holds of a reader at the closing bracket, and at an item if it holds after the item in
whatever state, holds of it at any number of items. -/
theorem read_separated {as : List α} {s : List UInt8} (h : Separated Item as s) {fuel : Nat}
    (hfuel : as.length < fuel) (hlead : Lead first lead) (state : σ) :
    Reads state as (read fuel first state (lead ++ (s ++ inside.closing :: rest))) := by
  induction h generalizing fuel first lead state with
  | last hws h hws' =>
    rw [List.length_singleton] at hfuel
    obtain ⟨fuel, rfl⟩ : ∃ n, fuel = n + 2 := ⟨fuel - 2, by omega⟩
    rw [List.append_assoc, List.append_assoc]
    exact hitem hlead hws h ((delimited_closing inside rest).append_left hws') fun _ => hend hws'
  | @more a as ws s ws' t hws h hws' _ ih =>
    rw [List.length_cons] at hfuel
    obtain ⟨fuel, rfl⟩ : ∃ n, fuel = n + 1 := ⟨fuel - 1, by omega⟩
    simp only [List.append_assoc, List.cons_append]
    refine hitem hlead hws h ((delimited_comma _).append_left hws') fun state' => ?_
    have hmore : Reads state' as
        (read fuel false state' (ws' ++ [byte ','] ++ (t ++ inside.closing :: rest))) :=
      ih (Nat.lt_of_succ_lt_succ hfuel) (.next hws') state'
    rwa [List.append_assoc, List.singleton_append] at hmore

/-- The same for a reader of the items together with the brackets. -/
theorem read_enclosed {readAll : List UInt8 → ρ} (start : σ)
    (hopening : ∀ t, readAll (inside.opening :: t) = read (t.length + 1) true start t)
    {as : List α} {s : List UInt8} (h : Enclosed inside Item as s) :
    Reads start as (readAll (s ++ rest)) := by
  cases h with
  | empty hws =>
    rw [enclosed_append, hopening]
    exact hend hws
  | @items as s h =>
    have hlength := h.length_le
    rw [enclosed_append, hopening]
    refine read_separated read Reads hend hitem h ?_ .first start
    simp only [List.length_append, List.length_cons]
    omega

end

/-! ## Arrays of strings -/

/-- The spellings of an array of strings. -/
def SpellsNames (names : List String) (s : List UInt8) : Prop :=
  Enclosed .array SpellsString names s

theorem readString_spelled {name : String} {s : List UInt8} (h : SpellsString name s) :
    readString (s ++ rest) = .ok (name, rest) := by
  cases h with
  | intro h =>
    rw [List.cons_append, List.append_assoc, List.singleton_append, readString,
      skipBlank_cons (by decide)]
    refine (if_pos rfl).trans ?_
    rw [readText_spells h]
    simp [Except.map]

theorem nextItem_spelled (hlead : Lead first lead) (hws : IsBlank ws) {name : String}
    {s : List UInt8} (h : SpellsString name s) (t : List UInt8) :
    nextItem first (lead ++ (ws ++ (s ++ t))) = .ok (some (s ++ t)) := by
  cases h with
  | intro h => exact nextItem_append hlead hws begins_quote _

theorem readNames_opening (s : List UInt8) :
    readNames (Bracket.array.opening :: s) = readStrings (s.length + 1) true s := by
  rw [readNames, skipBlank_cons (by decide)]
  exact if_pos rfl

/-- **An array of strings is read in each of its spellings, whatever follows.** -/
theorem readNames_spelled {names : List String} {s : List UInt8} (h : SpellsNames names s)
    (hws : IsBlank ws) : readNames (ws ++ (s ++ rest)) = .ok (names, rest) := by
  rw [readNames_blank hws]
  refine read_enclosed (fun fuel first (_ : Unit) => readStrings fuel first)
    (fun _ names r => r = .ok (names, rest)) ?_ ?_ () readNames_opening h
  · intro fuel first _ ws hws
    exact readStrings_end hws fuel first rest
  · intro fuel first _ lead ws s tail name names hlead hws hs _ hmore
    exact readStrings_item (nextItem_spelled hlead hws hs tail) (readString_spelled hs) (hmore ())

/-! ## Other values in place of strings and their arrays -/

theorem readString_refused {b : UInt8} (hb : Begins b) (hquote : b ≠ byte '"') (t : List UInt8) :
    readString (b :: t) = .error (refusal (b :: t)) := by
  rw [readString, skipBlank_cons hb.notBlank]
  exact if_neg hquote

theorem readNames_refused {b : UInt8} (hb : Begins b) (hopening : b ≠ byte '[') (t : List UInt8) :
    readNames (b :: t) = .error (refusal (b :: t)) := by
  rw [readNames, skipBlank_cons hb.notBlank]
  exact if_neg hopening

theorem passes_readString {s : List UInt8} (h : IsValue s) (hrest : Delimited rest) :
    Passes (fun a => a.2 = rest) (readString (s ++ rest)) := by
  have hrefused : ∀ b t, s = b :: t → b ≠ byte '"' →
      Passes (fun a => a.2 = rest) (readString (s ++ rest)) := by
    rintro b t rfl hquote
    rw [List.cons_append, readString_refused h.begins hquote, ← List.cons_append,
      refusal_append h hrest]
    exact .malformed
  cases h with
  | scalar h =>
    cases h with
    | word h =>
      simp only [List.mem_cons, List.not_mem_nil, or_false] at h
      rcases h with rfl | rfl | rfl <;> exact hrefused _ _ rfl (by decide)
    | number h =>
      obtain ⟨b, t, rfl, hb⟩ := h.exists_cons
      exact hrefused b t rfl (ne_of_beginsNumber hb).1
    | @string t h =>
      rw [List.cons_append, List.append_assoc, List.singleton_append, readString,
        skipBlank_cons (by decide)]
      show Passes _ (if _ then _ else _)
      rw [if_pos rfl]
      exact (passes_readText h).map fun _ ha => ha
  | @empty inside ws hws => exact hrefused _ _ rfl (by cases inside <;> decide)
  | @nested inside t h => exact hrefused _ _ rfl (by cases inside <;> decide)

theorem passes_readStrings_item {s tail : List UInt8} (hlead : Lead first lead) (hws : IsBlank ws)
    (h : IsValue s) (htail : Delimited tail) {fuel : Nat}
    (hmore : Passes (fun a => a.2 = rest) (readStrings fuel false tail)) :
    Passes (fun a => a.2 = rest)
      (readStrings (fuel + 1) first (lead ++ (ws ++ (s ++ tail)))) := by
  have hstring := passes_readString h htail
  obtain ⟨b, t, rfl, hb⟩ := h.exists_cons
  rw [List.cons_append] at hstring ⊢
  rw [readStrings, nextItem_append hlead hws hb]
  refine hstring.bind ?_
  rintro ⟨name, _⟩ rfl
  refine hmore.bind ?_
  rintro ⟨names, _⟩ rfl
  exact .ok rfl

/-- **A value in place of an array of strings is read up to its end or wrong in itself.** -/
theorem passes_readNames {s : List UInt8} (h : IsValue s) (hws : IsBlank ws)
    (hrest : Delimited rest) : Passes (fun a => a.2 = rest) (readNames (ws ++ (s ++ rest))) := by
  have hrefused : ∀ b t, s = b :: t → b ≠ byte '[' →
      Passes (fun a => a.2 = rest) (readNames (s ++ rest)) := by
    rintro b t rfl hopening
    rw [List.cons_append, readNames_refused h.begins hopening, ← List.cons_append,
      refusal_append h hrest]
    exact .malformed
  rw [readNames_blank hws]
  rcases h.scalar_or_enclosed with hscalar | ⟨_ | _, _, hitems⟩
  · obtain ⟨b, t, rfl, hb⟩ := hscalar.exists_cons
    exact hrefused b t rfl (hb.notOpening .array)
  · refine read_enclosed (fun fuel first (_ : Unit) => readStrings fuel first)
      (fun _ _ r => Passes (fun a => a.2 = rest) r) ?_ ?_ () readNames_opening hitems
    · intro fuel first _ ws hws
      exact .of_eq_ok (readStrings_end hws fuel first rest) rfl
    · rintro fuel first _ lead ws s tail _ _ hlead hws ⟨h⟩ htail hmore
      exact passes_readStrings_item hlead hws h htail (hmore ())
  · cases hitems <;> exact hrefused _ _ rfl (by decide)

/-! ## Values of members -/

section

variable {α : Type} {read : List UInt8 → Except Failure (α × List UInt8)} {s : List UInt8}

/-- A known member is read only once. -/
theorem passes_memberOf {old : Option α} {P : α × List UInt8 → Prop} (hws : IsBlank ws)
    (h : Passes P (read s)) :
    Passes (fun a => old = none ∧ ∃ v, a.1 = some v ∧ P (v, a.2))
      (memberOf old read (ws ++ byte ':' :: s)) := by
  cases old with
  | some v => exact .malformed
  | none =>
    rw [memberOf_append hws]
    exact h.map fun a ha => ⟨rfl, a.1, rfl, ha⟩

theorem ignored_append (hws : IsBlank ws) (h : IsValue s) (hrest : Delimited rest) :
    ignored (ws ++ (s ++ rest)) = .ok ((), rest) := by
  rw [ignored, skipValue_append hws h hrest]
  rfl

end

end

end LayoutShell.Layout.Database
