import LayoutShell.Markup.Entity
import LayoutShell.Proofs.Text.Cutting
import LayoutShell.Text.Space
import Mathlib.Data.List.DropRight
import Mathlib.Tactic.SplitIfs

/-!
# Escaped text

Writing a text with the five named entities and reading it back gives the text again.

* `expandFrom_cons` and `expandFrom_reference` are the two steps of an expansion: a character that
  stands for itself, and a reference.
* `expand_escape` is the round trip.
* `not_mem_escape` says which characters an escaped text never holds, and `dropWhile_escape` and
  `dropRightWhile_escape` that space at its ends is space at the ends of the text itself.
-/

namespace LayoutShell.Markup.Entity

open Text

/-! ## One step of an expansion -/

/-- The expansion of a tail that begins with an ampersand at byte `place`, put after `plain`. -/
def expandMark (place total : Nat) (plain rest : List Char) : Except EntityError (List Char) :=
  match cutAtMark rest with
  | some (name, ';', after) => do
    let c ← resolve place (place + 1 + size name) name
    (expandFrom (place + 1 + size name + 1) total after).map fun s => plain ++ c :: s
  | _ => .error (.unterminated place total)

theorem expandMark_cons (place total : Nat) (c : Char) (plain rest : List Char) :
    expandMark place total (c :: plain) rest =
      (expandMark place total plain rest).map (c :: ·) := by
  unfold expandMark
  split
  · next name after _ =>
    cases resolve place (place + 1 + size name) name with
    | error e => rfl
    | ok d => cases expandFrom (place + 1 + size name + 1) total after <;> rfl
  · rfl

theorem expandFrom_eq (start total : Nat) (s : List Char) :
    expandFrom start total s =
      match s.dropWhile (· ≠ '&') with
      | [] => .ok (s.takeWhile (· ≠ '&'))
      | _ :: rest =>
        expandMark (start + size (s.takeWhile (· ≠ '&'))) total (s.takeWhile (· ≠ '&')) rest := by
  rw [expandFrom]
  generalize s.takeWhile (· ≠ '&') = plain
  cases s.dropWhile (· ≠ '&') with
  | nil => rfl
  | cons d rest =>
    dsimp only
    unfold expandMark
    split
    · next h => rw [h]; rfl
    · next h =>
      split
      · next h' => exact absurd h' (h _ _)
      · rfl

/-- A character other than an ampersand stands for itself. -/
theorem expandFrom_cons {c : Char} (hc : c ≠ '&') (start total : Nat) (s : List Char) :
    expandFrom start total (c :: s) = (expandFrom (start + c.utf8Size) total s).map (c :: ·) := by
  have htake : (c :: s).takeWhile (· ≠ '&') = c :: s.takeWhile (· ≠ '&') := by simp [hc]
  have hdrop : (c :: s).dropWhile (· ≠ '&') = s.dropWhile (· ≠ '&') := by simp [hc]
  have hsize : start + size (c :: s.takeWhile (· ≠ '&')) =
      start + c.utf8Size + size (s.takeWhile (· ≠ '&')) := by
    rw [size]; omega
  rw [expandFrom_eq, expandFrom_eq, htake, hdrop, hsize]
  cases s.dropWhile (· ≠ '&') with
  | nil => rfl
  | cons d rest => exact expandMark_cons ..

theorem cutAtMark_append {name : List Char} (h : ∀ c ∈ name, c ≠ '&' ∧ c ≠ ';') (s : List Char) :
    cutAtMark (name ++ ';' :: s) = some (name, ';', s) := by
  induction name with
  | nil => simp [cutAtMark]
  | cons c name ih =>
    obtain ⟨h₁, h₂⟩ := h c List.mem_cons_self
    simp [cutAtMark, h₁, h₂, ih fun d hd => h d (List.mem_cons_of_mem _ hd)]

theorem expandFrom_mark (start total : Nat) (s : List Char) :
    expandFrom start total ('&' :: s) = expandMark start total [] s := by
  have hdrop : ('&' :: s).dropWhile (· ≠ '&') = '&' :: s := by simp
  have htake : ('&' :: s).takeWhile (· ≠ '&') = [] := by simp
  rw [expandFrom_eq, hdrop, htake]
  rfl

/-- A reference stands for the character to which its name resolves. -/
theorem expandFrom_reference {name : List Char} (hname : ∀ d ∈ name, d ≠ '&' ∧ d ≠ ';')
    (start total : Nat) (s : List Char) :
    expandFrom start total ('&' :: name ++ ';' :: s) =
      (resolve start (start + 1 + size name) name >>= fun c =>
        (expandFrom (start + 1 + size name + 1) total s).map (c :: ·)) := by
  rw [List.cons_append, expandFrom_mark, expandMark, cutAtMark_append hname]
  rfl

/-- A named entity stands for its character. -/
theorem expandFrom_named {name : List Char} {c : Char} (hname : ∀ d ∈ name, d ≠ '&' ∧ d ≠ ';')
    (hc : ∀ start stop, resolve start stop name = .ok c) (start total : Nat) (s : List Char) :
    expandFrom start total ('&' :: name ++ ';' :: s) =
      (expandFrom (start + 1 + size name + 1) total s).map (c :: ·) := by
  rw [expandFrom_reference hname, hc]
  rfl

/-! ## The round trip -/

@[simp]
theorem escape_nil : escape [] = [] := rfl

@[simp]
theorem escape_cons (c : Char) (s : List Char) : escape (c :: s) = escapeChar c ++ escape s :=
  List.flatMap_cons

@[simp]
theorem escape_append (s t : List Char) : escape (s ++ t) = escape s ++ escape t :=
  List.flatMap_append

/-- The names of the entities that an escaped text uses. -/
def entityNames : List (List Char) :=
  ["lt".toList, "gt".toList, "amp".toList, "apos".toList, "quot".toList]

/-- A character is escaped as an entity, or it stands for itself. -/
theorem escapeChar_cases (c : Char) :
    (∃ name ∈ entityNames, escapeChar c = '&' :: name ++ [';'] ∧ named? name = some c) ∨
      (escapeChar c = [c] ∧ c ∉ ['<', '>', '&', '\'', '"']) := by
  unfold escapeChar
  split_ifs with h₁ h₂ h₃ h₄ h₅
  · exact .inl ⟨"lt".toList, by decide, rfl, h₁ ▸ rfl⟩
  · exact .inl ⟨"gt".toList, by decide, rfl, h₂ ▸ rfl⟩
  · exact .inl ⟨"amp".toList, by decide, rfl, h₃ ▸ rfl⟩
  · exact .inl ⟨"apos".toList, by decide, rfl, h₄ ▸ rfl⟩
  · exact .inl ⟨"quot".toList, by decide, rfl, h₅ ▸ rfl⟩
  · exact .inr ⟨rfl, by simp [h₁, h₂, h₃, h₄, h₅]⟩

theorem resolve_entityName {name : List Char} (hname : name ∈ entityNames) {c : Char}
    (hc : named? name = some c) (start stop : Nat) : resolve start stop name = .ok c := by
  unfold resolve
  split
  · next number => simp [entityNames] at hname
  · rw [hc]

theorem entityName_ne {name : List Char} (hname : name ∈ entityNames) :
    ∀ d ∈ name, d ∉ ['<', '>', '&', '\'', '"', ';', ' ', '\t', '\r', '\n'] := by
  have hall : (entityNames.all fun name => name.all fun d =>
      decide (d ∉ ['<', '>', '&', '\'', '"', ';', ' ', '\t', '\r', '\n'])) = true := by decide
  exact forall_mem_of_all (List.all_eq_true.1 hall name hname)

theorem expandFrom_escape (s : List Char) (start total : Nat) :
    expandFrom start total (escape s) = .ok s := by
  induction s generalizing start with
  | nil =>
    rw [escape_nil, expandFrom_eq]
    rfl
  | cons c s ih =>
    rw [escape_cons]
    rcases escapeChar_cases c with ⟨name, hname, he, hc⟩ | ⟨he, hc⟩
    · have hne : ∀ d ∈ name, d ≠ '&' ∧ d ≠ ';' := fun d hd => by
        have := entityName_ne hname d hd
        simp only [List.mem_cons, not_or] at this
        exact ⟨this.2.2.1, this.2.2.2.2.2.1⟩
      rw [he, List.append_assoc, List.singleton_append,
        expandFrom_named hne (resolve_entityName hname hc), ih]
      rfl
    · have hamp : c ≠ '&' := fun h => hc (by simp [h])
      rw [he, List.singleton_append, expandFrom_cons hamp, ih]
      rfl

/-- **Escaping a text and expanding its entities gives the text back.** -/
theorem expand_escape (s : List Char) : expand (escape s) = .ok s := expandFrom_escape s 0 _

/-! ## The characters of an escaped text -/

theorem not_mem_escape {c : Char} (hc : c ∈ ['<', '>', '\'', '"']) (s : List Char) :
    c ∉ escape s := by
  intro h
  obtain ⟨d, -, hd⟩ := List.mem_flatMap.1 h
  rcases escapeChar_cases d with ⟨name, hname, he, -⟩ | ⟨he, hne⟩
  · rw [he] at hd
    simp only [List.cons_append, List.mem_cons, List.mem_append, List.not_mem_nil, or_false] at hd
    rcases hd with rfl | hd | rfl
    · exact absurd hc (by decide)
    · have := entityName_ne hname c hd
      grind
    · exact absurd hc (by decide)
  · rw [he, List.mem_singleton] at hd
    subst hd
    grind

theorem escapeChar_of_space {c : Char} (hc : isMarkupSpace c) : escapeChar c = [c] := by
  simp only [isMarkupSpace, Bool.or_eq_true, beq_iff_eq] at hc
  rcases hc with ((rfl | rfl) | rfl) | rfl <;> rfl

/-- The ends of an escaped character are space only if it is. -/
theorem escapeChar_of_not_space {c : Char} (hc : ¬isMarkupSpace c) :
    (∃ d l, escapeChar c = d :: l ∧ ¬isMarkupSpace d) ∧
      ∃ l d, escapeChar c = l ++ [d] ∧ ¬isMarkupSpace d := by
  rcases escapeChar_cases c with ⟨name, -, he, -⟩ | ⟨he, -⟩
  · exact ⟨⟨'&', name ++ [';'], he, by decide⟩, '&' :: name, ';', he, by decide⟩
  · exact ⟨⟨c, [], he, hc⟩, [], c, he, hc⟩

theorem dropWhile_escape (s : List Char) {c : Char} (hc : ¬isMarkupSpace c) (rest : List Char) :
    (escape s ++ c :: rest).dropWhile isMarkupSpace =
      escape (s.dropWhile isMarkupSpace) ++ c :: rest := by
  induction s with
  | nil => simp [hc]
  | cons d s ih =>
    by_cases hd : isMarkupSpace d
    · rw [escape_cons, escapeChar_of_space hd, List.dropWhile_cons_of_pos hd, ← ih]
      exact List.dropWhile_cons_of_pos hd
    · obtain ⟨⟨e, l, he, hne⟩, -⟩ := escapeChar_of_not_space hd
      rw [List.dropWhile_cons_of_neg hd, escape_cons, he]
      exact List.dropWhile_cons_of_neg hne

theorem dropRightWhile_escape (s : List Char) :
    dropRightWhile isMarkupSpace (escape s) = escape (dropRightWhile isMarkupSpace s) := by
  change (escape s).rdropWhile isMarkupSpace = escape (s.rdropWhile isMarkupSpace)
  induction s using List.reverseRecOn with
  | nil => rfl
  | append_singleton s c ih =>
    rw [escape_append, List.rdropWhile_concat]
    by_cases hc : isMarkupSpace c
    · rw [if_pos hc, escape_cons, escapeChar_of_space hc, ← ih]
      exact List.rdropWhile_concat_pos _ _ _ hc
    · obtain ⟨-, l, d, hd, hne⟩ := escapeChar_of_not_space hc
      rw [if_neg hc, escape_append, escape_cons, hd, escape_nil, List.append_nil,
        ← List.append_assoc]
      exact List.rdropWhile_concat_neg _ _ _ hne

end LayoutShell.Markup.Entity
