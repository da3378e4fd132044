import LayoutShell.Proofs.Text.Cutting
import Mathlib.Data.List.Basic
import Mathlib.Data.List.TakeWhile

/-!
# Words and what stands around them

A text is white space, then something that neither begins nor ends with white space, and white space
again. Its words stand between its runs of white space.

* `Trimmed` says that a text has no white space at its ends. `trim_surrounded` and `exists_trim` say
  that trimming takes away what surrounds such a text, and nothing else.
* `words_eq_nil_iff` and `words_eq_cons_iff` say what the words of a text are, one after another.
* `words_intercalate` reads back words that are written with spaces between them.
* `Spaced` says that a text is made of some words and white space. `words_eq_iff` says that these
  are its words, and `words_append_gap` that white space between two texts keeps their words apart.
-/

namespace LayoutShell.Text

/-- A text that begins and ends with something other than white space. -/
structure Trimmed (s : List Char) : Prop where
  ne_nil : s ≠ []
  first : ∀ c ∈ s.head?, isSpace c = false
  last : ∀ c ∈ s.getLast?, isSpace c = false

/-- A word is not empty and holds no white space. -/
structure IsToken (word : List Char) : Prop where
  ne_nil : word ≠ []
  noSpace : ∀ c ∈ word, isSpace c = false

theorem IsToken.trimmed {word : List Char} (h : IsToken word) : Trimmed word where
  ne_nil := h.ne_nil
  first c hc := h.noSpace c (List.mem_of_head? hc)
  last c hc := h.noSpace c (List.mem_of_getLast? hc)

/-- What is put between two texts does not matter for their ends. -/
theorem Trimmed.append {s t : List Char} (hs : Trimmed s) (ht : Trimmed t) (gap : List Char) :
    Trimmed (s ++ (gap ++ t)) where
  ne_nil := by simp [hs.ne_nil]
  first c hc := by
    rw [List.head?_append_of_ne_nil _ hs.ne_nil] at hc
    exact hs.first c hc
  last c hc := by
    rw [List.getLast?_append_of_ne_nil _ (by simp [ht.ne_nil]),
      List.getLast?_append_of_ne_nil _ ht.ne_nil] at hc
    exact ht.last c hc

/-! ## Trimming -/

theorem dropWhile_eq_self_of_head? {s : List Char} (h : ∀ c ∈ s.head?, isSpace c = false) :
    s.dropWhile isSpace = s := by
  cases s with
  | nil => rfl
  | cons c s => exact List.dropWhile_cons_of_neg (Bool.eq_false_iff.1 (h c rfl))

theorem trim_surrounded {before s after : List Char} (hbefore : ∀ c ∈ before, isSpace c = true)
    (hs : Trimmed s) (hafter : ∀ c ∈ after, isSpace c = true) :
    trim (before ++ (s ++ after)) = s := by
  have hleft : trimLeft (before ++ (s ++ after)) = s ++ after := by
    rw [trimLeft, List.dropWhile_append_of_pos hbefore]
    apply dropWhile_eq_self_of_head?
    rw [List.head?_append_of_ne_nil _ hs.ne_nil]
    exact hs.first
  have hblank : dropRightWhile isSpace after = [] := by
    rw [dropRightWhile, List.dropWhile_eq_nil_iff.2 fun c hc => hafter c (List.mem_reverse.1 hc)]
    rfl
  rw [trim, hleft, trimRight, dropRightWhile_append, if_pos hblank, dropRightWhile,
    dropWhile_eq_self_of_head? (by rw [List.head?_reverse]; exact hs.last), List.reverse_reverse]

theorem Trimmed.trim_eq {s : List Char} (h : Trimmed s) : trim s = s := by
  have hsurrounded := trim_surrounded (List.forall_mem_nil _) h (List.forall_mem_nil _)
  rwa [List.nil_append, List.append_nil] at hsurrounded

theorem exists_trim (s : List Char) :
    ∃ before after, s = before ++ (trim s ++ after) ∧ (∀ c ∈ before, isSpace c = true) ∧
      ∀ c ∈ after, isSpace c = true := by
  obtain ⟨after, hs, hafter⟩ := exists_dropRightWhile_append isSpace (trimLeft s)
  refine ⟨s.takeWhile isSpace, after, ?_, List.all_eq_true.1 List.all_takeWhile, hafter⟩
  rw [trim, trimRight, hs]
  exact List.takeWhile_append_dropWhile.symm

theorem not_isSpace_of_mem_dropWhile {s : List Char} {c : Char}
    (h : c ∈ (s.dropWhile isSpace).head?) : isSpace c = false := by
  have hhead := List.head?_dropWhile_not isSpace s
  rw [Option.mem_def.1 h] at hhead
  exact hhead

theorem trimmed_trim {s : List Char} (h : trim s ≠ []) : Trimmed (trim s) where
  ne_nil := h
  first c hc := by
    obtain ⟨after, hs, -⟩ := exists_dropRightWhile_append isSpace (trimLeft s)
    have hhead : (trim s ++ after).head? = (trim s).head? := List.head?_append_of_ne_nil _ h
    rw [trim, trimRight, hs, ← trimRight, ← trim] at hhead
    exact not_isSpace_of_mem_dropWhile (hhead ▸ hc)
  last c hc := by
    rw [trim, trimRight, dropRightWhile, List.getLast?_reverse] at hc
    exact not_isSpace_of_mem_dropWhile hc

theorem trim_eq_nil_iff {s : List Char} : trim s = [] ↔ ∀ c ∈ s, isSpace c = true := by
  constructor
  · intro h
    obtain ⟨before, after, hs, hbefore, hafter⟩ := exists_trim s
    rw [h, List.nil_append] at hs
    rw [hs, List.forall_mem_append]
    exact ⟨hbefore, hafter⟩
  · intro h
    by_contra hne
    obtain ⟨before, after, hs, -, -⟩ := exists_trim s
    obtain ⟨c, rest, hc⟩ := List.exists_cons_of_ne_nil hne
    have hmem : c ∈ s := by
      rw [hs, hc]
      simp
    have hfirst := (trimmed_trim hne).first c (by rw [hc]; rfl)
    rw [h c hmem] at hfirst
    cases hfirst

/-! ## Words -/

theorem words_cons_of_isSpace {c : Char} (hc : isSpace c = true) (s : List Char) :
    words (c :: s) = words s := by
  simp only [words, cutWords, hc, if_true]
  rfl

theorem words_append_left {gap : List Char} (h : ∀ c ∈ gap, isSpace c = true) (s : List Char) :
    words (gap ++ s) = words s := by
  induction gap with
  | nil => rfl
  | cons c gap ih =>
    rw [List.forall_mem_cons] at h
    rw [List.cons_append, words_cons_of_isSpace h.1, ih h.2]

theorem cutWords_word_append {word : List Char} (h : ∀ c ∈ word, isSpace c = false)
    (rest : List Char) :
    cutWords (word ++ rest) = (word ++ (cutWords rest).1, (cutWords rest).2) := by
  induction word with
  | nil => rfl
  | cons c word ih =>
    rw [List.forall_mem_cons] at h
    rw [List.cons_append, cutWords, ih h.2, h.1]
    rfl

/-- A word that ends where white space begins comes before the words after it. -/
theorem words_word_append {word : List Char} (h : IsToken word) {rest : List Char}
    (hrest : ∀ c ∈ rest.head?, isSpace c = true) : words (word ++ rest) = word :: words rest := by
  have hcut : (cutWords rest).1 = [] := by
    cases rest with
    | nil => rfl
    | cons c rest => simp [cutWords, hrest c rfl]
  simp only [words, cutWords_word_append h.noSpace, hcut, List.append_nil]
  simp [pushWord, h.ne_nil]

theorem words_trim (s : List Char) : words (trim s) = words s := by
  have hleft : words (trimLeft s) = words s := by
    rw [← words_append_left (List.all_eq_true.1 List.all_takeWhile) (trimLeft s), trimLeft,
      List.takeWhile_append_dropWhile]
  rw [trim, words_trimRight, hleft]

/-- A text that is not blank begins with a word. -/
theorem exists_word {s : List Char} (h : ¬∀ c ∈ s, isSpace c = true) :
    ∃ gap word rest, s = gap ++ (word ++ rest) ∧ (∀ c ∈ gap, isSpace c = true) ∧ IsToken word ∧
      ∀ c ∈ rest.head?, isSpace c = true := by
  have hrest : s.dropWhile isSpace ≠ [] := fun hnil => h (List.dropWhile_eq_nil_iff.1 hnil)
  obtain ⟨c, tail, hcons⟩ := List.exists_cons_of_ne_nil hrest
  have hc : isSpace c = false := not_isSpace_of_mem_dropWhile (s := s) (by rw [hcons]; rfl)
  refine ⟨s.takeWhile isSpace, (c :: tail).takeWhile (fun c => !isSpace c),
    (c :: tail).dropWhile (fun c => !isSpace c), ?_, List.all_eq_true.1 List.all_takeWhile,
    ⟨?_, fun d hd => ?_⟩, fun d hd => ?_⟩
  · rw [List.takeWhile_append_dropWhile, ← hcons, List.takeWhile_append_dropWhile]
  · simp [hc]
  · simpa using List.all_eq_true.1 List.all_takeWhile d hd
  · have hhead := List.head?_dropWhile_not (fun c => !isSpace c) (c :: tail)
    rw [Option.mem_def.1 hd] at hhead
    simpa using hhead

theorem words_eq_nil_iff {s : List Char} : words s = [] ↔ ∀ c ∈ s, isSpace c = true := by
  constructor
  · intro hnil
    by_contra h
    obtain ⟨gap, word, rest, rfl, hgap, hword, hrest⟩ := exists_word h
    rw [words_append_left hgap, words_word_append hword hrest] at hnil
    cases hnil
  · intro h
    rw [words, cutWords_of_isSpace h]
    rfl

/-- The first word of a text is what stands after white space up to the next white space, and the
others are the words of the rest. -/
theorem words_eq_cons_iff {s word : List Char} {others : List (List Char)} :
    words s = word :: others ↔
      ∃ gap rest, s = gap ++ (word ++ rest) ∧ (∀ c ∈ gap, isSpace c = true) ∧ IsToken word ∧
        (∀ c ∈ rest.head?, isSpace c = true) ∧ words rest = others := by
  constructor
  · intro hcons
    have hblank : ¬∀ c ∈ s, isSpace c = true := fun h => by
      rw [words_eq_nil_iff.2 h] at hcons
      cases hcons
    obtain ⟨gap, first, rest, rfl, hgap, hfirst, hrest⟩ := exists_word hblank
    rw [words_append_left hgap, words_word_append hfirst hrest] at hcons
    obtain ⟨rfl, hothers⟩ := List.cons.inj hcons
    exact ⟨gap, rest, rfl, hgap, hfirst, hrest, hothers⟩
  · rintro ⟨gap, rest, rfl, hgap, hword, hrest, rfl⟩
    rw [words_append_left hgap, words_word_append hword hrest]

theorem words_intercalate {ws : List (List Char)} (h : ∀ word ∈ ws, IsToken word) :
    words ([' '].intercalate ws) = ws := by
  induction ws with
  | nil => rfl
  | cons word ws ih =>
    rw [List.forall_mem_cons] at h
    cases ws with
    | nil =>
      have hword : words (word ++ []) = word :: words [] := words_word_append h.1 (by simp)
      rw [List.append_nil] at hword
      rw [List.intercalate_singleton, hword]
      rfl
    | cons next ws =>
      rw [List.intercalate_cons_cons, List.append_assoc, List.singleton_append,
        words_word_append h.1 (by simp [show isSpace ' ' = true from rfl]),
        words_cons_of_isSpace rfl, ih h.2]

/-! ## Texts made of words -/

/-- The text is made of these words, with white space between them and perhaps around them. A word
ends where the text ends or where white space begins. -/
inductive Spaced : List (List Char) → List Char → Prop
  | blank {gap : List Char} (hgap : ∀ c ∈ gap, isSpace c = true) : Spaced [] gap
  | word {gap word rest : List Char} {others : List (List Char)}
      (hgap : ∀ c ∈ gap, isSpace c = true) (hword : IsToken word)
      (hend : ∀ c ∈ rest.head?, isSpace c = true) (hrest : Spaced others rest) :
      Spaced (word :: others) (gap ++ (word ++ rest))

theorem spaced_words (s : List Char) : Spaced (words s) s := by
  generalize hws : words s = ws
  induction ws generalizing s with
  | nil => exact .blank (words_eq_nil_iff.1 hws)
  | cons word others ih =>
    obtain ⟨gap, rest, rfl, hgap, hword, hend, hothers⟩ := words_eq_cons_iff.1 hws
    exact .word hgap hword hend (ih rest hothers)

theorem Spaced.words_eq {ws : List (List Char)} {s : List Char} (h : Spaced ws s) :
    words s = ws := by
  induction h with
  | blank hgap => exact words_eq_nil_iff.2 hgap
  | word hgap hword hend _ ih => exact words_eq_cons_iff.2 ⟨_, _, rfl, hgap, hword, hend, ih⟩

/-- **The words of a text are those that it is made of.** -/
theorem words_eq_iff {ws : List (List Char)} {s : List Char} : words s = ws ↔ Spaced ws s :=
  ⟨fun h => h ▸ spaced_words s, Spaced.words_eq⟩

theorem words_append_gap {gap : List Char} (hgap : ∀ c ∈ gap, isSpace c = true) (hne : gap ≠ [])
    (a b : List Char) : words (a ++ (gap ++ b)) = words a ++ words b := by
  have hhead : ∀ c ∈ (gap ++ b).head?, isSpace c = true := by
    obtain ⟨c, gap, rfl⟩ := List.exists_cons_of_ne_nil hne
    simp [hgap c List.mem_cons_self]
  have ha := spaced_words a
  generalize words a = ws at ha
  -- along the words of the first text, each of which still ends where it did
  induction ha with
  | blank hblank => rw [words_append_left hblank, words_append_left hgap, List.nil_append]
  | @word before word rest others hbefore hword hend _ ih =>
    have hend' : ∀ c ∈ (rest ++ (gap ++ b)).head?, isSpace c = true := by
      cases rest with
      | nil => exact hhead
      | cons c rest => exact hend
    rw [List.append_assoc, List.append_assoc, words_append_left hbefore,
      words_word_append hword hend', ih, List.cons_append]

end LayoutShell.Text
