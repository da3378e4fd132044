import LayoutShell.Text.Space
import LayoutShell.Text.Utf8

/-!
# Cutting texts

* `forall_mem_of_all` checks the characters of a given text one by one.
* `splitFirst_eq` says where a text is cut, `splitFirst_append` and `splitFirst_eq_none` where it
  consists of known parts. `exists_of_splitFirst` finds the parts.
* `dropRightWhile_append` drops a tail of two texts, and `words_trimRight` says that white space at
  the end of a text makes no word.
* `size_append` counts the bytes of two texts.
-/

namespace LayoutShell.Text

/-- A property of the characters of a given text is checked along the text. -/
theorem forall_mem_of_all {p : Char → Prop} [DecidablePred p] {s : List Char}
    (h : (s.all fun c => decide (p c)) = true) : ∀ c ∈ s, p c :=
  fun c hc => of_decide_eq_true (List.all_eq_true.1 h c hc)

/-- A text is cut at its first character at which it may be cut, if there is one. -/
theorem splitFirst_eq (p : Char → Bool) (s : List Char) :
    splitFirst p s =
      (s.dropWhile fun c => !p c).head?.map fun _ =>
        (s.takeWhile fun c => !p c, (s.dropWhile fun c => !p c).tail) := by
  induction s with
  | nil => rfl
  | cons c s ih =>
    cases hc : p c with
    | true => simp [splitFirst, hc]
    | false => simp [splitFirst, hc, ih, Function.comp_def]

theorem splitFirst_append {p : Char → Bool} {s : List Char} (hs : ∀ c ∈ s, p c = false) {d : Char}
    (hd : p d = true) (rest : List Char) : splitFirst p (s ++ d :: rest) = some (s, rest) := by
  induction s with
  | nil => simp [splitFirst, hd]
  | cons c s ih =>
    have hc := hs c List.mem_cons_self
    simp [splitFirst, hc, ih fun e he => hs e (List.mem_cons_of_mem _ he)]

theorem splitFirst_eq_none {p : Char → Bool} {s : List Char} (hs : ∀ c ∈ s, p c = false) :
    splitFirst p s = none := by
  induction s with
  | nil => rfl
  | cons c s ih =>
    have hc := hs c List.mem_cons_self
    simp [splitFirst, hc, ih fun e he => hs e (List.mem_cons_of_mem _ he)]

/-- A text that is cut is what stands before the cut, the character there, and what follows. -/
theorem exists_of_splitFirst {p : Char → Bool} {s before after : List Char}
    (h : splitFirst p s = some (before, after)) :
    ∃ d, s = before ++ d :: after ∧ (∀ c ∈ before, p c = false) ∧ p d = true := by
  induction s generalizing before with
  | nil => cases h
  | cons c s ih =>
    cases hc : p c with
    | true =>
      simp only [splitFirst, hc, if_true, Option.some.injEq, Prod.mk.injEq] at h
      obtain ⟨rfl, rfl⟩ := h
      exact ⟨c, rfl, by simp, hc⟩
    | false =>
      simp only [splitFirst, hc, Bool.false_eq_true, if_false, Option.map_eq_some_iff] at h
      obtain ⟨⟨before, after⟩, hs, h⟩ := h
      obtain ⟨rfl, rfl⟩ := Prod.mk.inj h
      obtain ⟨d, rfl, hbefore, hd⟩ := ih hs
      exact ⟨d, rfl, List.forall_mem_cons.2 ⟨hc, hbefore⟩, hd⟩

@[simp]
theorem size_append (s t : List Char) : size (s ++ t) = size s + size t := by
  induction s with
  | nil => simp [size]
  | cons c s ih =>
    simp only [List.cons_append, size, ih]
    omega

/-! ## White space at the end -/

theorem dropRightWhile_append (p : Char → Bool) (s t : List Char) :
    dropRightWhile p (s ++ t) =
      if dropRightWhile p t = [] then dropRightWhile p s else s ++ dropRightWhile p t := by
  simp only [dropRightWhile, List.reverse_append, List.dropWhile_append, List.reverse_eq_nil_iff,
    List.isEmpty_iff]
  split
  · rfl
  · rw [List.reverse_append, List.reverse_reverse]

theorem dropRightWhile_of_not {p : Char → Bool} {s : List Char} (h : ∀ c ∈ s, p c = false) :
    dropRightWhile p s = s := by
  have hs : s.reverse.dropWhile p = s.reverse := by
    cases hr : s.reverse with
    | nil => rfl
    | cons c r =>
      have hc : c ∈ s := List.mem_reverse.1 (hr ▸ List.mem_cons_self)
      exact List.dropWhile_cons_of_neg (Bool.eq_false_iff.1 (h c hc))
  rw [dropRightWhile, hs, List.reverse_reverse]

/-- What is dropped from a text stands at its end. -/
theorem exists_dropRightWhile_append (p : Char → Bool) (s : List Char) :
    ∃ tail, dropRightWhile p s ++ tail = s ∧ ∀ c ∈ tail, p c = true := by
  refine ⟨(s.reverse.takeWhile p).reverse, ?_, fun c hc => ?_⟩
  · rw [dropRightWhile, ← List.reverse_append, List.takeWhile_append_dropWhile,
      List.reverse_reverse]
  · exact List.all_eq_true.1 List.all_takeWhile c (List.mem_reverse.1 hc)

theorem cutWords_of_isSpace {s : List Char} (h : ∀ c ∈ s, isSpace c = true) :
    cutWords s = ([], []) := by
  induction s with
  | nil => rfl
  | cons c s ih =>
    rw [List.forall_mem_cons] at h
    rw [cutWords, ih h.2]
    exact if_pos h.1

theorem cutWords_append {tail : List Char} (h : ∀ c ∈ tail, isSpace c = true) (s : List Char) :
    cutWords (s ++ tail) = cutWords s := by
  induction s with
  | nil => exact cutWords_of_isSpace h
  | cons c s ih => rw [List.cons_append, cutWords, cutWords, ih]

theorem words_trimRight (s : List Char) : words (trimRight s) = words s := by
  obtain ⟨tail, hs, htail⟩ := exists_dropRightWhile_append isSpace s
  have hcut := cutWords_append htail (trimRight s)
  rw [trimRight, hs] at hcut
  rw [words, words, trimRight, hcut]

end LayoutShell.Text
