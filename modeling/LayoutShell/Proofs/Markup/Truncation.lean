import LayoutShell.Proofs.Markup.Tree

/-!
# Markup that is cut short

The end of a document also ends the tag or the text that is open there. So the beginning of a
written tag is read as a tag, and as an empty one if the cut falls behind a slash.

* `read_cutTag`, `read_cutEndTag` and `read_cutText` say what is read of the tag or the text in
  which a document is cut.
* `exists_item_of_slash`: in a written tag a slash can only stand in the value of an item.
* `exists_not_isFound`: an item that is cut in its value is malformed.
-/

namespace LayoutShell.Markup

open Text

/-! ## Tags -/

/-- The beginning of a tag is all tag. -/
theorem cutTag_of_append {quote : Option Char} {s t before after : List Char}
    (h : cutTag quote (s ++ t) = (s ++ before, after)) : cutTag quote s = (s, []) := by
  induction s generalizing quote with
  | nil => rfl
  | cons c s ih =>
    rw [List.cons_append, cutTag] at h
    rw [cutTag]
    split at h
    · cases (Prod.mk.inj h).1
    · rw [if_neg ‹_›]
      obtain ⟨hbefore, hafter⟩ := Prod.mk.inj h
      rw [ih (Prod.ext (List.cons.inj hbefore).2 hafter)]

/-- A tag that is cut short is a start tag, or an empty tag if the cut falls behind a slash. -/
theorem read_cutTag {tag : Name} {items : List Item} {s t : List Char}
    (hs : s ++ t = tagText tag items) (hne : s ≠ []) :
    Lexeme.read ('<' :: s) = .found (.startTag s) [] ∨
      ∃ content, s = content ++ ['/'] ∧ Lexeme.read ('<' :: s) = .found (.emptyTag content) [] := by
  have hcut : cutTag none s = (s, []) := by
    have htag := cutTag_tagText tag items (t := []) rfl
    rw [List.append_nil, ← hs] at htag
    exact cutTag_of_append htag
  have hread : Lexeme.read ('<' :: s) = Lexeme.readTag s := by
    obtain ⟨c, s, rfl⟩ := List.exists_cons_of_ne_nil hne
    obtain ⟨d, chars, hchars⟩ := List.exists_cons_of_ne_nil tag.chars_ne_nil
    have hc : c ∈ tag.chars := by
      rw [tagText, hchars, List.cons_append, List.cons_append] at hs
      rw [hchars, (List.cons.inj hs).1]
      exact List.mem_cons_self
    have h₁ : c ≠ '!' := Name.ne_of_mem hc (by decide)
    have h₂ : c ≠ '?' := Name.ne_of_mem hc (by decide)
    have h₃ : c ≠ '/' := Name.ne_of_mem hc (by decide)
    rw [Lexeme.read, List.dropWhile_cons_of_neg (by decide)]
    exact Lexeme.readTrimmed_tag h₁ h₂ h₃ _
  rw [hread, Lexeme.readTag, hcut]
  dsimp only
  by_cases hlast : s.getLast? = some '/'
  · obtain ⟨content, rfl⟩ := List.getLast?_eq_some_iff.1 hlast
    exact .inr ⟨content, rfl, by simp⟩
  · exact .inl (if_neg hlast)

/-- An empty tag without its bracket. -/
theorem read_cutEmptyTag (tag : Name) (items : List Item) :
    Lexeme.read ('<' :: tagText tag items ++ ['/']) =
      .found (.emptyTag (tagText tag items)) [] := by
  have hcut := cutTag_tagText tag items (t := ['/']) rfl
  rw [Lexeme.read, List.cons_append, List.dropWhile_cons_of_neg (by decide), ← List.cons_append,
    readTrimmed_tagText, Lexeme.readTag, hcut]
  simp

/-- An end tag without its bracket. -/
theorem read_cutEndTag {s : List Char} (hs : '>' ∉ s) :
    Lexeme.read ('<' :: '/' :: s) = .found (.endTag s) [] := by
  rw [Lexeme.read, List.dropWhile_cons_of_neg (by decide)]
  show Lexeme.readEndTag s = _
  rw [Lexeme.readEndTag, cutAt_of_not_mem hs]

/-- What is left of a document between its tags. -/
theorem read_cutText {s : List Char} (hs : '<' ∉ s) :
    Lexeme.read s = .done ∨ ∃ t, Lexeme.read s = .found (.text t) [] := by
  have hskip : '<' ∉ s.dropWhile isMarkupSpace := fun h =>
    hs ((List.dropWhile_sublist _).subset h)
  rw [Lexeme.read]
  cases hu : s.dropWhile isMarkupSpace with
  | nil => exact .inl rfl
  | cons c u =>
    rw [hu, List.mem_cons, not_or] at hskip
    have hplain : ∀ d ∈ c :: u, decide (d ≠ '<') = true := by
      intro d hd
      refine decide_eq_true fun h => ?_
      subst h
      exact (List.mem_cons.1 hd).elim hskip.1 hskip.2
    refine .inr ⟨dropRightWhile isMarkupSpace (c :: u), ?_⟩
    rw [Lexeme.readTrimmed_text (Ne.symm hskip.1), Lexeme.readText,
      List.takeWhile_eq_self_iff.2 hplain, List.dropWhile_eq_nil_iff.2 hplain]

/-! ## Items -/

namespace Attribute

theorem readings_of_noValue {place keyPlace : Nat} {s key : List Char} {e : AttributeError}
    (h : read place s = .noValue keyPlace key e) :
    readings place s = [.noValue keyPlace key e] := by
  rw [readings]
  split
  · next h' => rw [h] at h'; cases h'
  · next h' => rw [h] at h'; cases h'
  · next h' _ => rw [h]

theorem readValue_unclosed {raw : List Char} (hraw : '"' ∉ raw) (keyPlace place : Nat)
    (key : List Char) :
    readValue keyPlace key place ('"' :: raw) =
      .noValue keyPlace key (.missingQuote (place + 1 + size raw) '"') := by
  have hspace := spanOf_append (p := isMarkupSpace) (s := []) (d := '"') (by simp) (by decide) raw
  have hplain : ∀ c ∈ raw, decide (c ≠ '"') = true := fun c hc =>
    decide_eq_true (ne_of_mem_of_not_mem hc hraw)
  have hvalue : spanOf (· ≠ '"') raw = (raw, []) := by
    rw [spanOf, List.takeWhile_eq_self_iff.2 hplain, List.dropWhile_eq_nil_iff.2 hplain]
  rw [List.nil_append] at hspace
  rw [readValue, hspace]
  dsimp only
  rw [if_pos (.inl rfl), hvalue]
  rfl

/-- An item whose value has no closing quote is malformed. -/
theorem exists_not_isFound (place : Nat) (items : List Item) (n : Name) {raw : List Char}
    (hraw : '"' ∉ raw) :
    ∃ r ∈ readings place (itemsText items ++ (' ' :: n.chars ++ '=' :: '"' :: raw)),
      ¬r.IsFound := by
  induction items generalizing place with
  | nil =>
    rw [itemsText, List.flatMap_nil, List.nil_append,
      readings_of_noValue ((read_key place n _).trans (readValue_unclosed hraw ..))]
    exact ⟨_, List.mem_singleton_self _, Bool.false_ne_true⟩
  | cons i items ih =>
    obtain ⟨r, hr, hfound⟩ := ih (place + size i.render)
    refine ⟨r, ?_, hfound⟩
    rw [itemsText, List.flatMap_cons, List.append_assoc, readings_of_read (read_item place i _)]
    exact List.mem_cons_of_mem _ hr

end Attribute

/-- A text is cut at a character behind a part that does not hold it. -/
theorem exists_append_of_not_mem {c : Char} {s t u v : List Char} (h : s ++ c :: t = u ++ v)
    (hc : c ∉ u) : ∃ w, s = u ++ w ∧ w ++ c :: t = v := by
  rcases List.append_eq_append_iff.1 h with ⟨a, hu, ha⟩ | ⟨w, hs, hv⟩
  · rcases List.cons_eq_append_iff.1 ha with ⟨rfl, hv⟩ | ⟨a, rfl, -⟩
    · exact ⟨[], by rw [hu, List.append_nil, List.append_nil], hv.symm⟩
    · exact absurd (hu ▸ List.mem_append_right _ List.mem_cons_self) hc
  · exact ⟨w, hs, hv.symm⟩

/-- In the items of a tag a slash stands in a value. -/
theorem exists_item_of_slash {items : List Item} {s t : List Char}
    (hs : s ++ '/' :: t = itemsText items) :
    ∃ before, ∃ n : Name, ∃ raw,
      s = itemsText before ++ (' ' :: n.chars ++ '=' :: '"' :: raw) ∧ '"' ∉ raw := by
  induction items generalizing s with
  | nil => exact absurd hs (by simp [itemsText])
  | cons i items ih =>
    have hfront : '/' ∉ ' ' :: i.name.chars ++ ['=', '"'] := by
      have hname : '/' ∉ i.name.chars := fun h => Name.ne_of_mem h (by decide) rfl
      simp [hname]
    have hrender : itemsText (i :: items) =
        ' ' :: i.name.chars ++ ['=', '"'] ++ (i.raw ++ '"' :: itemsText items) := by
      simp [itemsText, Item.render]
    obtain ⟨w, rfl, hw⟩ := exists_append_of_not_mem (hs.trans hrender) hfront
    rcases List.append_eq_append_iff.1 hw with ⟨a, hraw, -⟩ | ⟨v, rfl, hv⟩
    · have hclosed : '"' ∉ w := fun h => i.closed (hraw ▸ List.mem_append_left a h)
      exact ⟨[], i.name, w, by simp [itemsText], hclosed⟩
    · -- the slash stands behind the value, so in one of the other items
      rcases List.cons_eq_append_iff.1 hv with ⟨rfl, hslash⟩ | ⟨u, rfl, hu⟩
      · exact absurd (List.cons.inj hslash).1 (by decide)
      · obtain ⟨before, n, raw, rfl, hclosed⟩ := ih hu.symm
        exact ⟨i :: before, n, raw, by simp [itemsText, Item.render], hclosed⟩

theorem Element.attributeText_append (n : Name) (s : List Char) :
    attributeText (n.chars ++ ' ' :: s) = ' ' :: s := by
  have hname : ∀ c ∈ n.chars, (!isMarkupSpace c) = true := fun c hc => by
    rw [Name.not_space_of_mem hc, Bool.not_false]
  rw [attributeText, List.dropWhile_append_of_pos hname, List.dropWhile_cons_of_neg (by decide)]

/-- A tag that is cut before a slash ends in a malformed item. -/
theorem exists_not_isFound_of_slash {tag : Name} {items : List Item} {s t : List Char}
    (hs : s ++ '/' :: t = tagText tag items) (place : Nat) :
    ∃ r ∈ Attribute.readings place (Element.attributeText s), ¬r.IsFound := by
  have hname : '/' ∉ tag.chars := fun h => Name.ne_of_mem h (by decide) rfl
  obtain ⟨w, rfl, hw⟩ := exists_append_of_not_mem hs hname
  obtain ⟨before, n, raw, rfl, hclosed⟩ := exists_item_of_slash hw
  have hspace : ∃ u, itemsText before ++ (' ' :: n.chars ++ '=' :: '"' :: raw) = ' ' :: u := by
    cases before with
    | nil => exact ⟨_, rfl⟩
    | cons i before => exact ⟨_, rfl⟩
  have hitems := Attribute.exists_not_isFound place before n hclosed
  obtain ⟨u, hu⟩ := hspace
  rw [hu] at hitems ⊢
  rwa [Element.attributeText_append]

end LayoutShell.Markup
