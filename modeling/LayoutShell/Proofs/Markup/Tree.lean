import LayoutShell.Proofs.Markup.Attributes
import LayoutShell.Proofs.Markup.Escape
import LayoutShell.Proofs.Markup.Events
import LayoutShell.Proofs.Text.Cutting

/-!
# Element trees and their text

A document can be written down from a tree of elements and texts. Names are free of all characters
that mean something to markup, values stand in double quotes, and texts are escaped.

* `Node.render` is the text of a tree.
* `read_startTag`, `read_emptyTag`, `read_endTag` and `read_escape` cut such a text into its
  lexemes, whatever follows.
* `nameOf_tagText` and `readings_itemsText` read the name and the items of a tag back.
-/

namespace LayoutShell.Markup

open Text

/-! ## Trees -/

/-- The characters that mean nothing to markup. -/
def isNameChar (c : Char) : Bool :=
  !isMarkupSpace c && c ∉ ['<', '>', '/', '=', '\'', '"', ':', '&', '!', '?']

/-- A prefix or a local part. -/
structure NamePart where
  chars : List Char
  ne_nil : chars ≠ [] := by decide
  plain : ∀ c ∈ chars, isNameChar c = true := by exact forall_mem_of_all (by decide)
  deriving DecidableEq

theorem NamePart.chars_injective : Function.Injective chars := by
  rintro ⟨s, _, _⟩ ⟨t, _, _⟩ rfl
  rfl

/-- The name of an element or of one of its items. -/
structure Name where
  label : Option NamePart
  localPart : NamePart
  deriving DecidableEq

/-- The text of a name: a colon stands after its prefix. -/
def Name.chars (n : Name) : List Char :=
  match n.label with
  | none => n.localPart.chars
  | some label => label.chars ++ ':' :: n.localPart.chars

/-- An attribute or a namespace declaration; its value is written as it is. -/
structure Item where
  name : Name
  raw : List Char
  closed : '"' ∉ raw := by decide
  deriving DecidableEq

/-- A text, or an element with its items and children. An element without children can be written
in two ways, and `short` chooses one. -/
inductive Node
  | text (content : List Char)
  | element (tag : Name) (items : List Item) (short : Bool) (children : List Node)

/-- The text of an item. -/
def Item.render (i : Item) : List Char := ' ' :: i.name.chars ++ '=' :: '"' :: i.raw ++ ['"']

def itemsText (items : List Item) : List Char := items.flatMap Item.render

/-- What stands between the brackets of a tag. -/
def tagText (tag : Name) (items : List Item) : List Char := tag.chars ++ itemsText items

mutual

/-- The text of a tree. -/
def Node.render : Node → List Char
  | .text content => Entity.escape content
  | .element tag items short children =>
    if short && children.isEmpty then '<' :: tagText tag items ++ ['/', '>']
    else
      '<' :: tagText tag items ++ '>' ::
        (Node.renderAll children ++ '<' :: '/' :: tag.chars ++ ['>'])

/-- The text of trees in a row. -/
def Node.renderAll : List Node → List Char
  | [] => []
  | node :: nodes => node.render ++ Node.renderAll nodes

end

theorem Node.render_element (tag : Name) (items : List Item) (short : Bool)
    (children : List Node) : ∃ s, (Node.element tag items short children).render = '<' :: s := by
  rw [Node.render]
  split
  · exact ⟨_, rfl⟩
  · exact ⟨_, rfl⟩

/-! ## Names -/

/-- The characters of a written name. -/
def isTagChar (c : Char) : Bool := isNameChar c || c == ':'

theorem not_space_of_isTagChar {c : Char} (h : isTagChar c = true) : isMarkupSpace c = false := by
  simp only [isTagChar, isNameChar, Bool.or_eq_true, Bool.and_eq_true, Bool.not_eq_true',
    beq_iff_eq] at h
  rcases h with h | rfl
  · exact h.1
  · decide

namespace Name

theorem chars_of_none {n : Name} (h : n.label = none) : n.chars = n.localPart.chars := by
  rw [chars, h]

theorem chars_of_some {n : Name} {label : NamePart} (h : n.label = some label) :
    n.chars = label.chars ++ ':' :: n.localPart.chars := by
  rw [chars, h]

theorem isTagChar_of_mem {n : Name} {c : Char} (hc : c ∈ n.chars) : isTagChar c = true := by
  have hpart : ∀ (p : NamePart), c ∈ p.chars → isTagChar c = true := fun p hc => by
    rw [isTagChar, p.plain c hc, Bool.true_or]
  cases h : n.label with
  | none => exact hpart _ (chars_of_none h ▸ hc)
  | some label =>
    rw [chars_of_some h, List.mem_append, List.mem_cons] at hc
    rcases hc with hc | rfl | hc
    · exact hpart _ hc
    · decide
    · exact hpart _ hc

theorem ne_of_mem {n : Name} {c d : Char} (hc : c ∈ n.chars) (hd : isTagChar d = false) :
    c ≠ d := by
  rintro rfl
  rw [isTagChar_of_mem hc] at hd
  cases hd

/-- A name neither ends a tag nor opens a value. -/
theorem ne_quote_of_mem (n : Name) {c : Char} (hc : c ∈ n.chars) :
    c ≠ '>' ∧ c ≠ '"' ∧ c ≠ '\'' :=
  ⟨ne_of_mem hc (by decide), ne_of_mem hc (by decide), ne_of_mem hc (by decide)⟩

theorem not_space_of_mem {n : Name} {c : Char} (hc : c ∈ n.chars) : isMarkupSpace c = false :=
  not_space_of_isTagChar (isTagChar_of_mem hc)

theorem chars_ne_nil (n : Name) : n.chars ≠ [] := by
  cases h : n.label with
  | none => exact chars_of_none h ▸ n.localPart.ne_nil
  | some label => simp [chars_of_some h]

/-- A name is cut at its colon. -/
theorem splitName_chars (n : Name) :
    splitName n.chars = (n.label.map NamePart.chars, n.localPart.chars) := by
  have hcolon : ∀ (p : NamePart), ∀ c ∈ p.chars, decide (c = ':') = false := fun p c hc =>
    decide_eq_false fun h => absurd (p.plain c hc) (h ▸ by decide)
  cases h : n.label with
  | none => rw [splitName, chars_of_none h, splitFirst_eq_none (hcolon _), Option.map_none]
  | some label =>
    rw [splitName, chars_of_some h, splitFirst_append (hcolon _) (by decide), Option.map_some]

theorem chars_injective : Function.Injective chars := by
  intro n m h
  have hsplit := congrArg splitName h
  rw [splitName_chars, splitName_chars] at hsplit
  obtain ⟨hlabel, hlocal⟩ := Prod.mk.inj hsplit
  exact congrArg₂ mk (Option.map_injective NamePart.chars_injective hlabel)
    (NamePart.chars_injective hlocal)

end Name

/-! ## Tags -/

/-- Plain characters are part of a tag. -/
theorem cutTag_append {s t before after : List Char}
    (hs : ∀ c ∈ s, c ≠ '>' ∧ c ≠ '"' ∧ c ≠ '\'') (h : cutTag none t = (before, after)) :
    cutTag none (s ++ t) = (s ++ before, after) := by
  induction s with
  | nil => exact h
  | cons c s ih =>
    rw [List.forall_mem_cons] at hs
    obtain ⟨⟨h₁, h₂, h₃⟩, hs⟩ := hs
    simp [cutTag, nextQuote, h₁, h₂, h₃, ih hs]

/-- So is a value with the quote that closes it. -/
theorem cutTag_value {raw t before after : List Char} (hraw : '"' ∉ raw)
    (h : cutTag none t = (before, after)) :
    cutTag (some '"') (raw ++ '"' :: t) = (raw ++ '"' :: before, after) := by
  induction raw with
  | nil => simp [cutTag, nextQuote, h]
  | cons c raw ih =>
    rw [List.mem_cons, not_or] at hraw
    simp [cutTag, nextQuote, Ne.symm hraw.1, ih hraw.2]

theorem cutTag_itemsText (items : List Item) {t before after : List Char}
    (h : cutTag none t = (before, after)) :
    cutTag none (itemsText items ++ t) = (itemsText items ++ before, after) := by
  induction items with
  | nil => exact h
  | cons i items ih =>
    have hplain : ∀ c ∈ ' ' :: i.name.chars ++ ['='], c ≠ '>' ∧ c ≠ '"' ∧ c ≠ '\'' := by
      intro c hc
      rw [List.cons_append, List.mem_cons, List.mem_append, List.mem_singleton] at hc
      rcases hc with rfl | hc | rfl
      · decide
      · exact i.name.ne_quote_of_mem hc
      · decide
    have hvalue : cutTag none ('"' :: i.raw ++ '"' :: (itemsText items ++ t)) =
        ('"' :: i.raw ++ '"' :: (itemsText items ++ before), after) := by
      have := cutTag_value i.closed ih
      simp [cutTag, nextQuote, this]
    have := cutTag_append hplain hvalue
    simpa [itemsText, Item.render] using this

theorem cutTag_tagText (tag : Name) (items : List Item) {t before after : List Char}
    (h : cutTag none t = (before, after)) :
    cutTag none (tagText tag items ++ t) = (tagText tag items ++ before, after) := by
  rw [tagText, List.append_assoc, List.append_assoc]
  exact cutTag_append (fun c hc => tag.ne_quote_of_mem hc) (cutTag_itemsText items h)

theorem getLast?_tagText (tag : Name) (items : List Item) :
    (tagText tag items).getLast? ≠ some '/' := by
  intro h
  rcases List.eq_nil_or_concat items with rfl | ⟨items, i, rfl⟩
  · rw [tagText, itemsText, List.flatMap_nil, List.append_nil] at h
    exact Name.ne_of_mem (List.mem_of_getLast? h) (by decide) rfl
  · have hlast : tagText tag (items.concat i) =
        (tag.chars ++ itemsText items ++ ' ' :: i.name.chars ++ '=' :: '"' :: i.raw) ++ ['"'] := by
      simp [tagText, itemsText, Item.render]
    rw [hlast, List.getLast?_concat] at h
    exact absurd h (by decide)

theorem Lexeme.readTrimmed_tag {c : Char} (hbang : c ≠ '!') (hquestion : c ≠ '?') (hslash : c ≠ '/')
    (s : List Char) : readTrimmed ('<' :: c :: s) = readTag (c :: s) := by
  simp [readTrimmed, hbang, hquestion, hslash]

theorem Lexeme.readTrimmed_text {c : Char} (hc : c ≠ '<') (s : List Char) :
    readTrimmed (c :: s) = readText (c :: s) := by
  simp [readTrimmed, hc]

/-- A tag opens with a character of its name. -/
theorem readTrimmed_tagText (tag : Name) (items : List Item) (s : List Char) :
    Lexeme.readTrimmed ('<' :: tagText tag items ++ s) =
      Lexeme.readTag (tagText tag items ++ s) := by
  obtain ⟨c, chars, hchars⟩ := List.exists_cons_of_ne_nil tag.chars_ne_nil
  have hmem : c ∈ tag.chars := hchars ▸ List.mem_cons_self
  have h₁ : c ≠ '!' := Name.ne_of_mem hmem (by decide)
  have h₂ : c ≠ '?' := Name.ne_of_mem hmem (by decide)
  have h₃ : c ≠ '/' := Name.ne_of_mem hmem (by decide)
  rw [tagText, hchars]
  exact Lexeme.readTrimmed_tag h₁ h₂ h₃ _

theorem read_startTag (tag : Name) (items : List Item) (rest : List Char) :
    Lexeme.read ('<' :: tagText tag items ++ '>' :: rest) =
      .found (.startTag (tagText tag items)) rest := by
  have hcut := cutTag_tagText tag items (t := '>' :: rest) rfl
  rw [List.append_nil] at hcut
  have hlast := getLast?_tagText tag items
  rw [Lexeme.read, List.cons_append, List.dropWhile_cons_of_neg (by decide), ← List.cons_append,
    readTrimmed_tagText, Lexeme.readTag, hcut]
  exact if_neg hlast

theorem read_emptyTag (tag : Name) (items : List Item) (rest : List Char) :
    Lexeme.read ('<' :: tagText tag items ++ '/' :: '>' :: rest) =
      .found (.emptyTag (tagText tag items)) rest := by
  have hcut := cutTag_tagText tag items (t := '/' :: '>' :: rest) rfl
  rw [Lexeme.read, List.cons_append, List.dropWhile_cons_of_neg (by decide), ← List.cons_append,
    readTrimmed_tagText, Lexeme.readTag, hcut]
  simp

theorem cutAt_append {stop : Char} {s : List Char} (hs : ∀ c ∈ s, c ≠ stop) (rest : List Char) :
    cutAt stop (s ++ stop :: rest) = (s, rest) := by
  induction s with
  | nil => simp [cutAt]
  | cons c s ih =>
    rw [List.forall_mem_cons] at hs
    simp [cutAt, hs.1, ih hs.2]

theorem cutAt_of_not_mem {stop : Char} {s : List Char} (hs : stop ∉ s) :
    cutAt stop s = (s, []) := by
  induction s with
  | nil => rfl
  | cons c s ih =>
    rw [List.mem_cons, not_or] at hs
    rw [cutAt, if_neg (Ne.symm hs.1), ih hs.2]

theorem read_closedEndTag {s : List Char} (hs : '>' ∉ s) (rest : List Char) :
    Lexeme.read ('<' :: '/' :: s ++ '>' :: rest) = .found (.endTag s) rest := by
  have hcut := cutAt_append (fun c hc => ne_of_mem_of_not_mem hc hs) rest
  rw [Lexeme.read, List.cons_append, List.dropWhile_cons_of_neg (by decide)]
  show Lexeme.readEndTag (s ++ '>' :: rest) = _
  rw [Lexeme.readEndTag, hcut]

theorem read_endTag (tag : Name) (rest : List Char) :
    Lexeme.read ('<' :: '/' :: tag.chars ++ '>' :: rest) = .found (.endTag tag.chars) rest :=
  read_closedEndTag (fun h => (tag.ne_quote_of_mem h).1 rfl) rest

theorem Reader.endName_chars (tag : Name) : Reader.endName tag.chars = tag.chars := by
  have hlast : ∀ hne : tag.chars ≠ [], ¬isMarkupSpace (tag.chars.getLast hne) := fun hne => by
    rw [Name.not_space_of_mem (List.getLast_mem hne)]
    decide
  rw [Reader.endName]
  split
  · rfl
  · exact List.rdropWhile_eq_self_iff.2 hlast

/-! ## Texts -/

/-- A text before a tag is skipped if it is space, and is read as an escaped text otherwise. -/
theorem read_escape (t rest : List Char) :
    Lexeme.read (Entity.escape t ++ '<' :: rest) = Lexeme.read ('<' :: rest) ∨
      ∃ t', Lexeme.read (Entity.escape t ++ '<' :: rest) =
        .found (.text (Entity.escape t')) ('<' :: rest) := by
  have hskip := Entity.dropWhile_escape t (c := '<') (by decide) rest
  rw [Lexeme.read, hskip]
  generalize t.dropWhile isMarkupSpace = u
  have hopen : '<' ∉ Entity.escape u := Entity.not_mem_escape (by decide) u
  have hplain : ∀ c ∈ Entity.escape u, decide (c ≠ '<') = true := fun c hc =>
    decide_eq_true fun h => hopen (h ▸ hc)
  cases hu : Entity.escape u with
  | nil => exact .inl rfl
  | cons c s =>
    have hc : c ≠ '<' := by simpa using hplain c (hu ▸ List.mem_cons_self)
    refine .inr ⟨dropRightWhile isMarkupSpace u, ?_⟩
    rw [List.cons_append, Lexeme.readTrimmed_text hc, ← List.cons_append, ← hu,
      Lexeme.readText, List.takeWhile_append_of_pos hplain, List.dropWhile_append_of_pos hplain,
      ← Entity.dropRightWhile_escape]
    simp

/-! ## Items -/

/-- The items of a tag begin with space, if there are any. -/
theorem itemsText_cases (items : List Item) :
    itemsText items = [] ∨ ∃ s, itemsText items = ' ' :: s := by
  cases items with
  | nil => exact .inl rfl
  | cons i items => exact .inr ⟨_, rfl⟩

theorem nameOf_tagText (tag : Name) (items : List Item) :
    Element.nameOf (tagText tag items) = tag.chars := by
  have hname : ∀ c ∈ tag.chars, (!isMarkupSpace c) = true := fun c hc => by
    rw [Name.not_space_of_mem hc, Bool.not_false]
  rw [Element.nameOf, tagText, List.takeWhile_append_of_pos hname]
  rcases itemsText_cases items with h | ⟨s, h⟩
  · rw [h, List.takeWhile_nil, List.append_nil]
  · rw [h, List.takeWhile_cons_of_neg (by decide), List.append_nil]

theorem attributeText_tagText (tag : Name) (items : List Item) :
    Element.attributeText (tagText tag items) = itemsText items := by
  have hname : ∀ c ∈ tag.chars, (!isMarkupSpace c) = true := fun c hc => by
    rw [Name.not_space_of_mem hc, Bool.not_false]
  rw [Element.attributeText, tagText, List.dropWhile_append_of_pos hname]
  rcases itemsText_cases items with h | ⟨s, h⟩
  · rw [h, List.dropWhile_nil]
  · rw [h, List.dropWhile_cons_of_neg (by decide)]

theorem Item.size_render (i : Item) :
    size i.render = size i.name.chars + size i.raw + 4 := by
  have hrender : i.render = [' '] ++ i.name.chars ++ ['=', '"'] ++ i.raw ++ ['"'] := by
    simp [render]
  have h₁ : size [' '] = 1 := rfl
  have h₂ : size ['=', '"'] = 2 := rfl
  have h₃ : size ['"'] = 1 := rfl
  rw [hrender, size_append, size_append, size_append, size_append, h₁, h₂, h₃]
  omega

namespace Attribute

theorem spanOf_append {p : Char → Bool} {s : List Char} (hs : ∀ c ∈ s, p c = true) {d : Char}
    (hd : p d = false) (rest : List Char) : spanOf p (s ++ d :: rest) = (s, d :: rest) := by
  rw [spanOf, List.takeWhile_append_of_pos hs, List.dropWhile_append_of_pos hs,
    List.takeWhile_cons_of_neg (by simp [hd]), List.dropWhile_cons_of_neg (by simp [hd]),
    List.append_nil]

/-- The attribute that is read where an item is written. -/
def ofItem (place : Nat) (i : Item) : Attribute := ⟨place + 1, i.name.chars, i.raw⟩

theorem readValue_item (i : Item) (keyPlace place : Nat) (key rest : List Char) :
    readValue keyPlace key place ('"' :: (i.raw ++ '"' :: rest)) =
      .found ⟨keyPlace, key, i.raw⟩ (place + 1 + size i.raw + 1) rest := by
  have hspace := spanOf_append (p := isMarkupSpace) (s := []) (d := '"') (by simp) (by decide)
    (i.raw ++ '"' :: rest)
  have hvalue : spanOf (· ≠ '"') (i.raw ++ '"' :: rest) = (i.raw, '"' :: rest) :=
    spanOf_append (fun c hc => decide_eq_true (ne_of_mem_of_not_mem hc i.closed)) (by decide) _
  rw [List.nil_append] at hspace
  rw [readValue, hspace]
  dsimp only
  rw [if_pos (.inl rfl), hvalue]
  rfl

/-- A key is read up to its equals sign. -/
theorem read_key (place : Nat) (n : Name) (s : List Char) :
    read place (' ' :: n.chars ++ '=' :: s) =
      readValue (place + 1) n.chars (place + 1 + size n.chars + 1) s := by
  obtain ⟨c, tail, hname⟩ := List.exists_cons_of_ne_nil n.chars_ne_nil
  have hmem : ∀ d ∈ c :: tail, d ∈ n.chars := fun d hd => hname ▸ hd
  have hspace := spanOf_append (p := isMarkupSpace) (s := [' '])
    (forall_mem_of_all (by decide))
    (Name.not_space_of_mem (hmem c List.mem_cons_self)) (tail ++ '=' :: s)
  have hkey := spanOf_append (p := isKeyChar) (s := tail) (d := '=') (fun d hd => by
      have hd := hmem d (List.mem_cons_of_mem _ hd)
      simp [isKeyChar, Name.ne_of_mem hd (d := '=') (by decide), Name.not_space_of_mem hd])
    (by decide) s
  have hequals := spanOf_append (p := isMarkupSpace) (s := []) (d := '=') (by simp) (by decide) s
  rw [List.nil_append] at hequals
  have htext : ' ' :: n.chars ++ '=' :: s = [' '] ++ c :: (tail ++ '=' :: s) := by simp [hname]
  rw [htext, read, hspace]
  dsimp only
  rw [hkey]
  dsimp only
  rw [hequals, ← hname]
  rfl

theorem read_item (place : Nat) (i : Item) (rest : List Char) :
    read place (i.render ++ rest) = .found (ofItem place i) (place + size i.render) rest := by
  have hrender : i.render ++ rest =
      ' ' :: i.name.chars ++ '=' :: '"' :: (i.raw ++ '"' :: rest) := by
    simp [Item.render]
  rw [hrender, read_key, readValue_item, ofItem, Item.size_render]
  congr 1
  omega

/-- The attributes that are read where items are written in a row. -/
def ofItems : Nat → List Item → List Attribute
  | _, [] => []
  | place, i :: items => ofItem place i :: ofItems (place + size i.render) items

theorem map_key_ofItems (place : Nat) (items : List Item) :
    (ofItems place items).map (·.key) = items.map (·.name.chars) := by
  induction items generalizing place with
  | nil => rfl
  | cons i items ih => simp [ofItems, ofItem, ih]

theorem mem_ofItems {place : Nat} {items : List Item} {a : Attribute}
    (ha : a ∈ ofItems place items) : ∃ i ∈ items, a.key = i.name.chars ∧ a.value = i.raw := by
  induction items generalizing place with
  | nil => cases ha
  | cons i items ih =>
    rcases List.mem_cons.1 ha with rfl | ha
    · exact ⟨i, List.mem_cons_self, rfl, rfl⟩
    · obtain ⟨j, hj, h⟩ := ih ha
      exact ⟨j, List.mem_cons_of_mem _ hj, h⟩

theorem exists_mem_ofItems (place : Nat) {items : List Item} {i : Item} (hi : i ∈ items) :
    ∃ a ∈ ofItems place items, a.key = i.name.chars ∧ a.value = i.raw := by
  induction items generalizing place with
  | nil => cases hi
  | cons j items ih =>
    rcases List.mem_cons.1 hi with rfl | hi
    · exact ⟨ofItem place i, List.mem_cons_self, rfl, rfl⟩
    · obtain ⟨a, ha, h⟩ := ih (place + size j.render) hi
      exact ⟨a, List.mem_cons_of_mem _ ha, h⟩

/-- All items of a tag are read as attributes. -/
theorem readings_itemsText (place : Nat) (items : List Item) :
    (∀ r ∈ readings place (itemsText items), r.IsFound) ∧
      scan place (itemsText items) = ofItems place items := by
  rw [scan_eq]
  induction items generalizing place with
  | nil =>
    rw [itemsText, List.flatMap_nil, readings_of_done rfl]
    exact ⟨by simp, rfl⟩
  | cons i items ih =>
    obtain ⟨hfound, hscan⟩ := ih (place + size i.render)
    rw [itemsText, List.flatMap_cons, readings_of_read (read_item place i _), ← itemsText]
    exact ⟨List.forall_mem_cons.2 ⟨rfl, hfound⟩, by
      rw [List.filterMap_cons, hscan]; rfl⟩

end Attribute

end LayoutShell.Markup
