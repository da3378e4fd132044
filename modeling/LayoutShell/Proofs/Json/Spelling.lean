import LayoutShell.Proofs.Json.Syntax
import LayoutShell.Proofs.Json.Truncation

/-!
# Spellings of JSON strings

A character may stand in a JSON string as it is or as an escape, so a string has many spellings.

* `SpellsString` relates a string to its spellings, and `readText_spells` reads each of them.
* `Separated` is said of the bytes of several things with commas between them, and
  `IsValue.scalar_or_enclosed` finds them in a value.
* `Passes` is said of a reader that finds a text wrong in itself or reads it, but never finds that
  it ends too early. `passes_readText` is this for strings: in the syntax of JSON they may hold
  surrogates that stand alone, which no string can have.
* `refusal_append`: a value of the wrong type is wrong in itself.
-/

namespace LayoutShell.Json

open Text

/-! ## Strings -/

/-- The bytes that stand for a character inside a string. -/
inductive SpellsChar : Char → List UInt8 → Prop
  | plain {c : Char} (h₁ : 0x20 ≤ c.toNat) (h₂ : c ≠ '"') (h₃ : c ≠ '\\') :
      SpellsChar c (encodeChar c)
  | short {x c : Char} (h : (x, c) ∈ shortEscapes) : SpellsChar c [byte '\\', byte x]
  | number {c : Char} {ds : List UInt8} (h : IsHex4 c.toNat ds) :
      SpellsChar c (byte '\\' :: byte 'u' :: ds)
  /-- A character beyond 16 bits, as two surrogates. -/
  | pair {c : Char} {high low : Nat} {ds ds' : List UInt8} (hhigh : 0xD800 ≤ high ∧ high ≤ 0xDBFF)
      (hlow : 0xDC00 ≤ low ∧ low ≤ 0xDFFF)
      (hc : c.toNat = 0x10000 + (high - 0xD800) * 0x400 + (low - 0xDC00)) (hds : IsHex4 high ds)
      (hds' : IsHex4 low ds') :
      SpellsChar c (byte '\\' :: byte 'u' :: (ds ++ byte '\\' :: byte 'u' :: ds'))

inductive SpellsText : List Char → List UInt8 → Prop
  | nil : SpellsText [] []
  | cons {c : Char} {text : List Char} {bs s : List UInt8} (hc : SpellsChar c bs)
      (h : SpellsText text s) : SpellsText (c :: text) (bs ++ s)

/-- The bytes of a string with its quotes. -/
inductive SpellsString (name : String) : List UInt8 → Prop
  | intro {s : List UInt8} (h : SpellsText name.toList s) :
      SpellsString name (byte '"' :: (s ++ [byte '"']))

theorem shortEscape?_unicode : shortEscape? (byte 'u') = none := by decide

theorem readEscape_unicode (s : List UInt8) : readEscape (byte 'u' :: s) = readUnicode s := by
  rw [readEscape, shortEscape?_unicode]
  exact if_pos rfl

theorem readUnicode_number {n : Nat} {ds : List UInt8} (h : IsHex4 n ds)
    (hn : n < 0xD800 ∨ 0xDFFF < n) (s : List UInt8) :
    readUnicode (ds ++ s) = .ok (Char.ofNat n, s) := by
  rw [readUnicode, readHex4_append h]
  show (if _ then _ else _) = _
  rw [if_neg (by omega), if_pos (by omega)]

theorem readUnicode_pair {high low : Nat} {ds ds' : List UInt8}
    (hhigh : 0xD800 ≤ high ∧ high ≤ 0xDBFF) (hlow : 0xDC00 ≤ low ∧ low ≤ 0xDFFF)
    (hds : IsHex4 high ds) (hds' : IsHex4 low ds') (s : List UInt8) :
    readUnicode (ds ++ byte '\\' :: byte 'u' :: (ds' ++ s)) =
      .ok (Char.ofNat (0x10000 + (high - 0xD800) * 0x400 + (low - 0xDC00)), s) := by
  rw [readUnicode, readHex4_append hds]
  show (if _ then _ else _) = _
  rw [if_neg (by omega), if_neg (by omega)]
  show (readHex4 (ds' ++ s) >>= _) = _
  rw [readHex4_append hds']
  exact if_pos hlow

/-- A character is read in each of its spellings. -/
theorem readBytes_spellsChar {c : Char} {bs : List UInt8} (h : SpellsChar c bs) (s : List UInt8) :
    readBytes (bs ++ s) =
      (readBytes s).map fun (bytes, rest) => (encodeChar c ++ bytes, rest) := by
  cases h with
  | plain h₁ h₂ h₃ => exact readBytes_append (fun b hb => isPlain_of_mem_encodeChar h₁ h₂ h₃ hb) s
  | @short x c h =>
    have hread : readEscape (byte x :: s) = .ok (c, s) := by
      rw [readEscape, shortEscape?_of_mem h]
    exact readBytes_escape hread
  | @number c ds h =>
    have hn : c.toNat < 0xD800 ∨ 0xDFFF < c.toNat := by
      have hvalid := c.valid
      simp only [UInt32.isValidChar, Nat.isValidChar] at hvalid
      exact hvalid.imp id And.left
    have hread : readEscape (byte 'u' :: (ds ++ s)) = .ok (c, s) := by
      rw [readEscape_unicode, readUnicode_number h hn, Char.ofNat_toNat]
    exact readBytes_escape hread
  | @pair c high low ds ds' hhigh hlow hc hds hds' =>
    have hread : readEscape (byte 'u' :: (ds ++ byte '\\' :: byte 'u' :: (ds' ++ s))) =
        .ok (c, s) := by
      rw [readEscape_unicode, readUnicode_pair hhigh hlow hds hds', ← hc, Char.ofNat_toNat]
    rw [List.cons_append, List.cons_append, List.append_assoc]
    exact readBytes_escape hread

theorem readBytes_spellsText {text : List Char} {s : List UInt8} (h : SpellsText text s)
    (rest : List UInt8) : readBytes (s ++ byte '"' :: rest) = .ok (encode text, rest) := by
  induction h with
  | nil => exact readBytes_quote rest
  | cons hc _ ih =>
    rw [List.append_assoc, readBytes_spellsChar hc, ih, encode_cons]
    rfl

/-- **A string is read in each of its spellings, whatever follows.** -/
theorem readText_spells {text : List Char} {s : List UInt8} (h : SpellsText text s)
    (rest : List UInt8) : readText (s ++ byte '"' :: rest) = .ok (text, rest) := by
  rw [readText, readBytes_spellsText h]
  simp only [bind, Except.bind, decode_encode]

/-- A text without anything that must be escaped may stand as it is. -/
theorem spellsText_encode {text : List Char}
    (h : ∀ c ∈ text, 0x20 ≤ c.toNat ∧ c ≠ '"' ∧ c ≠ '\\') : SpellsText text (encode text) := by
  induction text with
  | nil => exact .nil
  | cons c text ih =>
    rw [List.forall_mem_cons] at h
    obtain ⟨⟨h₁, h₂, h₃⟩, htext⟩ := h
    exact .cons (.plain h₁ h₂ h₃) (ih htext)

/-! ## Lists -/

/-- Things with commas between them and white space around them. -/
inductive Separated {α : Type} (Item : α → List UInt8 → Prop) : List α → List UInt8 → Prop
  | last {a : α} {ws s ws' : List UInt8} (hws : IsBlank ws) (h : Item a s) (hws' : IsBlank ws') :
      Separated Item [a] (ws ++ (s ++ ws'))
  | more {a : α} {as : List α} {ws s ws' t : List UInt8} (hws : IsBlank ws) (h : Item a s)
      (hws' : IsBlank ws') (hmore : Separated Item as t) :
      Separated Item (a :: as) (ws ++ (s ++ (ws' ++ byte ',' :: t)))

/-- The same between brackets, perhaps with nothing between them. -/
inductive Enclosed {α : Type} (inside : Bracket) (Item : α → List UInt8 → Prop) :
    List α → List UInt8 → Prop
  | empty {ws : List UInt8} (hws : IsBlank ws) :
      Enclosed inside Item [] (inside.opening :: (ws ++ [inside.closing]))
  | items {as : List α} {s : List UInt8} (h : Separated Item as s) :
      Enclosed inside Item as (inside.opening :: (s ++ [inside.closing]))

theorem Separated.length_le {α : Type} {Item : α → List UInt8 → Prop} {as : List α}
    {s : List UInt8} (h : Separated Item as s) : as.length ≤ s.length + 1 := by
  induction h with
  | last => simp
  | more _ _ _ _ ih =>
    simp only [List.length_append, List.length_cons]
    omega

/-- An item of an array or an object, with a value of any kind. -/
inductive IsItem : Bracket → List UInt8 → Prop
  | value {v : List UInt8} (h : IsValue v) : IsItem .array v
  | member {key ws ws' v : List UInt8} (hkey : IsText key) (hws : IsBlank ws) (hws' : IsBlank ws')
      (h : IsValue v) :
      IsItem .object (byte '"' :: (key ++ byte '"' :: (ws ++ byte ':' :: (ws' ++ v))))

theorem IsLabel.exists_isItem {inside : Bracket} {label ws v : List UInt8}
    (hlabel : IsLabel inside label) (hws : IsBlank ws) (h : IsValue v) :
    ∃ ws' s, IsBlank ws' ∧ IsItem inside s ∧ ∀ t, label ++ (ws ++ (v ++ t)) = ws' ++ (s ++ t) := by
  cases hlabel with
  | array => exact ⟨ws, v, hws, .value h, fun _ => rfl⟩
  | object hws' hkey hws'' => exact ⟨_, _, hws', .member hkey hws'' hws h, fun _ => by simp⟩

theorem exists_separated_of_isPart {part : Part} {inside : Bracket} {s : List UInt8}
    (h : IsPart part s) (hpart : part = .items inside) :
    ∃ as : List Unit, Separated (fun _ => IsItem inside) as s := by
  induction h with
  | scalar | empty | nested => cases hpart
  | last hlabel hws h hws' =>
    cases hpart
    obtain ⟨ws, s, hblank, hitem, heq⟩ := hlabel.exists_isItem hws h
    rw [heq]
    exact ⟨[()], .last hblank hitem hws'⟩
  | more hlabel hws h hws' _ _ ih =>
    cases hpart
    obtain ⟨ws, s, hblank, hitem, heq⟩ := hlabel.exists_isItem hws h
    obtain ⟨as, has⟩ := ih rfl
    rw [heq]
    exact ⟨() :: as, .more hblank hitem hws' has⟩

/-- A value is a scalar, or it has items between brackets. -/
theorem IsValue.scalar_or_enclosed {s : List UInt8} (h : IsValue s) :
    IsScalar s ∨ ∃ inside, ∃ as : List Unit, Enclosed inside (fun _ => IsItem inside) as s := by
  cases h with
  | scalar h => exact .inl h
  | @empty inside ws hws => exact .inr ⟨inside, [], .empty hws⟩
  | @nested inside s h =>
    obtain ⟨as, has⟩ := exists_separated_of_isPart h rfl
    exact .inr ⟨inside, as, .items has⟩

/-! ## Texts that may be wrong in themselves -/

/-- A text is wrong in itself, or is read with a result that `P` describes. -/
def Passes {α : Type} (P : α → Prop) (r : Except Failure α) : Prop :=
  r = .error .malformed ∨ ∃ a, r = .ok a ∧ P a

namespace Passes

variable {α β : Type} {P : α → Prop} {Q : β → Prop} {x : Except Failure α}

theorem malformed : Passes P (.error .malformed) := .inl rfl

theorem ok {a : α} (h : P a) : Passes P (.ok a) := .inr ⟨a, rfl, h⟩

theorem of_eq_ok {a : α} (hx : x = .ok a) (h : P a) : Passes P x := .inr ⟨a, hx, h⟩

theorem mono (h : Passes P x) {P' : α → Prop} (himp : ∀ a, P a → P' a) : Passes P' x :=
  h.imp id fun ⟨a, hx, ha⟩ => ⟨a, hx, himp a ha⟩

theorem bind (h : Passes P x) {f : α → Except Failure β} (hf : ∀ a, P a → Passes Q (f a)) :
    Passes Q (x >>= f) := by
  rcases h with rfl | ⟨a, rfl, ha⟩
  · exact malformed
  · exact hf a ha

theorem map (h : Passes P x) {f : α → β} (hf : ∀ a, P a → Q (f a)) : Passes Q (x.map f) := by
  rcases h with rfl | ⟨a, rfl, ha⟩
  · exact malformed
  · exact ok (hf a ha)

end Passes

section

variable {rest : List UInt8}

theorem passes_expect {b c : UInt8} {s : List UInt8} :
    Passes (fun t => b = c ∧ t = s) (expect b (c :: s)) := by
  rw [expect]
  split
  · next h => exact .ok ⟨h.symm, rfl⟩
  · exact .malformed

/-- After a surrogate, more of the text belongs to the same character. -/
theorem passes_readUnicode {n : Nat} {ds s : List UInt8} (hds : IsHex4 n ds) (h : IsText s) :
    Passes (fun a => ∃ s', IsText s' ∧ s'.length ≤ s.length ∧ a.2 = s' ++ byte '"' :: rest)
      (readUnicode (ds ++ (s ++ byte '"' :: rest))) := by
  rw [readUnicode, readHex4_append hds]
  show Passes _ (if _ then _ else _)
  split
  · exact .malformed
  split
  · exact .ok ⟨s, h, Nat.le_refl _, rfl⟩
  · -- the other surrogate must follow as an escape
    cases h with
    | nil => exact .malformed
    | @plain b s hb h =>
      refine passes_expect.bind ?_
      rintro _ ⟨heq, -⟩
      exact absurd heq.symm hb.2.1
    | @short x c s hx h =>
      refine passes_expect.bind ?_
      rintro _ ⟨-, rfl⟩
      refine passes_expect.bind ?_
      rintro _ ⟨heq, -⟩
      have hshort := shortEscape?_of_mem hx
      rw [← heq] at hshort
      exact absurd hshort (by simp [shortEscape?_unicode])
    | @number m ds' s hds' h =>
      rw [List.cons_append, List.cons_append, List.append_assoc]
      refine passes_expect.bind ?_
      rintro _ ⟨-, rfl⟩
      refine passes_expect.bind ?_
      rintro _ ⟨-, rfl⟩
      rw [readHex4_append hds']
      show Passes _ (if _ then _ else _)
      split
      · refine .ok ⟨s, h, ?_, rfl⟩
        simp only [List.length_cons, List.length_append]
        omega
      · exact .malformed

theorem passes_readBytes {s : List UInt8} (h : IsText s) :
    Passes (fun a => a.2 = rest) (readBytes (s ++ byte '"' :: rest)) := by
  cases h with
  | nil =>
    rw [List.nil_append, readBytes_quote]
    exact .ok rfl
  | @plain b s hb h =>
    obtain ⟨h₁, h₂, h₃⟩ := hb
    rw [List.cons_append, readBytes_cons, if_neg h₁, if_neg h₂, if_neg h₃]
    exact (passes_readBytes h).map fun _ ha => ha
  | @short x c s hx h =>
    have hread : readEscape (byte x :: (s ++ byte '"' :: rest)) =
        .ok (c, s ++ byte '"' :: rest) := by
      rw [readEscape, shortEscape?_of_mem hx]
    rw [List.cons_append, List.cons_append, readBytes_escape hread]
    exact (passes_readBytes h).map fun _ ha => ha
  | @number n ds s hds h =>
    rw [List.cons_append, List.cons_append, List.append_assoc, readBytes_cons, if_neg (by decide),
      if_pos rfl, readEscape_unicode]
    refine (passes_readUnicode hds h).bind ?_
    rintro ⟨c, _⟩ ⟨s', hs', hlength, rfl⟩
    exact (passes_readBytes hs').map fun _ ha => ha
termination_by s.length
decreasing_by
  all_goals
    simp only [List.length_cons, List.length_append]
    omega

theorem passes_readText {s : List UInt8} (h : IsText s) :
    Passes (fun a => a.2 = rest) (readText (s ++ byte '"' :: rest)) := by
  refine (passes_readBytes h).bind ?_
  rintro ⟨bytes, _⟩ rfl
  dsimp only
  cases decode bytes with
  | some text => exact .ok rfl
  | none => exact .malformed

/-- **A value of the wrong type is wrong in itself.** -/
theorem refusal_append {s : List UInt8} (h : IsValue s) (hrest : Delimited rest) :
    refusal (s ++ rest) = .malformed := by
  cases h with
  | scalar h =>
    cases h with
    | word h =>
      simp only [List.mem_cons, List.not_mem_nil, or_false] at h
      rcases h with rfl | rfl | rfl
      · show refusal (byte 'n' :: ("ull".toList.map byte ++ rest)) = _
        rw [refusal, skipWord_append]
        rfl
      · show refusal (byte 't' :: ("rue".toList.map byte ++ rest)) = _
        rw [refusal, skipWord_append]
        rfl
      · show refusal (byte 'f' :: ("alse".toList.map byte ++ rest)) = _
        rw [refusal, skipWord_append]
        rfl
    | number h =>
      have hskip : skipNumber .truncated (s ++ rest) = .ok rest := skipNumber_append h hrest
      obtain ⟨b, t, rfl, hb⟩ := h.exists_cons
      obtain ⟨h₁, h₂, h₃, h₄⟩ := ne_of_beginsNumber hb
      rw [List.cons_append] at hskip ⊢
      rw [refusal, if_neg h₁, if_neg h₂, if_neg h₃, if_neg h₄, if_pos hb, hskip]
      rfl
    | @string s h =>
      rw [List.cons_append, List.append_assoc, List.singleton_append, refusal]
      rcases passes_readText h with hread | ⟨a, hread, -⟩ <;>
      · rw [hread]
        rfl
  | @empty inside ws hws => cases inside <;> rfl
  | @nested inside s h => cases inside <;> rfl

end

end LayoutShell.Json
