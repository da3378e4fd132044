import LayoutShell.Toml.Document
import Mathlib.Data.List.TakeWhile
import Mathlib.Logic.Basic

/-!
# How statements begin

* `Closes` says where a string on one line ends, and `AtMark` that a dot or an equals sign follows.
* `StartsStatement` lists the three ways in which a statement begins: with a bracket, with a name in
  quotes, or with a bare name.
* `startsStatement_of_read`: a line that is read as a statement begins in one of these ways.
-/

namespace LayoutShell.Toml

/-- A string on one line, after its first quote, ends before the second text. -/
inductive Closes : Char → List Char → List Char → Prop
  | done {quote : Char} {rest : List Char} (single : quote = '\'' → rest.head? ≠ some '\'') :
      Closes quote (quote :: rest) rest
  | char {quote c : Char} {s rest : List Char} (inside : c ≠ quote) (noBreak : c ≠ '\n' ∧ c ≠ '\r')
      (plain : quote = '"' → c ≠ '\\') (tail : Closes quote s rest) : Closes quote (c :: s) rest
  | escape {c : Char} {s s' rest : List Char} (escape : escaped s = some (c, s'))
      (tail : Closes '"' s' rest) : Closes '"' ('\\' :: s) rest

/-- The next character but spaces is a dot or an equals sign. -/
def AtMark (s : List Char) : Prop := ∃ c rest, skipSpace s = c :: rest ∧ (c = '.' ∨ c = '=')

/-- A text begins like a statement. -/
inductive StartsStatement : List Char → Prop
  | header (rest : List Char) : StartsStatement ('[' :: rest)
  | quoted {quote : Char} {s rest : List Char} (isQuote : quote = '"' ∨ quote = '\'')
      (closes : Closes quote s rest) (mark : AtMark rest) : StartsStatement (quote :: s)
  | bare {c : Char} {s : List Char} (isBare : isBareKeyChar c = true)
      (mark : AtMark (s.dropWhile isBareKeyChar)) : StartsStatement (c :: s)

/-! ## Strings on one line -/

namespace Closes

variable {quote ch : Char} {s rest : List Char}

theorem eq_of_quote (h : Closes quote (quote :: s) rest) :
    s = rest ∧ (quote = '\'' → s.head? ≠ some '\'') := by
  cases h with
  | done single => exact ⟨rfl, single⟩
  | char inside => exact absurd rfl inside

theorem of_char (h : Closes quote (ch :: s) rest) (hquote : ch ≠ quote)
    (hescape : quote = '"' → ch ≠ '\\') :
    ch ≠ '\r' ∧ Closes quote s rest := by
  cases h with
  | done => exact absurd rfl hquote
  | char _ noBreak _ tail => exact ⟨noBreak.2, tail⟩
  | escape => exact absurd rfl (hescape rfl)

theorem of_escape (h : Closes '"' ('\\' :: s) rest) :
    ∃ c s', escaped s = some (c, s') ∧ Closes '"' s' rest := by
  cases h with
  | char _ _ plain => exact absurd rfl (plain rfl)
  | escape escape tail => exact ⟨_, _, escape, tail⟩

end Closes

theorem hexValue_rest {value count v : Nat} {s rest : List Char}
    (h : hexValue value count s = some (v, rest)) : rest = s.drop count := by
  fun_induction hexValue value count s with
  | case1 => cases h; rfl
  | case2 value count c rest' ih =>
    obtain ⟨d, -, h⟩ := Option.bind_eq_some_iff.1 h
    exact ih _ h
  | case3 => cases h

theorem numbered_rest {count : Nat} {s s' : List Char} {d : Char}
    (h : numbered count s = some (d, s')) : s' = s.drop count := by
  obtain ⟨⟨value, rest⟩, hvalue, h⟩ := Option.bind_eq_some_iff.1 h
  dsimp only at h
  split at h
  · cases h
    exact hexValue_rest hvalue
  · cases h

/-! ## Names -/

theorem ne_break_of_isPrintable {c : Char} (h : isPrintable c = true) : c ≠ '\n' ∧ c ≠ '\r' := by
  refine ⟨?_, ?_⟩ <;> rintro rfl <;> exact absurd h (by decide)

theorem ne_quote_of_atMark {s : List Char} (h : AtMark s) : s.head? ≠ some '\'' := by
  intro hhead
  obtain ⟨more, rfl⟩ := List.head?_eq_some_iff.1 hhead
  obtain ⟨c, rest, hskip, hc⟩ := h
  rw [skipSpace, List.dropWhile_cons_of_neg (by decide)] at hskip
  cases hskip
  rcases hc with hc | hc <;> exact absurd hc (by decide)

theorem before_eq_some {c : Char} {read : Option (List Char × List Char)} {text rest : List Char}
    (h : before c read = some (text, rest)) : ∃ more, read = some (more, rest) := by
  obtain ⟨⟨more, rest'⟩, hread, heq⟩ := Option.map_eq_some_iff.1 h
  cases heq
  exact ⟨more, hread⟩

theorem closes_of_basic {fuel : Nat} {s text rest : List Char}
    (h : basic fuel s = some (text, rest)) : Closes '"' s rest := by
  fun_induction basic fuel s generalizing text with
  | case1 => cases h
  | case2 => cases h
  | case3 =>
    cases h
    exact .done fun h => absurd h (by decide)
  | case4 fuel s ih =>
    obtain ⟨⟨c, s'⟩, hescaped, h⟩ := Option.bind_eq_some_iff.1 h
    obtain ⟨more, hmore⟩ := before_eq_some h
    exact .escape hescaped (ih _ hmore)
  | case5 fuel c s hquote hescape hprintable ih =>
    obtain ⟨more, hmore⟩ := before_eq_some h
    exact .char hquote (ne_break_of_isPrintable hprintable) (fun _ => hescape) (ih hmore)
  | case6 => cases h

theorem closes_of_literal {s text rest : List Char} (h : literal s = some (text, rest))
    (hrest : rest.head? ≠ some '\'') : Closes '\'' s rest := by
  induction s generalizing text with
  | nil => cases h
  | cons c s ih =>
    rw [literal] at h
    rcases ite_eq_iff.1 h with ⟨rfl, h⟩ | ⟨hquote, h⟩
    · cases h
      exact .done fun _ => hrest
    rcases ite_eq_iff.1 h with ⟨hprintable, h⟩ | ⟨-, h⟩
    · obtain ⟨more, hmore⟩ := before_eq_some h
      have hplain : '\'' = '"' → c ≠ '\\' := fun h => absurd h (by decide)
      exact .char hquote (ne_break_of_isPrintable hprintable) hplain (ih hmore)
    · cases h

theorem startsStatement_of_keyPart {s part rest : List Char} (h : keyPart s = some (part, rest))
    (hmark : AtMark rest) : StartsStatement s := by
  unfold keyPart at h
  split at h
  · exact .quoted (.inl rfl) (closes_of_basic h) hmark
  · exact .quoted (.inr rfl) (closes_of_literal h (ne_quote_of_atMark hmark)) hmark
  · rcases ite_eq_iff.1 h with ⟨-, h⟩ | ⟨hempty, h⟩
    · cases h
    cases h
    cases s with
    | nil => exact absurd rfl hempty
    | cons c s =>
      by_cases hc : isBareKeyChar c = true
      · rw [List.takeWhile_cons_of_pos hc] at hmark
        refine .bare hc ?_
        have hsplit := List.takeWhile_append_dropWhile (p := isBareKeyChar) (l := s)
        have hdrop : (s.takeWhile isBareKeyChar ++ s.dropWhile isBareKeyChar).drop
            (s.takeWhile isBareKeyChar).length = s.dropWhile isBareKeyChar := List.drop_left
        rw [hsplit] at hdrop
        rw [← hdrop]
        exact hmark
      · simp [hc] at hempty

/-! ## Statements -/

/-- A key before an equals sign begins with a name before a dot or an equals sign. -/
theorem startsStatement_of_key {s rest more : List Char} {k : Key} (h : key s = some (k, rest))
    (hs : skipSpace s = s) (hmark : mark '=' rest = some more) : StartsStatement s := by
  obtain ⟨⟨parts, rest'⟩, hparts, h⟩ := Option.bind_eq_some_iff.1 h
  dsimp only at h
  rcases ite_eq_iff.1 h with ⟨-, h⟩ | ⟨-, h⟩
  · cases h
  obtain ⟨last, -, h⟩ := Option.bind_eq_some_iff.1 h
  cases h
  rw [keyParts, hs] at hparts
  obtain ⟨⟨part, s'⟩, hpart, hparts⟩ := Option.bind_eq_some_iff.1 hparts
  refine startsStatement_of_keyPart hpart ?_
  dsimp only at hparts
  split at hparts
  next s'' hdot => exact ⟨'.', s'', hdot, .inl rfl⟩
  next =>
    cases hparts
    cases hskip : skipSpace s' with
    | nil =>
      rw [hskip] at hmark
      cases hmark
    | cons c s'' =>
      rw [hskip, mark] at hmark
      rcases ite_eq_iff.1 hmark with ⟨heq, -⟩ | ⟨-, hmark⟩
      · exact ⟨c, s'', hskip, .inr heq⟩
      · cases hmark

/-- A line without a statement is empty or a comment, or ends at once. -/
theorem eq_of_read_none {c : Char} {s rest : List Char}
    (h : Statement.read (c :: s) = some (none, rest)) :
    rest = c :: s ∧ (c = '#' ∨ c = '\n' ∨ c = '\r') := by
  unfold Statement.read at h
  split at h
  next hnil => cases hnil
  next heq =>
    cases h
    cases heq
    exact ⟨rfl, .inl rfl⟩
  next heq =>
    cases h
    cases heq
    exact ⟨rfl, .inr (.inl rfl)⟩
  next heq =>
    cases h
    cases heq
    exact ⟨rfl, .inr (.inr rfl)⟩
  · obtain ⟨⟨k, s₁⟩, -, h⟩ := Option.bind_eq_some_iff.1 h
    obtain ⟨s₂, -, h⟩ := Option.bind_eq_some_iff.1 h
    obtain ⟨s₃, -, h⟩ := Option.bind_eq_some_iff.1 h
    cases h
  · obtain ⟨⟨k, s₁⟩, -, h⟩ := Option.bind_eq_some_iff.1 h
    obtain ⟨s₂, -, h⟩ := Option.bind_eq_some_iff.1 h
    cases h
  · obtain ⟨⟨k, s₁⟩, -, h⟩ := Option.bind_eq_some_iff.1 h
    obtain ⟨s₂, -, h⟩ := Option.bind_eq_some_iff.1 h
    obtain ⟨⟨v, s₃⟩, -, h⟩ := Option.bind_eq_some_iff.1 h
    cases h

/-- **A line with a statement begins like one.** -/
theorem startsStatement_of_read {s rest : List Char} {statement : Statement}
    (h : Statement.read s = some (some statement, rest)) (hs : skipSpace s = s) :
    StartsStatement s := by
  unfold Statement.read at h
  split at h
  iterate 4 cases h
  · exact .header _
  · exact .header _
  · obtain ⟨⟨k, s'⟩, hkey, h⟩ := Option.bind_eq_some_iff.1 h
    obtain ⟨more, hmark, -⟩ := Option.bind_eq_some_iff.1 h
    exact startsStatement_of_key hkey hs hmark

end LayoutShell.Toml
