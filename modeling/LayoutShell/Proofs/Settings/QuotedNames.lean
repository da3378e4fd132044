import LayoutShell.Proofs.Toml.Statements
import LayoutShell.Proofs.Yaml.Cursors
import LayoutShell.Yaml.Scalar

/-!
# Names in quotes

Where a TOML text is taken for YAML, a name in quotes is read as a scalar in quotes.

* `takeEscape_end`: an escape of TOML is as long in YAML.
* `quoted_end`: the scalar ends where the name does.
-/

namespace LayoutShell.Yaml

open Toml (Closes)

namespace Scalar

theorem takeEscape_short {c c' : Cursor} {letter d e : Char} {s : List Char}
    (hrest : c.rest = '\\' :: letter :: s) (hletter : escape? letter = some d)
    (h : takeEscape c = some (e, c')) : c'.rest = s := by
  have hget : c.rest[1]? = some letter := by rw [hrest]; rfl
  rw [takeEscape, hget] at h
  simp only [Option.bind_eq_bind, Option.bind_some, hletter] at h
  cases h
  rw [Cursor.advanceBy, hrest]
  rfl

theorem takeEscape_numbered {c c' : Cursor} {letter e : Char} {s : List Char} {count : Nat}
    (hrest : c.rest = '\\' :: letter :: s) (hletter : escape? letter = none)
    (hcount : escapeLength? letter = some count) (h : takeEscape c = some (e, c')) :
    c'.rest = s.drop count := by
  have hget : c.rest[1]? = some letter := by rw [hrest]; rfl
  rw [takeEscape, hget] at h
  simp only [Option.bind_eq_bind, Option.bind_some, hletter, hcount] at h
  obtain ⟨value, -, h⟩ := Option.bind_eq_some_iff.1 h
  split at h
  · cases h
    rw [Cursor.advanceBy, hrest, Nat.add_comm]
    rfl
  · cases h

theorem not_isBreak_of_escaped {s s' more : List Char} {d ch : Char}
    (h : Toml.escaped s = some (d, s')) (hs : s = ch :: more) : isBreak ch = false := by
  rw [← Bool.not_eq_true]
  intro hbreak
  have hnone : Toml.escaped (ch :: more) = none := by
    simp only [isBreak, Bool.or_eq_true, beq_iff_eq] at hbreak
    rcases hbreak with (((rfl | rfl) | rfl) | rfl) | rfl <;> rfl
  rw [hs, hnone] at h
  cases h

/-- An escape of TOML is as long in YAML. -/
theorem takeEscape_end {c c' : Cursor} {s s' : List Char} {d e : Char} (hrest : c.rest = '\\' :: s)
    (hs : Toml.escaped s = some (d, s')) (h : takeEscape c = some (e, c')) : c'.rest = s' := by
  unfold Toml.escaped at hs
  split at hs
  iterate 7
    cases hs
    exact takeEscape_short hrest rfl h
  · rw [Toml.numbered_rest hs]
    exact takeEscape_numbered hrest rfl rfl h
  · rw [Toml.numbered_rest hs]
    exact takeEscape_numbered hrest rfl rfl h
  · cases hs

variable {quote : Char} (hquote : quote = '"' ∨ quote = '\'') {rest : List Char}

include hquote

theorem ne_of_gap (ch : Char) (h : (isBlank ch || isBreak ch) = true) : ch ≠ quote ∧ ch ≠ '\\' := by
  refine ⟨?_, ?_⟩
  · rintro rfl
    rcases hquote with rfl | rfl <;> exact absurd h (by decide)
  · rintro rfl
    exact absurd h (by decide)

/-- A gap does not go past the closing quote. -/
theorem closes_takeGap {indent : Int} {fuel : Nat} {g g' : Gap} {c c' : Cursor}
    (hc : Closes quote c.rest rest) (h : takeGap indent fuel g c = some (g', c')) :
    Closes quote c'.rest rest := by
  induction fuel generalizing g c with
  | zero => cases h
  | succ fuel ih =>
    cases hrest : c.rest with
    | nil =>
      rw [hrest] at hc
      cases hc
    | cons ch s =>
      rw [hrest] at hc
      simp only [takeGap, Cursor.next?, hrest, List.head?_cons] at h
      rcases ite_eq_iff.1 h with ⟨hblank, h⟩ | ⟨hblank, h⟩
      · rcases ite_eq_iff.1 h with ⟨-, h⟩ | ⟨-, h⟩
        · cases h
        obtain ⟨hne, hescape⟩ := ne_of_gap hquote ch (by simp [hblank])
        refine ih ?_ h
        rw [(Cursor.advance_eq hrest).1]
        exact (hc.of_char hne fun _ => hescape).2
      rcases ite_eq_iff.1 h with ⟨hbreak, h⟩ | ⟨hbreak, h⟩
      · obtain ⟨hne, hescape⟩ := ne_of_gap hquote ch (by simp [hbreak])
        obtain ⟨hreturn, htail⟩ := hc.of_char hne fun _ => hescape
        refine ih ?_ h
        rw [Cursor.takeBreak, Cursor.rest_skipBreak hrest hbreak hreturn]
        exact htail
      · cases h
        rw [hrest]
        exact hc

/-- A piece ends at the closing quote or before it. -/
theorem closes_takeQuotedPiece {fuel : Nat} {c c' : Cursor} {piece : List Char} {cut : Bool}
    (hc : Closes quote c.rest rest) (h : takeQuotedPiece quote fuel c = some (piece, cut, c')) :
    Closes quote c'.rest rest := by
  induction fuel generalizing c piece with
  | zero => cases h
  | succ fuel ih =>
    cases hrest : c.rest with
    | nil =>
      rw [hrest] at hc
      cases hc
    | cons ch s =>
      have hc₁ := hc
      rw [hrest] at hc₁
      simp only [takeQuotedPiece, Cursor.next?, hrest, List.head?_cons,
        Cursor.gapAt_zero hrest] at h
      rcases ite_eq_iff.1 h with ⟨-, hgap⟩ | ⟨-, h₁⟩
      · cases hgap
        exact hc
      rcases ite_eq_iff.1 h₁ with ⟨⟨rfl, rfl, hsecond⟩, -⟩ | ⟨-, h₂⟩
      · rw [List.getElem?_cons_succ, ← List.head?_eq_getElem?] at hsecond
        exact absurd hsecond (hc₁.eq_of_quote.2 rfl)
      rcases ite_eq_iff.1 h₂ with ⟨-, hend⟩ | ⟨hne, h₃⟩
      · cases hend
        exact hc
      rcases ite_eq_iff.1 h₃ with ⟨⟨rfl, rfl⟩, hescape⟩ | ⟨hplain, hchar⟩
      · obtain ⟨d, s', hs, htail⟩ := hc₁.of_escape
        have hbreak : c.advance.atBreak = false := by
          rw [Cursor.not_atBreak_iff, (Cursor.advance_eq hrest).1]
          exact fun _ _ => not_isBreak_of_escaped hs
        rw [hbreak, if_neg (by decide)] at hescape
        obtain ⟨⟨d', c₂⟩, htake, hescape⟩ := Option.bind_eq_some_iff.1 hescape
        obtain ⟨⟨piece', cut', c₃⟩, hpiece, heq⟩ := Option.bind_eq_some_iff.1 hescape
        cases heq
        refine ih ?_ hpiece
        rw [takeEscape_end hrest hs htake]
        exact htail
      · obtain ⟨⟨piece', cut', c₂⟩, hpiece, heq⟩ := Option.map_eq_some_iff.1 hchar
        cases heq
        refine ih ?_ hpiece
        rw [(Cursor.advance_eq hrest).1]
        exact (hc₁.of_char hne fun hq hch => hplain ⟨hq, hch⟩).2

/-- **A scalar in quotes ends where the string of a TOML text does.** -/
theorem quotedFrom_end {fuel : Nat} {c c' : Cursor} {text : List Char}
    (hc : Closes quote c.rest rest) (h : quotedFrom quote fuel c = some (text, c')) :
    c'.rest = rest ∧ c'.column ≠ 0 := by
  induction fuel generalizing c text with
  | zero => cases h
  | succ fuel ih =>
    rw [quotedFrom] at h
    rcases ite_eq_iff.1 h with ⟨-, h⟩ | ⟨-, h⟩
    · cases h
    obtain ⟨⟨piece, cut, c₁⟩, hpiece, h⟩ := Option.bind_eq_some_iff.1 h
    have hc₁ := closes_takeQuotedPiece hquote hc hpiece
    dsimp only at h
    rcases ite_eq_iff.1 h with ⟨hsees, h⟩ | ⟨-, h⟩
    · cases h
      obtain ⟨s, hs⟩ := List.head?_eq_some_iff.1 (Cursor.sees_iff.1 hsees)
      rw [hs] at hc₁
      obtain ⟨hrest, -, hcolumn⟩ := Cursor.advance_eq hs
      rw [hrest, hcolumn]
      exact ⟨hc₁.eq_of_quote.1, Nat.succ_ne_zero _⟩
    obtain ⟨⟨g, c₂⟩, hgap, h⟩ := Option.bind_eq_some_iff.1 h
    obtain ⟨⟨more, c₃⟩, hmore, h⟩ := Option.bind_eq_some_iff.1 h
    cases h
    exact ih (closes_takeGap hquote hc₁ hgap) hmore

theorem quoted_end {c c' : Cursor} {s text : List Char} (hrest : c.rest = quote :: s)
    (hs : Closes quote s rest) (h : quoted quote c = some (text, c')) :
    c'.rest = rest ∧ c'.column ≠ 0 := by
  refine quotedFrom_end hquote ?_ h
  rw [(Cursor.advance_eq hrest).1]
  exact hs

end Scalar

end LayoutShell.Yaml
