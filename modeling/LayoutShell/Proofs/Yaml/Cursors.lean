import LayoutShell.Yaml.Cursor
import Mathlib.Data.List.TakeWhile

/-!
# Moving in a YAML text

Every function that moves a cursor is described by what is left of the text and by the line.
-/

namespace LayoutShell.Yaml

theorem not_of_head?_dropWhile {p : Char → Bool} {s : List Char} {c : Char}
    (h : (s.dropWhile p).head? = some c) : p c = false := by
  have hhead := List.head?_dropWhile_not p s
  rw [h] at hhead
  exact hhead

theorem ne_of_isBlank {c : Char} (h : isBlank c = true) :
    isBreak c = false ∧ c ≠ ':' ∧ c ≠ '#' := by
  rw [isBlank, Bool.or_eq_true, beq_iff_eq, beq_iff_eq] at h
  rcases h with rfl | rfl <;> decide

/-- A text begins with a blank or a line break, or is empty. -/
def startsGap (s : List Char) : Bool := s.head?.all fun c => isBlank c || isBreak c

namespace Cursor

theorem gapAt_zero {c : Cursor} {ch : Char} {rest : List Char} (h : c.rest = ch :: rest) :
    c.gapAt 0 = (isBlank ch || isBreak ch) := by
  rw [gapAt, h]
  rfl

theorem gapAt_one {c : Cursor} {ch : Char} {rest : List Char} (h : c.rest = ch :: rest) :
    c.gapAt 1 = startsGap rest := by
  rw [gapAt, h]
  cases rest <;> rfl

theorem advance_eq {c : Cursor} {ch : Char} {rest : List Char} (h : c.rest = ch :: rest) :
    c.advance.rest = rest ∧ c.advance.line = c.line ∧ c.advance.column = c.column + 1 := by
  rw [advance, advanceBy, h]
  exact ⟨rfl, rfl, rfl⟩

theorem takeFrom_eq (p : Char → Bool) (line : Nat) (rest : List Char) (index column : Nat) :
    ∃ index' column', takeFrom (fun _ => p) line rest index column =
      (rest.takeWhile p, ⟨rest.dropWhile p, index', line, column'⟩) ∧ column ≤ column' := by
  induction rest generalizing index column with
  | nil => exact ⟨index, column, rfl, Nat.le_refl _⟩
  | cons ch rest ih =>
    rw [takeFrom]
    by_cases hp : p ch = true
    · obtain ⟨index', column', h, hle⟩ := ih (index + ch.utf8Size) (column + 1)
      refine ⟨index', column', ?_, by omega⟩
      simp [hp, h]
    · exact ⟨index, column, by simp [hp], Nat.le_refl _⟩

theorem rest_skipWhile (p : Char → Bool) (c : Cursor) :
    (c.skipWhile p).rest = c.rest.dropWhile p := by
  obtain ⟨_, _, h, -⟩ := takeFrom_eq p c.line c.rest c.index c.column
  rw [skipWhile, takeWhile, h]

theorem length_skipWhile_le (p : Char → Bool) (c : Cursor) :
    (c.skipWhile p).rest.length ≤ c.rest.length := by
  rw [rest_skipWhile]
  exact (List.dropWhile_suffix p).length_le

theorem line_skipWhile (p : Char → Bool) (c : Cursor) : (c.skipWhile p).line = c.line := by
  obtain ⟨_, _, h, -⟩ := takeFrom_eq p c.line c.rest c.index c.column
  rw [skipWhile, takeWhile, h]

theorem le_column_skipWhile (p : Char → Bool) (c : Cursor) :
    c.column ≤ (c.skipWhile p).column := by
  obtain ⟨_, _, h, hle⟩ := takeFrom_eq p c.line c.rest c.index c.column
  rw [skipWhile, takeWhile, h]
  exact hle

theorem sees_iff {c : Cursor} {ch : Char} : c.sees ch = true ↔ c.rest.head? = some ch := by
  rw [sees, next?, beq_iff_eq]

theorem atBreak_iff {c : Cursor} :
    c.atBreak = true ↔ ∃ ch rest, c.rest = ch :: rest ∧ isBreak ch := by
  unfold atBreak next?
  cases c.rest <;> simp

/-- Moving over a line break moves over nothing else. -/
theorem skipBreak_eq {c : Cursor} (h : c.atBreak = true) :
    ∃ breaks, breaks ≠ [] ∧ (∀ ch ∈ breaks, isBreak ch = true) ∧
      c.rest = breaks ++ c.skipBreak.rest ∧ c.skipBreak.line = c.line + 1 := by
  obtain ⟨ch, rest, hrest, hbreak⟩ := atBreak_iff.1 h
  unfold skipBreak
  split
  next rest' hboth =>
    exact ⟨['\r', '\n'], by simp, by simp [isBreak], hboth, rfl⟩
  next ch' rest' _ hone =>
    obtain ⟨rfl, rfl⟩ := List.cons.inj (hrest.symm.trans hone)
    rw [if_pos hbreak]
    exact ⟨[ch], by simp, by simpa using hbreak, hone, rfl⟩
  next hnil => simp [hrest] at hnil

theorem not_atBreak_iff {c : Cursor} :
    c.atBreak = false ↔ ∀ ch rest, c.rest = ch :: rest → isBreak ch = false := by
  unfold atBreak next?
  cases c.rest <;> simp

/-- At the end of a line there is a line break or nothing. -/
theorem rest_skipLine_eq_nil {c : Cursor} (h : c.skipLine.atBreak = false) :
    c.skipLine.rest = [] := by
  cases hrest : c.skipLine.rest with
  | nil => rfl
  | cons ch rest =>
    have hbreak := not_atBreak_iff.1 h ch rest hrest
    rw [skipLine, rest_skipWhile] at hrest
    have hnot := not_of_head?_dropWhile (show (_ : List Char).head? = some ch by rw [hrest]; rfl)
    rw [hbreak] at hnot
    cases hnot

/-- Passes over a byte order mark at the start of a line. -/
def skipMark (c : Cursor) : Cursor :=
  if c.column = 0 ∧ c.sees '\uFEFF' then c.advance else c

/-- Passes over a comment, if there is one. -/
def skipComment (c : Cursor) : Cursor := if c.sees '#' then c.skipLine else c

theorem skipMark_of_ne {c : Cursor} (h : c.rest.head? ≠ some '\uFEFF') : c.skipMark = c :=
  if_neg fun hmark => h (sees_iff.1 hmark.2)

theorem skipComment_of_ne {c : Cursor} (h : c.rest.head? ≠ some '#') : c.skipComment = c :=
  if_neg (mt sees_iff.1 h)

theorem line_skipMark (c : Cursor) : c.skipMark.line = c.line := by
  unfold skipMark
  split <;> rfl

theorem line_skipComment (c : Cursor) : c.skipComment.line = c.line := by
  unfold skipComment
  split
  · exact line_skipWhile _ c
  · rfl

theorem length_skipComment_le (c : Cursor) : c.skipComment.rest.length ≤ c.rest.length := by
  unfold skipComment
  split
  · exact length_skipWhile_le _ c
  · exact Nat.le_refl _

theorem rest_skipBreak {c : Cursor} {ch : Char} {s : List Char} (hrest : c.rest = ch :: s)
    (hbreak : isBreak ch = true) (hreturn : ch ≠ '\r') : c.skipBreak.rest = s := by
  unfold skipBreak
  split
  next hboth =>
    rw [hrest] at hboth
    exact absurd (List.cons.inj hboth).1 hreturn
  next ch' rest' _ hone =>
    obtain ⟨rfl, rfl⟩ := List.cons.inj (hrest.symm.trans hone)
    rw [if_pos hbreak]
  next hnil => simp [hrest] at hnil

theorem atMarker_of_ne {c : Cursor} {ch ch' : Char} {rest : List Char}
    (hrest : c.rest = ch' :: rest) (hne : ch' ≠ ch) : c.atMarker ch = false := by
  simp [atMarker, hrest, hne]

theorem not_atDocumentMarker {c : Cursor} (h : c.column ≠ 0) : c.atDocumentMarker = false := by
  simp [Cursor.atDocumentMarker, Cursor.atMarker, h]

end Cursor

end LayoutShell.Yaml
