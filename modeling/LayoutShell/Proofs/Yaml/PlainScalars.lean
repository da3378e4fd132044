import LayoutShell.Proofs.Yaml.Cursors
import LayoutShell.Yaml.Scalar

/-!
# Where plain scalars end

* `showsKey` tells whether a line shows a key.
* `plain_end`: where a line shows none, a plain scalar is followed by nothing but a comment.
-/

namespace LayoutShell.Yaml

open Scalar

/-- On the line that begins here a colon stands before a gap, and not in a comment. -/
def showsKey : List Char → Bool
  | [] => false
  | c :: rest =>
    if isBreak c || isBlank c && rest.head? == some '#' then false
    else c == ':' && startsGap rest || showsKey rest

theorem showsKey_cons {ch : Char} {rest : List Char} (h : (isBlank ch || isBreak ch) = false) :
    showsKey (ch :: rest) = (ch == ':' && startsGap rest || showsKey rest) := by
  rw [Bool.or_eq_false_iff] at h
  simp [showsKey, h.1, h.2]

/-- Blanks before anything but a comment make no difference. -/
theorem showsKey_blanks {blanks rest : List Char} (hblanks : ∀ ch ∈ blanks, isBlank ch = true)
    (hrest : rest.head? ≠ some '#') : showsKey (blanks ++ rest) = showsKey rest := by
  induction blanks with
  | nil => rfl
  | cons ch blanks ih =>
    obtain ⟨hblank, hblanks⟩ := List.forall_mem_cons.1 hblanks
    have hhead : (blanks ++ rest).head? ≠ some '#' := by
      cases blanks with
      | nil => exact hrest
      | cons ch' blanks =>
        intro hhash
        exact (ne_of_isBlank (hblanks ch' List.mem_cons_self)).2.2 (Option.some.inj hhash)
    obtain ⟨hbreak, hcolon, -⟩ := ne_of_isBlank hblank
    rw [List.cons_append, showsKey, ← ih hblanks]
    generalize blanks ++ rest = s at hhead ⊢
    simp [hbreak, hcolon, hhead]

namespace Scalar

theorem takePiece_end {fuel : Nat} {c c' : Cursor} {piece : List Char}
    (h : takePiece false fuel c = some (piece, c')) :
    (c'.line = c.line ∧ showsKey c.rest = showsKey c'.rest) ∧
      (c'.rest = [] ∨ (c'.atBlank || c'.atBreak) = true ∨ showsKey c'.rest = true) := by
  induction fuel generalizing c piece with
  | zero => cases h
  | succ fuel ih =>
    cases hrest : c.rest with
    | nil =>
      simp only [takePiece, Cursor.next?, hrest, List.head?_nil] at h
      cases h
      exact ⟨⟨rfl, by rw [hrest]⟩, .inl hrest⟩
    | cons ch rest =>
      simp only [takePiece, Cursor.next?, hrest, List.head?_cons, Cursor.gapAt_zero hrest] at h
      rcases ite_eq_iff.1 h with ⟨hgap, h⟩ | ⟨hgap, h⟩
      · cases h
        refine ⟨⟨rfl, by rw [hrest]⟩, .inr (.inl ?_)⟩
        simpa [Cursor.atBlank, Cursor.atBreak, Cursor.next?, hrest] using hgap
      rw [Bool.not_eq_true] at hgap
      rw [if_neg (by simp [badColon])] at h
      have hends : endsPlain false c = (ch == ':' && startsGap rest) := by
        rw [Bool.or_eq_false_iff] at hgap
        simp [endsPlain, Cursor.next?, hrest, hgap, Cursor.gapAt_one hrest]
      rw [hends] at h
      rcases ite_eq_iff.1 h with ⟨hcolon, h⟩ | ⟨hcolon, h⟩
      · cases h
        refine ⟨⟨rfl, by rw [hrest]⟩, .inr (.inr ?_)⟩
        rw [hrest, showsKey_cons hgap, hcolon, Bool.true_or]
      · obtain ⟨⟨piece', c''⟩, hpiece, heq⟩ := Option.map_eq_some_iff.1 h
        cases heq
        obtain ⟨hadvance, hline, -⟩ := Cursor.advance_eq hrest
        obtain ⟨⟨hline', hkey⟩, hend⟩ := ih hpiece
        rw [Bool.not_eq_true] at hcolon
        rw [hadvance] at hkey
        rw [showsKey_cons hgap, hcolon, Bool.false_or]
        exact ⟨⟨hline'.trans hline, hkey⟩, hend⟩

/-- A gap goes to another line, or it consists of all blanks up to the next character. -/
theorem takeGap_end {indent : Int} {fuel : Nat} {g g' : Gap} {c c' : Cursor}
    (h : takeGap indent fuel g c = some (g', c')) :
    c.line < c'.line ∨ (c'.line = c.line ∧ (c'.atBlank || c'.atBreak) = false) ∧
      ∃ blanks, (∀ ch ∈ blanks, isBlank ch = true) ∧ c.rest = blanks ++ c'.rest ∧
        c'.column = c.column + blanks.length := by
  induction fuel generalizing g c with
  | zero => cases h
  | succ fuel ih =>
    cases hrest : c.rest with
    | nil =>
      simp only [takeGap, Cursor.next?, hrest, List.head?_nil] at h
      cases h
      exact .inr ⟨⟨rfl, by simp [Cursor.atBlank, Cursor.atBreak, Cursor.next?, hrest]⟩, [],
        by simp [hrest]⟩
    | cons ch rest =>
      simp only [takeGap, Cursor.next?, hrest, List.head?_cons] at h
      rcases ite_eq_iff.1 h with ⟨hblank, h⟩ | ⟨hblank, h⟩
      · rcases ite_eq_iff.1 h with ⟨-, h⟩ | ⟨-, h⟩
        · cases h
        obtain ⟨hadvance, hline, hcolumn⟩ := Cursor.advance_eq hrest
        have hgap := ih h
        rw [hline, hadvance, hcolumn] at hgap
        rcases hgap with hlater | ⟨hsame, blanks, hblanks, hrest', hcolumn'⟩
        · exact .inl hlater
        · refine .inr ⟨hsame, ch :: blanks, List.forall_mem_cons.2 ⟨hblank, hblanks⟩, ?_, ?_⟩
          · rw [hrest', List.cons_append]
          · rw [hcolumn', List.length_cons]
            omega
      rcases ite_eq_iff.1 h with ⟨hbreak, h⟩ | ⟨hbreak, h⟩
      · obtain ⟨-, -, -, -, hline⟩ :=
          Cursor.skipBreak_eq (Cursor.atBreak_iff.2 ⟨ch, rest, hrest, hbreak⟩)
        rcases ih h with hlater | ⟨⟨hsame, -⟩, -⟩
        · rw [Cursor.takeBreak, hline] at hlater
          omega
        · rw [Cursor.takeBreak, hline] at hsame
          omega
      · cases h
        refine .inr ⟨⟨rfl, ?_⟩, [], by simp [hrest]⟩
        simp [Cursor.atBlank, Cursor.atBreak, Cursor.next?, hrest, hblank, hbreak]

theorem plainFrom_end {indent : Int} (hindent : indent ≤ 0) {fuel : Nat} {g : Gap} {c c' : Cursor}
    {text : List Char} {broken : Bool}
    (h : plainFrom false indent g fuel c = some (text, broken, c')) :
    c.line ≤ c'.line ∧ (c.atDocumentMarker = false →
      c.line < c'.line ∨ c'.rest = [] ∨ c'.sees '#' = true ∨ showsKey c.rest = true) := by
  induction fuel generalizing g c text with
  | zero => cases h
  | succ fuel ih =>
    rw [plainFrom] at h
    rcases ite_eq_iff.1 h with ⟨hmarker, h⟩ | ⟨hmarker, h⟩
    · cases h
      exact ⟨Nat.le_refl _, fun hno => .inr (.inr (.inl (hmarker.resolve_left (by simp [hno]))))⟩
    obtain ⟨⟨piece, c₁⟩, hpiece, h⟩ := Option.bind_eq_some_iff.1 h
    dsimp only at h
    obtain ⟨⟨hline₁, hkey₁⟩, hend₁⟩ := takePiece_end hpiece
    rcases ite_eq_iff.1 h with ⟨hgap, h⟩ | ⟨hgap, h⟩
    · cases h
      rw [hkey₁]
      refine ⟨Nat.le_of_eq hline₁.symm, fun _ => .inr ?_⟩
      rcases hend₁ with hnil | hgap' | hkey
      · exact .inl hnil
      · simp [hgap'] at hgap
      · exact .inr (.inr hkey)
    obtain ⟨⟨g₂, c₂⟩, htake, h⟩ := Option.bind_eq_some_iff.1 h
    dsimp only at h
    rw [if_neg (by simp; omega)] at h
    obtain ⟨⟨more, broken', c₃⟩, hmore, h⟩ := Option.bind_eq_some_iff.1 h
    cases h
    obtain ⟨hle, hend⟩ := ih hmore
    rcases takeGap_end htake with hlater | ⟨⟨hline₂, hgap₂⟩, blanks, hblanks, hrest, hcolumn⟩
    · exact ⟨by omega, fun _ => .inl (by omega)⟩
    refine ⟨by omega, fun _ => ?_⟩
    -- On the same line the next piece stands after blanks, so it begins no document marker.
    have hmarker₂ : c₂.atDocumentMarker = false := by
      apply Cursor.not_atDocumentMarker
      intro hzero
      have hnil : blanks = [] := List.length_eq_zero_iff.1 (by omega)
      rw [hnil, List.nil_append] at hrest
      rw [Cursor.atBlank, Cursor.atBreak, Cursor.next?, hrest, ← Cursor.next?, ← Cursor.atBlank,
        ← Cursor.atBreak, hgap₂] at hgap
      exact hgap rfl
    by_cases hhash : c₂.rest.head? = some '#'
    · cases fuel with
      | zero => cases hmore
      | succ fuel =>
        have hsees := Cursor.sees_iff.2 hhash
        rw [plainFrom, if_pos (.inr hsees)] at hmore
        cases hmore
        exact .inr (.inr (.inl hsees))
    · rw [hkey₁, hrest, showsKey_blanks hblanks hhash, ← hline₁, ← hline₂]
      exact hend hmarker₂

/-- **A plain scalar is followed by nothing but a comment on its line**, if this shows no key. -/
theorem plain_end {c c' : Cursor} {text : List Char} {broken : Bool}
    (h : plain false (-1) c = some (text, broken, c')) (hmarker : c.atDocumentMarker = false)
    (hkey : showsKey c.rest = false) :
    c.line ≤ c'.line ∧ (c.line < c'.line ∨ c'.rest = [] ∨ c'.sees '#' = true) := by
  obtain ⟨hle, hend⟩ := plainFrom_end (by decide) h
  have hend := hend hmarker
  rw [hkey] at hend
  exact ⟨hle, by simpa using hend⟩

theorem takePiece_cons {fuel : Nat} {c c' : Cursor} {piece : List Char}
    (h : takePiece false fuel c = some (piece, c')) {ch : Char} {rest : List Char}
    (hrest : c.rest = ch :: rest) (hgap : (isBlank ch || isBreak ch) = false) (hcolon : ch ≠ ':') :
    ∃ more, piece = ch :: more := by
  cases fuel with
  | zero => cases h
  | succ fuel =>
    have hends : endsPlain false c = false := by
      rw [Bool.or_eq_false_iff] at hgap
      simp [endsPlain, Cursor.next?, hrest, hgap, hcolon]
    simp only [takePiece, Cursor.next?, hrest, List.head?_cons, Cursor.gapAt_zero hrest] at h
    rw [if_neg (by simp [hgap]), if_neg (by simp [badColon]), if_neg (by simp [hends])] at h
    obtain ⟨⟨more, c''⟩, -, heq⟩ := Option.map_eq_some_iff.1 h
    cases heq
    exact ⟨more, rfl⟩

/-- A plain scalar is not empty. -/
theorem plain_ne_nil {indent : Int} {c c' : Cursor} {text : List Char} {broken : Bool}
    (h : plain false indent c = some (text, broken, c')) (hmarker : c.atDocumentMarker = false)
    {ch : Char} {rest : List Char} (hrest : c.rest = ch :: rest)
    (hch : (isBlank ch || isBreak ch) = false ∧ ch ≠ '#' ∧ ch ≠ ':') : text ≠ [] := by
  obtain ⟨hgap, hhash, hcolon⟩ := hch
  have hfirst : ¬(c.atDocumentMarker = true ∨ c.sees '#' = true) := by
    simp [hmarker, Cursor.sees_iff, hrest, hhash]
  rw [plain, plainFrom, if_neg hfirst] at h
  obtain ⟨⟨piece, c₁⟩, htake, h⟩ := Option.bind_eq_some_iff.1 h
  obtain ⟨more, rfl⟩ := takePiece_cons htake hrest hgap hcolon
  dsimp only at h
  rcases ite_eq_iff.1 h with ⟨-, h⟩ | ⟨-, h⟩
  · cases h
    simp
  obtain ⟨⟨g₂, c₂⟩, -, h⟩ := Option.bind_eq_some_iff.1 h
  rcases ite_eq_iff.1 h with ⟨-, h⟩ | ⟨-, h⟩
  · cases h
    simp
  obtain ⟨⟨more', broken', c₃⟩, -, h⟩ := Option.bind_eq_some_iff.1 h
  cases h
  simp

end Scalar

end LayoutShell.Yaml
