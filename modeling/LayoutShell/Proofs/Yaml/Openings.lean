import LayoutShell.Proofs.Yaml.Cursors
import LayoutShell.Yaml.Token

/-!
# What stands before the first token

* `splitOpening` cuts a text before its first character that is neither blank nor in a comment.
* `toNextToken_opening`: there a scan finds its first token, unless a tab stands before it.
* `toNextToken_lineEnd` and `toNextToken_blanks` say where it goes later on.
-/

namespace LayoutShell.Yaml

/-- Cuts a text before its first character that is neither blank nor in a comment. `inComment` tells
whether the text begins inside a comment. -/
def splitOpening (inComment : Bool) : List Char → List Char × List Char
  | [] => ([], [])
  | c :: rest =>
    if isBreak c then (splitOpening false rest).map (c :: ·) id
    else if inComment || isBlank c then (splitOpening inComment rest).map (c :: ·) id
    else if c = '#' then (splitOpening true rest).map (c :: ·) id
    else ([], c :: rest)

theorem splitOpening_append {inComment : Bool} {skipped : List Char}
    (h : ∀ c ∈ skipped, isBreak c = false ∧ (inComment = true ∨ isBlank c = true)) (s : List Char) :
    splitOpening inComment (skipped ++ s) = (splitOpening inComment s).map (skipped ++ ·) id := by
  induction skipped with
  | nil => rfl
  | cons c skipped ih =>
    obtain ⟨⟨hbreak, hskip⟩, h⟩ := List.forall_mem_cons.1 h
    rw [List.cons_append, splitOpening, if_neg (by simp [hbreak]), if_pos (by simpa using hskip),
      ih h]
    rfl

theorem splitOpening_breaks {inComment : Bool} {breaks : List Char} (hne : breaks ≠ [])
    (h : ∀ c ∈ breaks, isBreak c = true) (s : List Char) :
    splitOpening inComment (breaks ++ s) = (splitOpening false s).map (breaks ++ ·) id := by
  induction breaks generalizing inComment with
  | nil => exact absurd rfl hne
  | cons c breaks ih =>
    obtain ⟨hbreak, h⟩ := List.forall_mem_cons.1 h
    rw [List.cons_append, splitOpening, if_pos hbreak]
    by_cases hnil : breaks = []
    · rw [hnil]
      rfl
    · rw [ih hnil h]
      rfl

theorem splitOpening_dropWhile {inComment : Bool} {p : Char → Bool}
    (h : ∀ c, p c = true → isBreak c = false ∧ (inComment = true ∨ isBlank c = true))
    (s : List Char) :
    (splitOpening inComment (s.dropWhile p)).2 = (splitOpening inComment s).2 := by
  have hskipped : ∀ c ∈ s.takeWhile p,
      isBreak c = false ∧ (inComment = true ∨ isBlank c = true) := by
    intro c hc
    exact h c (List.mem_takeWhile_imp hc)
  have hsplit := splitOpening_append hskipped (s.dropWhile p)
  rw [List.takeWhile_append_dropWhile] at hsplit
  rw [hsplit]
  rfl

/-- A comment goes to the end of its line. What is no comment begins a token, if it is no tab. -/
theorem exists_splitOpening_comment {c : Cursor} (hspace : c.rest.head? ≠ some ' ') :
    ∃ inComment, (splitOpening inComment c.skipComment.rest).2 = (splitOpening false c.rest).2 ∧
      (c.skipComment.atBreak = false →
        c.skipComment.rest = (splitOpening inComment c.skipComment.rest).2 ∨
          c.skipComment.rest.head? = some '\t') := by
  by_cases hhash : c.sees '#' = true
  · obtain ⟨more, hmore⟩ := List.head?_eq_some_iff.1 (Cursor.sees_iff.1 hhash)
    have hcomment : c.skipComment = c.skipLine := if_pos hhash
    have hrest : c.skipLine.rest = more.dropWhile (!isBreak ·) := by
      rw [Cursor.skipLine, Cursor.rest_skipWhile, hmore]
      rfl
    rw [hcomment]
    refine ⟨true, ?_, fun hbreak => ?_⟩
    · rw [hrest, splitOpening_dropWhile (by simp), hmore]
      rfl
    · rw [Cursor.rest_skipLine_eq_nil hbreak]
      exact .inl rfl
  · rw [Cursor.skipComment, if_neg hhash]
    refine ⟨false, rfl, fun hbreak => ?_⟩
    cases hrest : c.rest with
    | nil => exact .inl rfl
    | cons ch more =>
      by_cases htab : ch = '\t'
      · exact .inr (congrArg some htab)
      · have hblank : isBlank ch = false := by
          rw [hrest] at hspace
          simp [isBlank, htab, show ch ≠ ' ' from fun h => hspace (congrArg some h)]
        have hmark : ch ≠ '#' := fun h => hhash (Cursor.sees_iff.2 (by rw [hrest, h]; rfl))
        rw [splitOpening, if_neg (by simp [Cursor.not_atBreak_iff.1 hbreak ch more hrest]),
          if_neg (by simp [hblank]), if_neg hmark]
        exact .inl rfl

namespace Scanner

/-- The characters that a scan for the next token takes for space. -/
def isGap (s : Scanner) (ch : Char) : Bool :=
  ch == ' ' || ((s.inFlow || !s.keyAllowed) && ch == '\t')

/-- The place on the line where a scan for the next token stops. -/
def lineStop (s : Scanner) : Cursor := (s.cursor.skipMark.skipWhile s.isGap).skipComment

theorem toNextToken_succ (fuel : Nat) (s : Scanner) :
    toNextToken (fuel + 1) s =
      if s.lineStop.atBreak then
        toNextToken fuel
          { s with cursor := s.lineStop.skipBreak, keyAllowed := s.keyAllowed || !s.inFlow }
      else { s with cursor := s.lineStop } := rfl

/-- **A scan goes to the first character that is neither blank nor in a comment**, or stops at a tab
before it. -/
theorem toNextToken_opening {fuel : Nat} {s : Scanner} (hflow : s.inFlow = false)
    (hallowed : s.keyAllowed = true) (hfuel : s.cursor.rest.length < fuel)
    (hmark : (splitOpening false s.cursor.rest).2.head? ≠ some '\uFEFF') :
    ∃ c, toNextToken fuel s = { s with cursor := c } ∧
      (c.rest = (splitOpening false s.cursor.rest).2 ∨ c.rest.head? = some '\t') := by
  induction fuel generalizing s with
  | zero => omega
  | succ fuel ih =>
    have hstart : s.cursor.rest.head? ≠ some '\uFEFF' := by
      intro hhead
      obtain ⟨rest, hrest⟩ := List.head?_eq_some_iff.1 hhead
      rw [hrest] at hmark
      exact hmark rfl
    have hgap : s.isGap = (· == ' ') := by
      funext ch
      simp [isGap, hflow, hallowed]
    have hstop : s.lineStop = (s.cursor.skipWhile (· == ' ')).skipComment := by
      rw [lineStop, hgap, Cursor.skipMark_of_ne hstart]
    have hspaces : (splitOpening false (s.cursor.skipWhile (· == ' ')).rest).2 =
        (splitOpening false s.cursor.rest).2 := by
      rw [Cursor.rest_skipWhile, splitOpening_dropWhile]
      intro c hc
      rw [beq_iff_eq] at hc
      subst hc
      decide
    have hspace : (s.cursor.skipWhile (· == ' ')).rest.head? ≠ some ' ' := by
      intro h
      rw [Cursor.rest_skipWhile] at h
      exact absurd (not_of_head?_dropWhile h) (by decide)
    obtain ⟨inComment, hcomment, hend⟩ := exists_splitOpening_comment hspace
    rw [← hstop] at hcomment hend
    rw [← hspaces, ← hcomment] at hmark ⊢
    rw [toNextToken_succ]
    split
    next hbreak =>
      obtain ⟨breaks, hne, hbreaks, hrest, -⟩ := Cursor.skipBreak_eq hbreak
      have hlater : (splitOpening false s.lineStop.skipBreak.rest).2 =
          (splitOpening inComment s.lineStop.rest).2 := by
        rw [hrest, splitOpening_breaks hne hbreaks]
        rfl
      have hlength : s.lineStop.skipBreak.rest.length < fuel := by
        have hspaces := Cursor.length_skipWhile_le (· == ' ') s.cursor
        have hline := Cursor.length_skipComment_le (s.cursor.skipWhile (· == ' '))
        have hpos := List.length_pos_iff.2 hne
        rw [← hstop, hrest, List.length_append] at hline
        omega
      have hkept : (s.keyAllowed || !s.inFlow) = s.keyAllowed := by
        rw [hallowed, Bool.true_or]
      rw [← hlater] at hmark ⊢
      rw [hkept]
      exact ih (s := { s with cursor := s.lineStop.skipBreak }) hflow hallowed hlength hmark
    next hbreak => exact ⟨s.lineStop, rfl, hend (by simpa using hbreak)⟩

/-- A byte order mark at the start of a line is passed over. -/
theorem toNextToken_mark {fuel : Nat} {s : Scanner} (hcolumn : s.cursor.column = 0)
    (hsees : s.cursor.sees '\uFEFF' = true) :
    toNextToken (fuel + 1) s = toNextToken (fuel + 1) { s with cursor := s.cursor.advance } := by
  have hmark : s.cursor.skipMark = s.cursor.advance := if_pos ⟨hcolumn, hsees⟩
  have hagain : s.cursor.advance.skipMark = s.cursor.advance :=
    if_neg fun h => absurd h.1 (by simp [Cursor.advance, Cursor.advanceBy])
  have hstop : lineStop { s with cursor := s.cursor.advance } = s.lineStop := by
    rw [lineStop, lineStop, hmark, hagain]
    rfl
  rw [toNextToken_succ, toNextToken_succ, hstop]
  rfl

/-! ## Later tokens -/

theorem line_lineStop (s : Scanner) : s.lineStop.line = s.cursor.line := by
  rw [lineStop, Cursor.line_skipComment, Cursor.line_skipWhile, Cursor.line_skipMark]

theorem line_le_toNextToken (fuel : Nat) (s : Scanner) :
    s.cursor.line ≤ (toNextToken fuel s).cursor.line := by
  induction fuel generalizing s with
  | zero => exact Nat.le_refl _
  | succ fuel ih =>
    rw [toNextToken_succ]
    split
    next hbreak =>
      obtain ⟨-, -, -, -, hline⟩ := Cursor.skipBreak_eq hbreak
      rw [line_lineStop] at hline
      refine Nat.le_trans ?_ (ih _)
      dsimp only
      omega
    next => exact Nat.le_of_eq (line_lineStop s).symm

/-- Behind a comment a scan is on another line or at the end of the text. -/
theorem toNextToken_comment (fuel : Nat) {s : Scanner} (h : s.cursor.sees '#' = true) :
    s.cursor.line < (toNextToken (fuel + 1) s).cursor.line ∨
      (toNextToken (fuel + 1) s).cursor.rest = [] := by
  rw [toNextToken_succ]
  split
  next hbreak =>
    obtain ⟨-, -, -, -, hline⟩ := Cursor.skipBreak_eq hbreak
    rw [line_lineStop] at hline
    refine .inl (Nat.lt_of_lt_of_le ?_ (line_le_toNextToken fuel _))
    dsimp only
    omega
  next hbreak =>
    obtain ⟨more, hmore⟩ := List.head?_eq_some_iff.1 (Cursor.sees_iff.1 h)
    have hrest : (s.cursor.skipWhile s.isGap).rest = s.cursor.rest := by
      rw [Cursor.rest_skipWhile, hmore]
      exact List.dropWhile_cons_of_neg (by simp [isGap])
    have hstop : s.lineStop = (s.cursor.skipWhile s.isGap).skipLine := by
      rw [lineStop, Cursor.skipMark_of_ne (by simp [hmore])]
      exact if_pos (Cursor.sees_iff.2 (by rw [hrest, hmore]; rfl))
    rw [hstop] at hbreak ⊢
    exact .inr (Cursor.rest_skipLine_eq_nil (by simpa using hbreak))

theorem toNextToken_end (fuel : Nat) {s : Scanner} (h : s.cursor.rest = []) :
    (toNextToken (fuel + 1) s).cursor.rest = [] := by
  have hgap : (s.cursor.skipWhile s.isGap).rest = [] := by
    rw [Cursor.rest_skipWhile, h]
    rfl
  have hstop : s.lineStop.rest = [] := by
    rw [lineStop, Cursor.skipMark_of_ne (by simp [h]), Cursor.skipComment_of_ne (by simp [hgap]),
      hgap]
  rw [toNextToken_succ, if_neg]
  · exact hstop
  · simp [Cursor.atBreak, Cursor.next?, hstop]

/-- A scan that is past a line, at the end of the text or at a comment goes to a later line or to
the end of the text. -/
theorem toNextToken_lineEnd (fuel : Nat) {s : Scanner} {line : Nat} (hline : line ≤ s.cursor.line)
    (h : line < s.cursor.line ∨ s.cursor.rest = [] ∨ s.cursor.sees '#' = true) :
    line < (toNextToken (fuel + 1) s).cursor.line ∨
      (toNextToken (fuel + 1) s).cursor.rest = [] := by
  rcases h with hlater | hnil | hhash
  · exact .inl (Nat.lt_of_lt_of_le hlater (line_le_toNextToken _ s))
  · exact .inr (toNextToken_end fuel hnil)
  · exact (toNextToken_comment fuel hhash).imp_left (Nat.lt_of_le_of_lt hline)

/-- Where no key may begin, blanks are passed over. -/
theorem toNextToken_blanks (fuel : Nat) {s : Scanner} (hallowed : s.keyAllowed = false)
    {ch : Char} {rest : List Char} (hrest : s.cursor.rest.dropWhile isBlank = ch :: rest)
    (hmark : s.cursor.rest.head? ≠ some '\uFEFF') (hch : isBreak ch = false ∧ ch ≠ '#') :
    ∃ c, toNextToken (fuel + 1) s = { s with cursor := c } ∧ c.rest = ch :: rest ∧
      s.cursor.column ≤ c.column := by
  have hgap : s.isGap = isBlank := by
    funext c
    simp [isGap, isBlank, hallowed]
  have hblanks : (s.cursor.skipWhile s.isGap).rest = ch :: rest := by
    rw [Cursor.rest_skipWhile, hgap, hrest]
  have hstop : s.lineStop = s.cursor.skipWhile s.isGap := by
    rw [lineStop, Cursor.skipMark_of_ne hmark, Cursor.skipComment_of_ne (by simp [hblanks, hch.2])]
  rw [toNextToken_succ, hstop, if_neg]
  · exact ⟨_, rfl, hblanks, Cursor.le_column_skipWhile _ _⟩
  · simp [Cursor.atBreak, Cursor.next?, hblanks, hch.1]

end Scanner

end LayoutShell.Yaml
