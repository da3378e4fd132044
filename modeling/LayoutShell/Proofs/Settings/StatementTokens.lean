import LayoutShell.Proofs.Settings.QuotedNames
import LayoutShell.Proofs.Settings.YamlRoots
import LayoutShell.Proofs.Text.Cutting
import LayoutShell.Proofs.Yaml.FirstTokens
import LayoutShell.Proofs.Yaml.Openings
import LayoutShell.Proofs.Yaml.PlainScalars

/-!
# The first tokens of a TOML statement

A text that begins like a TOML statement is cut into YAML tokens that do not begin like settings.

* A header begins a flow sequence (`noSettings_header`).
* A name in quotes is a scalar, and the mark after it begins another (`noSettings_quoted`).
* A bare name begins a plain scalar (`noSettings_plain`), if its line shows no key. It may also be a
  dash before a gap (`noSettings_dash`) or the marker of a document (`exists_noSettings_marker`).
-/

namespace LayoutShell.Yaml.Scanner

open Toml (AtMark Closes StartsStatement isBareKeyChar)

/-- A scan outside of all collections. -/
def top (c : Cursor) (tokens : Array Token) (k? : Option PossibleKey) (allowed : Bool) : Scanner :=
  ⟨c, tokens, -1, [], [k?], allowed⟩

variable {c : Cursor} {tokens : Array Token} {k? : Option PossibleKey} {allowed : Bool}
  {s₁ s₂ : Scanner} {fuel : Nat} {result : Array Token}

@[simp]
theorem cursor_top : (top c tokens k? allowed).cursor = c := rfl

theorem dropStaleKeys_top (hk : ∀ k, k? = some k → k.required = false) :
    (top c tokens k? allowed).dropStaleKeys =
      some (top c tokens (if k?.any (isStale c) then none else k?) allowed) := by
  have hrequired : ([k?].any fun k => k.any (isStale c) && k.any (·.required)) = false := by
    cases k? with
    | none => rfl
    | some k => simp [hk k rfl]
  exact if_neg (Bool.eq_false_iff.1 hrequired)

/-- Outside of all collections, only the possible key changes at the next token. -/
theorem ready_top (hk : ∀ k, k? = some k → k.required = false)
    (h : (top c tokens k? allowed).ready = some s₁) :
    ∃ c' allowed', toNextToken (c.rest.length + 1) (top c tokens k? allowed) =
        top c' tokens k? allowed' ∧
      s₁ = top c' tokens (if k?.any (isStale c') then none else k?) allowed' := by
  obtain ⟨c', allowed', hnext⟩ := toNextToken_eq (c.rest.length + 1) (top c tokens k? allowed)
  have hnext : toNextToken (c.rest.length + 1) (top c tokens k? allowed) =
      top c' tokens k? allowed' := hnext
  obtain ⟨s₀, hstale, h⟩ := Option.bind_eq_some_iff.1 h
  rw [cursor_top, hnext, dropStaleKeys_top hk] at hstale
  cases hstale
  cases h
  exact ⟨c', allowed', hnext, rfl⟩

/-- The key that may begin with the first token. -/
def firstKey (c : Cursor) : PossibleKey := ⟨false, 0, c.index, c.line, c.column⟩

theorem placed_firstKey (n : Nat) (c : Cursor) : Placed n True [some (firstKey c)] := by
  intro k hk
  cases hk
  exact .inr ⟨trivial, rfl⟩

theorem saveKey_first :
    (top c #[] none true).saveKey = some (top c #[] (some (firstKey c)) true) := by
  have hrequired : ((-1 : Int) == (c.column : Int)) = false := by
    rw [beq_eq_false_iff_ne]
    omega
  simp [saveKey, top, dropKey, inFlow, firstKey, hrequired]

theorem readPlain_eq {s s₀ s' : Scanner} (hsave : s.saveKey = some s₀) (h : s.readPlain = some s') :
    ∃ text broken c, Scalar.plain s₀.inFlow s₀.indent s₀.cursor = some (text, broken, c) ∧
      s' = { s₀.push (.scalar true text) with cursor := c, keyAllowed := broken } := by
  obtain ⟨s₁, hs₁, h⟩ := Option.bind_eq_some_iff.1 h
  cases hsave.symm.trans hs₁
  obtain ⟨⟨text, broken, c⟩, hplain, h⟩ := Option.bind_eq_some_iff.1 h
  cases h
  exact ⟨text, broken, c, hplain, rfl⟩

theorem readQuoted_eq {s s₀ s' : Scanner} {quote : Char} (hsave : s.saveKey = some s₀)
    (h : s.readQuoted quote = some s') :
    ∃ text c, Scalar.quoted quote s₀.cursor = some (text, c) ∧
      s' = { s₀.push (.scalar false text) with cursor := c, keyAllowed := false } := by
  obtain ⟨s₁, hs₁, h⟩ := Option.bind_eq_some_iff.1 h
  cases hsave.symm.trans hs₁
  obtain ⟨⟨text, c⟩, hquoted, h⟩ := Option.bind_eq_some_iff.1 h
  cases h
  exact ⟨text, c, hquoted, rfl⟩

/-! ## Reading the first token -/

theorem readToken_plain {s : Scanner} {ch : Char} (hmarker : s.cursor.atDocumentMarker = false)
    (hgap : s.cursor.gapAt 0 = false) (hch : isIndicator ch = false) :
    s.readToken ch = s.readPlain := by
  rw [Cursor.atDocumentMarker, Bool.or_eq_false_iff] at hmarker
  have hplain : s.startsPlain ch = true := by
    simp [startsPlain, hgap, hch]
  simp [isIndicator] at hch
  simp [readToken, hmarker, hplain, hch]

/-- A header begins a flow sequence. -/
theorem noSettings_header {rest : List Char} (hrest : c.rest = '[' :: rest)
    (hread : (top c #[] none true).readToken '[' = some s₂) (hrun : run fuel s₂ = some result) :
    NoSettings result.toList := by
  have hopen : (top c #[] none true).readToken '[' =
      (top c #[] none true).openFlow .flowSequence := by
    have hdash : c.atMarker '-' = false := Cursor.atMarker_of_ne hrest (by decide)
    have hdot : c.atMarker '.' = false := Cursor.atMarker_of_ne hrest (by decide)
    simp [readToken, hdash, hdot]
  have hs₂ : Begins [.flowSequence] True s₂ := by
    rw [hopen, openFlow, saveKey_first] at hread
    cases hread
    exact ⟨List.prefix_refl _, by simp, placed_firstKey 1 c⟩
  rcases hs₂.run_early hrun with hfirst | hfirst | hfirst
  · exact NoSettings.flow.mono hfirst
  · exact NoSettings.key.mono hfirst
  · exact NoSettings.flowKey.mono hfirst

/-- A plain scalar on a line that shows no key stays first. -/
theorem noSettings_plain {ch : Char} {rest : List Char} (hrest : c.rest = ch :: rest)
    (hch : (isBlank ch || isBreak ch) = false ∧ ch ≠ '#' ∧ ch ≠ ':')
    (hmarker : c.atDocumentMarker = false) (hkey : showsKey c.rest = false)
    (hread : (top c #[] none true).readPlain = some s₂) (hrun : run fuel s₂ = some result) :
    NoSettings result.toList := by
  obtain ⟨text, broken, c', hplain, hs₂⟩ := readPlain_eq saveKey_first hread
  have hs₂ : s₂ = top c' #[.scalar true text] (some (firstKey c)) broken := hs₂
  subst hs₂
  have htext : NoSettings [.scalar true text] :=
    .scalar fun _ => Scalar.plain_ne_nil hplain hmarker hrest hch
  obtain ⟨hline, hend⟩ := Scalar.plain_end hplain hmarker hkey
  cases fuel with
  | zero => cases hrun
  | succ fuel =>
    obtain ⟨s₃, hready, hnext⟩ := run_cases hrun
    obtain ⟨c₃, allowed, htoNext, rfl⟩ := ready_top (by simp [firstKey]) hready
    have hplace : c.line < c₃.line ∨ c₃.rest = [] := by
      have hplace := toNextToken_lineEnd c'.rest.length
        (s := top c' #[.scalar true text] (some (firstKey c)) broken) hline hend
      rw [htoNext] at hplace
      exact hplace
    -- On a later line the possible key is given up; at the end of the text no colon follows.
    rcases hplace with hlater | hnil
    · have hstale : isStale c₃ (firstKey c) = true := by
        simp [isStale, firstKey, hlater]
      rw [if_pos (by simpa using hstale)] at hnext
      have hs₃ : Begins [.scalar true text] False (top c₃ #[.scalar true text] none allowed) :=
        ⟨List.prefix_refl _, by simp [Placed, top]⟩
      rcases hnext with ⟨-, hfinish⟩ | ⟨ch', s₄, -, hread₄, hrun₄⟩
      · exact htext.mono (hs₃.finish hfinish)
      · rcases hs₃.readToken hread₄ with hs₄ | ⟨⟨⟩, -⟩
        exact htext.mono (hs₄.run hrun₄)
    · rcases hnext with ⟨-, hfinish⟩ | ⟨ch', s₄, hch', -, -⟩
      · have hs₂ : Begins [.scalar true text] True
            (top c' #[.scalar true text] (some (firstKey c)) broken) :=
          ⟨List.prefix_refl _, placed_firstKey 1 c⟩
        exact htext.mono ((hs₂.ready hready).finish hfinish)
      · have hnone : c₃.next? = none := by rw [Cursor.next?, hnil]; rfl
        cases hnone.symm.trans hch'

/-- A mark after the first token begins a plain scalar. -/
theorem run_atMark (hcolumn : c.column ≠ 0) (hmark : AtMark c.rest)
    (hk : ∀ k, k? = some k → k.required = false)
    (hrun : run fuel (top c tokens k? false) = some result) :
    ∃ text k'? c' broken fuel', text ≠ [] ∧ (k'? = none ∨ k'? = k?) ∧
      run fuel' (top c' (tokens.push (.scalar true text)) k'? broken) = some result := by
  obtain ⟨ch, more, hskip, hch⟩ := hmark
  cases fuel with
  | zero => cases hrun
  | succ fuel =>
    obtain ⟨s₃, hready, hnext⟩ := run_cases hrun
    obtain ⟨c₃, allowed, htoNext, rfl⟩ := ready_top hk hready
    have hbom : c.rest.head? ≠ some '\uFEFF' := by
      intro hhead
      obtain ⟨rest, hrest⟩ := List.head?_eq_some_iff.1 hhead
      rw [hrest, Toml.skipSpace, List.dropWhile_cons_of_neg (by decide)] at hskip
      cases hskip
      rcases hch with hch | hch <;> exact absurd hch (by decide)
    have hfacts : isBreak ch = false ∧ isBlank ch = false ∧ ch ≠ '#' ∧ ch ≠ ':' ∧
        isIndicator ch = false := by
      rcases hch with rfl | rfl <;> decide
    obtain ⟨hbreak, hblank, hhash, hcolon, hindicator⟩ := hfacts
    obtain ⟨c', heq, hrest, hle⟩ := toNextToken_blanks c.rest.length
      (s := top c tokens k? false) rfl hskip hbom ⟨hbreak, hhash⟩
    rw [htoNext] at heq
    obtain rfl : c₃ = c' := congrArg cursor heq
    obtain rfl : allowed = false := congrArg keyAllowed heq
    have hgap : c₃.gapAt 0 = false := by
      rw [Cursor.gapAt_zero hrest, hblank, hbreak]
      rfl
    -- The mark is not at the start of a line, where dots might end a document.
    have hmarker : c₃.atDocumentMarker = false := by
      apply Cursor.not_atDocumentMarker
      have hle : c.column ≤ c₃.column := hle
      omega
    have hsome : c₃.next? = some ch := by rw [Cursor.next?, hrest]; rfl
    rcases hnext with ⟨hnone, -⟩ | ⟨ch', s₄, hch', hread, hrun₄⟩
    · cases hsome.symm.trans hnone
    · cases hsome.symm.trans hch'
      rw [readToken_plain hmarker hgap hindicator] at hread
      obtain ⟨text, broken, c₄, hplain, rfl⟩ := readPlain_eq rfl hread
      refine ⟨text, _, c₄, broken, fuel, ?_, ?_, hrun₄⟩
      · exact Scalar.plain_ne_nil hplain hmarker hrest ⟨by simp [hblank, hbreak], hhash, hcolon⟩
      · split
        · exact .inl rfl
        · exact .inr rfl

/-- A name in quotes is a scalar, and another one begins behind it. -/
theorem noSettings_quoted {quote : Char} {s rest : List Char} (hquote : quote = '"' ∨ quote = '\'')
    (hrest : c.rest = quote :: s) (hs : Closes quote s rest) (hmark : AtMark rest)
    (hread : (top c #[] none true).readToken quote = some s₂) (hrun : run fuel s₂ = some result) :
    NoSettings result.toList := by
  have hquoted : (top c #[] none true).readToken quote =
      (top c #[] none true).readQuoted quote := by
    have hdash : c.atMarker '-' = false :=
      Cursor.atMarker_of_ne hrest (by rcases hquote with rfl | rfl <;> decide)
    have hdot : c.atMarker '.' = false :=
      Cursor.atMarker_of_ne hrest (by rcases hquote with rfl | rfl <;> decide)
    rcases hquote with rfl | rfl <;> simp [readToken, hdash, hdot]
  rw [hquoted] at hread
  obtain ⟨text, c', hscalar, hs₂⟩ := readQuoted_eq saveKey_first hread
  have hs₂ : s₂ = top c' #[.scalar false text] (some (firstKey c)) false := hs₂
  subst hs₂
  obtain ⟨hrest', hcolumn⟩ := Scalar.quoted_end hquote hrest hs hscalar
  rw [← hrest'] at hmark
  obtain ⟨text', k?, c'', broken, fuel', -, hk, hrun⟩ :=
    run_atMark hcolumn hmark (by simp [firstKey]) hrun
  have hbegins : Begins [.scalar false text, .scalar true text'] True
      (top c'' (#[.scalar false text].push (.scalar true text')) k? broken) := by
    refine ⟨List.prefix_refl _, ?_⟩
    rcases hk with rfl | rfl
    · exact (placed_firstKey 2 c).none_cons
    · exact placed_firstKey 2 c
  rcases hbegins.run_early hrun with hfirst | hfirst | hfirst
  · exact (NoSettings.scalar (by simp)).mono hfirst
  · exact NoSettings.key.mono hfirst
  · exact NoSettings.twoScalars.mono hfirst

/-- A dash before a gap begins a block sequence. -/
theorem noSettings_dash (hread : (top c #[] none true).readBlockEntry = some s₂)
    (hrun : run fuel s₂ = some result) : NoSettings result.toList := by
  have hs₂ : Begins [.blockSequence] False s₂ := by
    have hroll : (top c #[] none true).roll c.column 0 .blockSequence =
        ⟨c, #[.blockSequence], c.column, [-1], [none], true⟩ := by
      have hdeeper : (-1 : Int) < c.column := by omega
      have hinsert : (#[] : Array Token).insertIdxIfInBounds 0 .blockSequence = #[.blockSequence] :=
        Array.toList_inj.1 (toList_insertIdxIfInBounds _ _ _)
      simp [roll, top, inFlow, hdeeper, hinsert]
    have hentry : (top c #[] none true).readBlockEntry =
        some ⟨c.advance, #[.blockSequence, .blockEntry], c.column, [-1], [none], true⟩ := by
      rw [readBlockEntry, if_neg (by simp [top])]
      rw [cursor_top, show (top c #[] none true).tokens.size = 0 from rfl, hroll]
      rfl
    cases hentry.symm.trans hread
    exact ⟨⟨[.blockEntry], rfl⟩, by simp [Placed]⟩
  exact NoSettings.block.mono (hs₂.run hrun)

/-- A bare name that is the marker of a document is followed by a plain scalar. -/
theorem exists_noSettings_marker {s : List Char} (hrest : c.rest = '-' :: '-' :: '-' :: s)
    (hmark : AtMark s)
    (hread : (top c #[] none true).readMarker .documentStart = some s₂)
    (hrun : run fuel s₂ = some result) :
    ∃ ts, result.toList = .documentStart :: ts ∧ NoSettings ts := by
  have hs₂ : s₂ = top (c.advanceBy 3) #[.documentStart] none false := by
    cases hread
    rfl
  subst hs₂
  have hrest' : (c.advanceBy 3).rest = s := by
    rw [Cursor.advanceBy, hrest]
    rfl
  rw [← hrest'] at hmark
  obtain ⟨text, k?, c', broken, fuel', htext, hk, hrun⟩ :=
    run_atMark (Nat.succ_ne_zero _) hmark (by simp) hrun
  have hbegins : Begins [.documentStart, .scalar true text] False
      (top c' (#[.documentStart].push (.scalar true text)) k? broken) := by
    refine ⟨List.prefix_refl _, ?_⟩
    rw [or_self] at hk
    rw [hk]
    simp [Placed, top]
  obtain ⟨rest, hresult⟩ := hbegins.run hrun
  exact ⟨.scalar true text :: rest, hresult.symm, .scalar fun _ => htext⟩

/-! ## Bare names -/

theorem not_gap_of_bare {ch : Char} (h : isBareKeyChar ch = true) :
    (isBlank ch || isBreak ch) = false ∧ ch ≠ '#' ∧ ch ≠ ':' := by
  refine ⟨?_, ?_, ?_⟩
  · rw [← Bool.not_eq_true]
    intro hgap
    simp only [isBlank, isBreak, Bool.or_eq_true, beq_iff_eq] at hgap
    rcases hgap with (rfl | rfl) | (((rfl | rfl) | rfl) | rfl) | rfl <;> exact absurd h (by decide)
  · rintro rfl
    exact absurd h (by decide)
  · rintro rfl
    exact absurd h (by decide)

theorem not_isIndicator_of_bare {ch : Char} (h : isBareKeyChar ch = true) (hdash : ch ≠ '-') :
    isIndicator ch = false := by
  rw [← Bool.not_eq_true]
  intro hindicator
  rw [isIndicator, List.contains_iff_mem] at hindicator
  have hall : ∀ d ∈ "-?:,[]\x7b\x7d#&*!|>'\"%@\x60".toList, d ≠ '-' → isBareKeyChar d = false :=
    Text.forall_mem_of_all (by decide)
  rw [hall ch hindicator hdash] at h
  cases h

theorem readToken_dash {s : Scanner} {rest : List Char} (hrest : s.cursor.rest = '-' :: rest)
    (hmarker : s.cursor.atMarker '-' = false) :
    s.readToken '-' = if startsGap rest then s.readBlockEntry else s.readPlain := by
  have hdot : s.cursor.atMarker '.' = false := Cursor.atMarker_of_ne hrest (by decide)
  by_cases hgap : startsGap rest = true
  · simp [readToken, hmarker, hdot, Cursor.gapAt_one hrest, hgap]
  · have hplain : s.startsPlain '-' = true := by
      cases rest with
      | nil => exact absurd rfl hgap
      | cons d rest =>
        have hblank : isBlank d = false := by
          simp only [startsGap, List.head?_cons, Option.all_some, Bool.or_eq_true, not_or] at hgap
          simpa using hgap.1
        simp [startsPlain, hrest, hblank]
    simp [readToken, hmarker, hdot, Cursor.gapAt_one hrest, hgap, hplain]

/-- A bare name before a mark is no document marker, unless it is three dashes. -/
theorem exists_of_atMarker {ch : Char} {s : List Char} (hrest : c.rest = ch :: s)
    (hmarker : c.atMarker '-' = true) (hmark : AtMark (s.dropWhile isBareKeyChar)) :
    ∃ s', c.rest = '-' :: '-' :: '-' :: s' ∧ AtMark s' := by
  simp only [Cursor.atMarker, Bool.and_eq_true, beq_iff_eq] at hmarker
  obtain ⟨⟨-, htake⟩, hgap⟩ := hmarker
  obtain ⟨s', hs'⟩ : ∃ s', c.rest = '-' :: '-' :: '-' :: s' :=
    ⟨c.rest.drop 3, by rw [← List.take_append_drop 3 c.rest, htake]; rfl⟩
  refine ⟨s', hs', ?_⟩
  cases hrest.symm.trans hs'
  cases s' with
  | nil => exact hmark
  | cons d s' =>
    have hd : isBareKeyChar d = false := by
      rw [← Bool.not_eq_true]
      intro hbare
      rw [Cursor.gapAt, hs'] at hgap
      exact absurd hgap (by simpa using (not_gap_of_bare hbare).1)
    rw [List.dropWhile_cons_of_pos (by decide), List.dropWhile_cons_of_pos (by decide),
      List.dropWhile_cons_of_neg (by simp [hd])] at hmark
    exact hmark

theorem settings_bare {ch : Char} {s : List Char} (hrest : c.rest = ch :: s)
    (hch : isBareKeyChar ch = true) (hmark : AtMark (s.dropWhile isBareKeyChar))
    (hkey : showsKey c.rest = false) (hread : (top c #[] none true).readToken ch = some s₂)
    (hrun : run fuel s₂ = some result) :
    (Document.ofTokens result.toList).bind Document.settings = none := by
  by_cases hdashes : c.atMarker '-' = true
  · obtain ⟨s', hs', hmark'⟩ := exists_of_atMarker hrest hdashes hmark
    cases hrest.symm.trans hs'
    have hmarker : (top c #[] none true).readToken '-' =
        (top c #[] none true).readMarker .documentStart := by
      simp [readToken, hdashes]
    rw [hmarker] at hread
    obtain ⟨ts, hts, hno⟩ := exists_noSettings_marker hs' hmark' hread hrun
    rw [hts]
    exact Document.settings_of_documentStart hno
  -- From here on the name is no marker: it is a dash before a gap or begins a plain scalar.
  rw [Bool.not_eq_true] at hdashes
  apply Document.settings_of_noSettings
  have hdots : c.atMarker '.' = false := by
    apply Cursor.atMarker_of_ne hrest
    rintro rfl
    exact absurd hch (by decide)
  have hmarker : c.atDocumentMarker = false := by
    rw [Cursor.atDocumentMarker, hdashes, hdots]
    rfl
  obtain ⟨hgap, hhash, hcolon⟩ := not_gap_of_bare hch
  by_cases hdash : ch = '-'
  · subst hdash
    rw [readToken_dash hrest hdashes] at hread
    rcases ite_eq_iff.1 hread with ⟨-, hread⟩ | ⟨-, hread⟩
    · exact noSettings_dash hread hrun
    · exact noSettings_plain hrest ⟨hgap, hhash, hcolon⟩ hmarker hkey hread hrun
  · rw [readToken_plain hmarker ((Cursor.gapAt_zero hrest).trans hgap)
      (not_isIndicator_of_bare hch hdash)] at hread
    exact noSettings_plain hrest ⟨hgap, hhash, hcolon⟩ hmarker hkey hread hrun

/-! ## Whole texts -/

/-- **A text that begins like a TOML statement has no settings in YAML**, unless its first line is a
bare name that looks like the key of a mapping. -/
theorem settings_of_startsStatement {ch : Char} (hstart : StartsStatement c.rest)
    (hkey : c.rest.head?.any isBareKeyChar = true → showsKey c.rest = false)
    (hch : c.next? = some ch) (hread : (top c #[] none true).readToken ch = some s₂)
    (hrun : run fuel s₂ = some result) :
    (Document.ofTokens result.toList).bind Document.settings = none := by
  rw [Cursor.next?] at hch
  generalize hbody : c.rest = body at hstart
  rw [hbody] at hch
  cases hstart with
  | header rest =>
    cases hch
    exact Document.settings_of_noSettings (noSettings_header hbody hread hrun)
  | quoted hquote hcloses hmark =>
    cases hch
    exact Document.settings_of_noSettings
      (noSettings_quoted hquote hbody hcloses hmark hread hrun)
  | bare hbare hmark =>
    cases hch
    refine settings_bare hbody hbare hmark (hkey ?_) hread hrun
    rw [hbody]
    exact hbare

end LayoutShell.Yaml.Scanner
