import LayoutShell.Proofs.Files.Writing
import LayoutShell.Proofs.Settings.StatementTokens
import LayoutShell.Proofs.Text.Utf8
import LayoutShell.Settings.Load
import Mathlib.Data.List.DropRight

/-!
# Settings in a file without a known extension

The format of such a file is guessed: it is YAML if it can be read so, and TOML otherwise. A TOML
text may be taken for YAML.

* `mayBeYaml` tells which texts are in danger: a Unicode line break ends a comment before the first
  statement, or the first statement has a bare name and a colon that looks like one of a mapping.
* `load_of_load_toml`: all other TOML texts are read as TOML.
-/

namespace LayoutShell

open Files
open Toml (StartsStatement isBareKeyChar)
open Yaml (isBreak isBlank showsKey splitOpening)

namespace Settings

/-- A text after its byte order mark, if it has one. -/
def unmarked : List Char → List Char
  | '\uFEFF' :: rest => rest
  | s => s

theorem unmarked_of_ne {s : List Char} (h : ∀ rest, s = '\uFEFF' :: rest → False) :
    unmarked s = s := by
  unfold unmarked
  split
  next => exact (h _ rfl).elim
  next => rfl

/-- A line break of YAML that is none of TOML. -/
def isUnicodeBreak (c : Char) : Bool := isBreak c && c != '\n' && c != '\r'

/-- A TOML text of this kind may be taken for YAML. -/
def mayBeYaml (text : List Char) : Bool :=
  let (opening, body) := splitOpening false (unmarked text)
  opening.any isUnicodeBreak || body.head?.any isBareKeyChar && showsKey body

/-! ## Before the first statement -/

theorem not_isBreak_of_comment {s : List Char}
    (h : ∀ c ∈ (splitOpening true s).1, isUnicodeBreak c = false) :
    ∀ c ∈ s.takeWhile Toml.isPrintable, isBreak c = false := by
  induction s with
  | nil => simp
  | cons c s ih =>
    by_cases hc : Toml.isPrintable c = true
    · have hbreak : isBreak c = false := by
        rw [← Bool.not_eq_true]
        intro hbreak
        obtain ⟨hfeed, hreturn⟩ := Toml.ne_break_of_isPrintable hc
        rw [splitOpening, if_pos hbreak] at h
        have hunicode := h c List.mem_cons_self
        simp [isUnicodeBreak, hbreak, hfeed, hreturn] at hunicode
      rw [List.takeWhile_cons_of_pos hc]
      rw [splitOpening, if_neg (by simp [hbreak]), if_pos (by simp)] at h
      exact List.forall_mem_cons.2 ⟨hbreak, ih (List.forall_mem_cons.1 h).2⟩
    · rw [List.takeWhile_cons_of_neg hc]
      simp

theorem exists_of_newline {s rest : List Char} (h : Toml.newline s = some rest) :
    ∃ breaks, breaks ≠ [] ∧ (∀ c ∈ breaks, isBreak c = true) ∧ s = breaks ++ rest := by
  unfold Toml.newline at h
  split at h
  · cases h
    exact ⟨['\n'], by simp, by simp [isBreak], rfl⟩
  · cases h
    exact ⟨['\r', '\n'], by simp, by simp [isBreak], rfl⟩
  · cases h

theorem splitOpening_of_startsStatement {s : List Char} (h : StartsStatement s) :
    splitOpening false s = ([], s) := by
  have hcons : ∀ {c : Char} {s : List Char}, (isBlank c || isBreak c) = false ∧ c ≠ '#' →
      splitOpening false (c :: s) = ([], c :: s) := by
    intro c s ⟨hgap, hhash⟩
    rw [Bool.or_eq_false_iff] at hgap
    rw [splitOpening, if_neg (by simp [hgap.2]), if_neg (by simp [hgap.1]), if_neg hhash]
  cases h with
  | header => exact hcons (by decide)
  | quoted hquote => exact hcons (by rcases hquote with rfl | rfl <;> decide)
  | bare hbare =>
    obtain ⟨hgap, hhash, -⟩ := Yaml.Scanner.not_gap_of_bare hbare
    exact hcons ⟨hgap, hhash⟩

/-- The rest of a line without a statement belongs to what stands before the first one. -/
theorem exists_splitOpening_lineEnd {c : Char} {s rest : List Char}
    (hc : c = '#' ∨ c = '\n' ∨ c = '\r')
    (hopening : ∀ d ∈ (splitOpening false (c :: s)).1, isUnicodeBreak d = false)
    (h : Toml.lineEnd (c :: s) = some rest) :
    ∃ skipped, splitOpening false (c :: s) = (splitOpening false rest).map (skipped ++ ·) id := by
  have hspace : Toml.skipSpace (c :: s) = c :: s := by
    refine List.dropWhile_cons_of_neg ?_
    rcases hc with rfl | rfl | rfl <;> decide
  rw [Toml.lineEnd, hspace] at h
  by_cases hhash : c = '#'
  · subst hhash
    have hcomment : splitOpening false ('#' :: s) = (splitOpening true s).map ('#' :: ·) id := rfl
    rw [hcomment] at hopening ⊢
    have htaken := not_isBreak_of_comment (List.forall_mem_cons.1 hopening).2
    have hsplit := Yaml.splitOpening_append (fun d hd => ⟨htaken d hd, .inl rfl⟩)
      (s.dropWhile Toml.isPrintable)
    rw [List.takeWhile_append_dropWhile] at hsplit
    rw [hsplit]
    rw [Toml.skipComment] at h
    split at h
    next hnil =>
      cases h
      rw [hnil]
      exact ⟨'#' :: s.takeWhile Toml.isPrintable, rfl⟩
    next =>
      obtain ⟨breaks, hne, hbreaks, hrest⟩ := exists_of_newline h
      rw [hrest, Yaml.splitOpening_breaks hne hbreaks]
      exact ⟨'#' :: (s.takeWhile Toml.isPrintable ++ breaks), by simp [Prod.map]⟩
  · have hskip : Toml.skipComment (c :: s) = c :: s := by
      unfold Toml.skipComment
      split
      next heq => exact absurd (List.cons.inj heq).1 hhash
      next => rfl
    rw [hskip] at h
    obtain ⟨breaks, hne, hbreaks, hrest⟩ := exists_of_newline h
    rw [hrest, Yaml.splitOpening_breaks hne hbreaks]
    exact ⟨breaks, rfl⟩

/-- Space before a line is skipped in both formats. -/
theorem splitOpening_skipSpace (s : List Char) :
    splitOpening false s =
      (splitOpening false (Toml.skipSpace s)).map (s.takeWhile Toml.isSpace ++ ·) id := by
  have hspaces : ∀ c ∈ s.takeWhile Toml.isSpace,
      isBreak c = false ∧ (false = true ∨ isBlank c = true) := by
    intro c hc
    have hblank : isBlank c = true := List.mem_takeWhile_imp hc
    exact ⟨(Yaml.ne_of_isBlank hblank).1, .inr hblank⟩
  have hsplit := Yaml.splitOpening_append hspaces (s.dropWhile Toml.isSpace)
  rw [List.takeWhile_append_dropWhile] at hsplit
  exact hsplit

/-- **What stands before the first statement is the same in both formats.** -/
theorem startsStatement_of_scanLines {fuel : Nat} {s : List Char} {statements : List Toml.Statement}
    (h : Toml.Statement.scanLines fuel s = some statements)
    (hopening : ∀ c ∈ (splitOpening false s).1, isUnicodeBreak c = false) :
    (splitOpening false s).2 = [] ∧ statements = [] ∨ StartsStatement (splitOpening false s).2 := by
  induction fuel generalizing s statements with
  | zero => cases h
  | succ fuel ih =>
    rw [splitOpening_skipSpace] at hopening ⊢
    have hopening : ∀ c ∈ (splitOpening false (Toml.skipSpace s)).1, isUnicodeBreak c = false :=
      fun c hc => hopening c (List.mem_append_right _ hc)
    dsimp only [Prod.map, id]
    rw [Toml.Statement.scanLines] at h
    have hskip : Toml.skipSpace (Toml.skipSpace s) = Toml.skipSpace s :=
      List.dropWhile_idempotent _ _
    generalize Toml.skipSpace s = body at h hopening hskip ⊢
    split at h
    next =>
      cases h
      exact .inl ⟨rfl, rfl⟩
    next hne =>
      obtain ⟨⟨statement?, rest⟩, hread, h⟩ := Option.bind_eq_some_iff.1 h
      obtain ⟨rest', hend, h⟩ := Option.bind_eq_some_iff.1 h
      obtain ⟨more, hscan, h⟩ := Option.bind_eq_some_iff.1 h
      cases h
      cases statement? with
      | some statement =>
        have hstart := Toml.startsStatement_of_read hread hskip
        rw [splitOpening_of_startsStatement hstart]
        exact .inr hstart
      | none =>
        -- An empty line or a comment: the rest of the text has the same first statement.
        cases body with
        | nil => exact absurd rfl hne
        | cons c body =>
          obtain ⟨rfl, hc⟩ := Toml.eq_of_read_none hread
          obtain ⟨skipped, hskipped⟩ := exists_splitOpening_lineEnd hc hopening hend
          rw [hskipped] at hopening ⊢
          exact ih hscan fun d hd => hopening d (List.mem_append_right _ hd)

/-- The statements of a text begin where `splitOpening` cuts it. -/
theorem startsStatement_of_scan {text : List Char} {statements : List Toml.Statement}
    (h : Toml.Statement.scan text = some statements)
    (hopening : ∀ c ∈ (splitOpening false (unmarked text)).1, isUnicodeBreak c = false) :
    (splitOpening false (unmarked text)).2 = [] ∧ statements = [] ∨
      StartsStatement (splitOpening false (unmarked text)).2 := by
  unfold Toml.Statement.scan at h
  split at h
  next => exact startsStatement_of_scanLines h hopening
  next hne =>
    rw [unmarked_of_ne hne] at hopening ⊢
    exact startsStatement_of_scanLines h hopening

/-! ## Reading as YAML -/

section Yaml

open Yaml Scanner

theorem toNextToken_start {text : List Char}
    (hmark : (splitOpening false (unmarked text)).2.head? ≠ some '\uFEFF') :
    ∃ c, toNextToken (text.length + 1) (start text) = top c #[] none true ∧
      (c.rest = (splitOpening false (unmarked text)).2 ∨ c.rest.head? = some '\t') := by
  unfold unmarked at hmark ⊢
  split at hmark
  next rest =>
    rw [toNextToken_mark rfl rfl]
    exact toNextToken_opening (s := top (Cursor.start ('\uFEFF' :: rest)).advance #[] none true)
      rfl rfl (Nat.lt_succ_of_lt (Nat.lt_succ_self _)) hmark
  next => exact toNextToken_opening rfl rfl (Nat.lt_succ_self _) hmark

/-- The first token stands where a statement would begin. -/
theorem ready_start {text : List Char} {s₁ : Scanner}
    (hmark : (splitOpening false (unmarked text)).2.head? ≠ some '\uFEFF')
    (h : (start text).ready = some s₁) :
    ∃ c, s₁ = top c #[] none true ∧
      (c.rest = (splitOpening false (unmarked text)).2 ∨ c.rest.head? = some '\t') := by
  have h : (top (Cursor.start text) #[] none true).ready = some s₁ := h
  obtain ⟨c, hc, hplace⟩ := toNextToken_start hmark
  obtain ⟨c', allowed, htoNext, rfl⟩ := ready_top (by simp) h
  cases hc.symm.trans htoNext
  exact ⟨c, rfl, hplace⟩

theorem readToken_tab {c : Cursor} {rest : List Char} (hrest : c.rest = '\t' :: rest) :
    (top c #[] none true).readToken '\t' = none := by
  have hdash : c.atMarker '-' = false := Cursor.atMarker_of_ne hrest (by decide)
  have hdot : c.atMarker '.' = false := Cursor.atMarker_of_ne hrest (by decide)
  have hgap : c.gapAt 0 = true := Cursor.gapAt_zero hrest
  simp [readToken, hdash, hdot, startsPlain, hgap]

theorem ne_nil_of_startsStatement {s : List Char} (h : StartsStatement s) :
    ∃ c rest, s = c :: rest ∧ c ≠ '\uFEFF' := by
  cases h with
  | header rest => exact ⟨'[', rest, rfl, by decide⟩
  | quoted hquote => exact ⟨_, _, rfl, by rcases hquote with rfl | rfl <;> decide⟩
  | bare hbare =>
    refine ⟨_, _, rfl, ?_⟩
    rintro rfl
    exact absurd hbare (by decide)

/-- **A TOML text without dangers has no settings in YAML**, or both texts are empty. -/
theorem settings_of_scan {text : List Char} {statements : List Toml.Statement} {ts : List Token}
    (h : Toml.Statement.scan text = some statements) (hplain : mayBeYaml text = false)
    (hts : Token.scan text = some ts) :
    (Document.ofTokens ts).bind Document.settings = none ∨ statements = [] ∧ ts = [] := by
  simp only [mayBeYaml, Bool.or_eq_false_iff, List.any_eq_false, Bool.not_eq_true] at hplain
  obtain ⟨hopening, hkey⟩ := hplain
  have hbody := startsStatement_of_scan h hopening
  have hmark : (splitOpening false (unmarked text)).2.head? ≠ some '\uFEFF' := by
    rcases hbody with ⟨hnil, -⟩ | hstart
    · simp [hnil]
    · obtain ⟨c, rest, heq, hc⟩ := ne_nil_of_startsStatement hstart
      simpa [heq] using hc
  rw [Token.scan] at hts
  rcases ite_eq_iff.1 hts with ⟨-, hts⟩ | ⟨-, hts⟩
  · obtain ⟨result, hrun, rfl⟩ := Option.map_eq_some_iff.1 hts
    obtain ⟨s₁, hready, hnext⟩ := run_cases hrun
    obtain ⟨c, rfl, hplace | htab⟩ := ready_start hmark hready
    · rw [← hplace] at hbody hkey
      rcases hbody with ⟨hnil, hstatements⟩ | hstart
      · have hnone : c.next? = none := by rw [Cursor.next?, hnil]; rfl
        rcases hnext with ⟨-, hfinish⟩ | ⟨ch, s₂, hch, -, -⟩
        · cases hfinish
          exact .inr ⟨hstatements, rfl⟩
        · cases hnone.symm.trans hch
      · obtain ⟨d, rest, hrest, -⟩ := ne_nil_of_startsStatement hstart
        rcases hnext with ⟨hnone, -⟩ | ⟨ch, s₂, hch, hread, hrun₂⟩
        · have hsome : c.next? = some d := by rw [Cursor.next?, hrest]; rfl
          cases hsome.symm.trans hnone
        · refine .inl (settings_of_startsStatement hstart ?_ hch hread hrun₂)
          intro hbare
          simpa [hbare] using hkey
    · obtain ⟨rest, hrest⟩ := List.head?_eq_some_iff.1 htab
      rcases hnext with ⟨hnone, -⟩ | ⟨ch, s₂, hch, hread, -⟩
      · cases hnone.symm.trans htab
      · cases hch.symm.trans htab
        rw [readToken_tab hrest] at hread
        cases hread
  · cases hts

end Yaml

/-! ## Loading -/

theorem ofYaml_orElse_ofToml {text : List Char} {settings : Settings}
    (h : ofToml (String.ofList text) = some settings) (hplain : mayBeYaml text = false) :
    (ofYaml (String.ofList text) <|> ofToml (String.ofList text)) = some settings := by
  have hyaml : ofYaml (String.ofList text) = none ∨
      ofYaml (String.ofList text) = some settings := by
    obtain ⟨root, hroot, hsettings⟩ := Option.bind_eq_some_iff.1 h
    obtain ⟨statements, hscan, hstatements⟩ := Option.bind_eq_some_iff.1 hroot
    rw [String.toList_ofList] at hscan
    rw [ofYaml, Yaml.Document.read, String.toList_ofList]
    cases hts : Yaml.Token.scan text with
    | none => exact .inl rfl
    | some ts =>
      rcases settings_of_scan hscan hplain hts with hnone | ⟨rfl, rfl⟩
      · exact .inl hnone
      · cases hstatements
        exact .inr hsettings
  rcases hyaml with hnone | hsome
  · rw [hnone, h]
    rfl
  · rw [hsome]
    rfl

theorem load_eq {t : FileTree} {path : String} {text : List Char} (h : t.readText path = .ok text) :
    load t path = ofText (Path.extension? (Path.fileName path)) (String.ofList text) := by
  rw [load, h]

theorem ofText_toml (text : String) :
    ofText (some "toml") text = (ofToml text).elim (.error .malformedToml) .ok := by
  simp [ofText]

theorem load_of_ofToml {t : FileTree} {path : String} {text : List Char} {settings : Settings}
    (hread : t.readText path = .ok text)
    (hext : Path.extension? (Path.fileName path) = some "toml")
    (h : ofToml (String.ofList text) = some settings) : load t path = .ok settings := by
  rw [load_eq hread, hext, ofText_toml, h]
  rfl

/-- With an unknown extension both formats are tried. -/
theorem ofText_of_not_mem {extension? : Option String}
    (h : extension? ∉ [some "yml", some "yaml", some "toml"]) (text : String) :
    ofText extension? text = (ofYaml text <|> ofToml text).elim (.error .malformed) .ok := by
  simp only [List.mem_cons, List.not_mem_nil, or_false, not_or] at h
  obtain ⟨hyml, hyaml, htoml⟩ := h
  rw [ofText, if_neg (not_or.2 ⟨hyml, hyaml⟩), if_neg htoml]

/-- **A TOML text without dangers is loaded in the same way whatever the name of its file.** -/
theorem load_of_load_toml {t t' : FileTree} {path path' : String} {text : List Char}
    {settings : Settings} (hread : t.readText path = .ok text)
    (hread' : t'.readText path' = .ok text)
    (hext : Path.extension? (Path.fileName path) ∉ [some "yml", some "yaml", some "toml"])
    (hext' : Path.extension? (Path.fileName path') = some "toml") (hplain : mayBeYaml text = false)
    (h : load t' path' = .ok settings) : load t path = .ok settings := by
  rw [load_eq hread', hext', ofText_toml] at h
  rw [load_eq hread, ofText_of_not_mem hext]
  cases htext : ofToml (String.ofList text) with
  | none =>
    rw [htext] at h
    cases h
  | some settings' =>
    rw [htext] at h
    cases h
    rw [← htext, ofYaml_orElse_ofToml htext hplain]
    rfl

/-- The same text in two files, one of them without a known extension. -/
theorem exists_readText (text : List Char) :
    ∃ t t' : FileTree,
      t.readText "droid.conf" = .ok text ∧ t'.readText "droid.toml" = .ok text := by
  have hread : ∀ {t : FileTree} {path : String},
      t.read path = .ok (Text.encode text) → t.readText path = .ok text := by
    intro t path h
    simp only [FileTree.readText, h, bind, Except.bind, Text.decode_encode]
  obtain ⟨t, ht⟩ : ∃ t, FileTree.empty.write "droid.conf" (Text.encode text) = .ok t :=
    FileTree.exists_write_empty (by decide) (by decide) rfl (by decide) _
  obtain ⟨t', ht'⟩ : ∃ t, FileTree.empty.write "droid.toml" (Text.encode text) = .ok t :=
    FileTree.exists_write_empty (by decide) (by decide) rfl (by decide) _
  exact ⟨t, t', hread (FileTree.read_of_write ht), hread (FileTree.read_of_write ht')⟩

theorem extensions :
    Path.extension? (Path.fileName "droid.conf") ∉ [some "yml", some "yaml", some "toml"] ∧
    Path.extension? (Path.fileName "droid.toml") = some "toml" := by
  decide

/-- Colons in comments, and one that stands before no gap. -/
def colons : List Char := "# α: β\nshell.prompt = \"a:b\" # c: d\n".toList

theorem load_of_load_toml_colons :
    ∃ (t t' : FileTree) (settings : Settings),
      t.readText "droid.conf" = .ok colons ∧ t'.readText "droid.toml" = .ok colons ∧
      Path.extension? (Path.fileName "droid.conf") ∉ [some "yml", some "yaml", some "toml"] ∧
      Path.extension? (Path.fileName "droid.toml") = some "toml" ∧ mayBeYaml colons = false ∧
      load t' "droid.toml" = .ok settings ∧ settings.shell.prompt = "a:b" ∧
      load t "droid.conf" = .ok settings := by
  obtain ⟨t, t', hread, hread'⟩ := exists_readText colons
  obtain ⟨hext, hext'⟩ := extensions
  have hplain : mayBeYaml colons = false := by decide
  have hprompt : (ofToml (String.ofList colons)).map (·.shell.prompt) = some "a:b" := by
    decide +kernel
  obtain ⟨settings, hsettings, hprompt⟩ := Option.map_eq_some_iff.1 hprompt
  have hload := load_of_ofToml hread' hext' hsettings
  exact ⟨t, t', settings, hread, hread', hext, hext', hplain, hload, hprompt,
    load_of_load_toml hread hread' hext hext' hplain hload⟩

/-- In YAML this is a mapping with one key that is not known. -/
def mapping : List Char := "shell.prompt = \"a: b\"\n".toList

/-- **A TOML text may be taken for YAML**, and what it sets is lost. -/
theorem not_forall_load_of_load_toml :
    ¬∀ (t t' : FileTree) (path path' : String) (text : List Char) (settings : Settings),
      t.readText path = .ok text → t'.readText path' = .ok text →
      Path.extension? (Path.fileName path) ∉ [some "yml", some "yaml", some "toml"] →
      Path.extension? (Path.fileName path') = some "toml" → load t' path' = .ok settings →
      load t path = .ok settings := by
  intro h
  obtain ⟨t, t', hread, hread'⟩ := exists_readText mapping
  obtain ⟨hext, hext'⟩ := extensions
  have hprompts : (ofToml (String.ofList mapping)).map (·.shell.prompt) = some "a: b" ∧
      (ofYaml (String.ofList mapping)).map (·.shell.prompt) = some "> " := by
    decide +kernel
  obtain ⟨settings, hsettings, hprompt⟩ := Option.map_eq_some_iff.1 hprompts.1
  obtain ⟨settings', hsettings', hprompt'⟩ := Option.map_eq_some_iff.1 hprompts.2
  have hload := h t t' _ _ _ _ hread hread' hext hext' (load_of_ofToml hread' hext' hsettings)
  rw [load_eq hread, ofText_of_not_mem hext, hsettings'] at hload
  cases hload
  rw [hprompt] at hprompt'
  exact absurd hprompt' (by decide)

end Settings

end LayoutShell
