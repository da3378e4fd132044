import LayoutShell.Layout.Collection
import LayoutShell.Proofs.Layout.Elements
import LayoutShell.Proofs.Results
import LayoutShell.Proofs.Text.Utf8

/-!
# Analyzing a resource directory

An analysis takes all layouts of a resource directory into the collection or leaves the collection
as it is.

* `FileHas` and `FileFails` say what a layout file gives on its own.
* `Analyzed` relates the collection before an analysis to its result and the collection after it.
* `run_absorb_eq_iff`: this is what an analysis does.
-/

namespace LayoutShell.Layout

open Files References

/-! ## One file -/

/-- The file is a layout with the references `r`. -/
def FileHas (t : FileTree) (path : String) (r : References) : Prop :=
  ∃ document, t.readText path = .ok document ∧ References.parse document = .ok r

/-- The file cannot be read, or what it holds is no layout; the error names the file. -/
def FileFails (t : FileTree) (path : String) (e : AnalysisError) : Prop :=
  (∃ cause, t.readText path = .error cause ∧ e = .read path cause) ∨
    ∃ document cause, t.readText path = .ok document ∧ References.parse document = .error cause ∧
      e = .parse path cause

theorem fileReferences_eq_ok_iff {t : FileTree} {path : String} {r : References} :
    fileReferences t path = .ok r ↔ FileHas t path r := by
  rw [fileReferences, bind_eq_ok_iff]
  simp only [mapError_eq_ok_iff]
  rfl

theorem fileReferences_eq_error_iff {t : FileTree} {path : String} {e : AnalysisError} :
    fileReferences t path = .error e ↔ FileFails t path e := by
  unfold fileReferences FileFails
  cases t.readText path with
  | error cause => simp [Except.mapError, bind, Except.bind, eq_comm]
  | ok document =>
    cases hparse : References.parse document <;>
      simp [Except.mapError, bind, Except.bind, hparse, eq_comm]

/-- A file that holds the text of a layout gives its references. -/
theorem fileHas_of_entry {t : FileTree} {path : String} {l : Location} {document : List Char}
    {r : References} (hl : t.locate path = .ok l)
    (hentry : t.entry? l = some (.file (Text.encode document)))
    (h : References.parse document = .ok r) : FileHas t path r := by
  refine ⟨document, ?_, h⟩
  rw [FileTree.readText, FileTree.read, FileTree.entryAt, hl]
  simp only [bind, Except.bind, hentry, Text.decode_encode]

/-! ## All files -/

theorem adds_union (r s : References) :
    Adds r (r.union s) (fun n => n ∈ s.classes) fun n => n ∈ s.handlers :=
  ⟨fun _ => NameSet.mem_union, fun _ => NameSet.mem_union⟩

theorem union_empty_union (c r : References) : c.union (References.empty.union r) = c.union r := by
  refine (adds_union c _).unique ((adds_union c r).congr (fun n => ?_) fun n => ?_)
  · exact ((adds_empty_iff.1 (adds_union References.empty r)).1 n).symm
  · exact ((adds_empty_iff.1 (adds_union References.empty r)).2 n).symm

theorem adds_foldl_union (r : References) (rs : List References) :
    Adds r (rs.foldl union r) (fun n => ∃ s ∈ rs, n ∈ s.classes)
      fun n => ∃ s ∈ rs, n ∈ s.handlers := by
  induction rs generalizing r with
  | nil => exact (Adds.refl r).congr (by simp) (by simp)
  | cons s rs ih => exact ((adds_union r s).trans (ih (r.union s))).congr (by simp) (by simp)

theorem collect_eq_error_iff {t : FileTree} {paths : List String} {e : AnalysisError} :
    collect t paths = .error e ↔ ∃ before path after, paths = before ++ path :: after ∧
      (∀ p ∈ before, ∃ r, FileHas t p r) ∧ FileFails t path e := by
  have hcollect : collect t paths = .error e ↔ paths.mapM (fileReferences t) = .error e := by
    unfold collect
    cases paths.mapM (fileReferences t) <;> simp [bind, Except.bind, pure, Except.pure]
  simp only [hcollect, mapM_eq_error_iff, fileReferences_eq_ok_iff, fileReferences_eq_error_iff]

theorem exists_collect_eq_ok {t : FileTree} {paths : List String}
    (h : ∀ path ∈ paths, ∃ r, FileHas t path r) : ∃ found, collect t paths = .ok found := by
  cases hcollect : collect t paths with
  | ok found => exact ⟨found, rfl⟩
  | error e =>
    obtain ⟨before, path, after, rfl, -, hfails⟩ := collect_eq_error_iff.1 hcollect
    obtain ⟨r, hr⟩ := h path (by simp)
    rw [← fileReferences_eq_ok_iff, fileReferences_eq_error_iff.2 hfails] at hr
    cases hr

/-- What is read from all files is what each of them gives. -/
theorem collect_eq_ok {t : FileTree} {paths : List String} {found : References}
    (h : collect t paths = .ok found) :
    (∀ path ∈ paths, ∃ r, FileHas t path r) ∧
      Adds References.empty found (fun n => ∃ path ∈ paths, ∃ r, FileHas t path r ∧ n ∈ r.classes)
        fun n => ∃ path ∈ paths, ∃ r, FileHas t path r ∧ n ∈ r.handlers := by
  obtain ⟨rs, hrs, h⟩ := bind_eq_ok_iff.1 h
  cases h
  refine ⟨fun path hpath => ?_, (adds_foldl_union empty rs).congr (fun n => ?_) fun n => ?_⟩
  · obtain ⟨r, hr⟩ := forall_mem_of_mapM hrs path hpath
    exact ⟨r, fileReferences_eq_ok_iff.1 hr⟩
  · simp only [exists_mem_iff_of_mapM hrs, fileReferences_eq_ok_iff]
  · simp only [exists_mem_iff_of_mapM hrs, fileReferences_eq_ok_iff]

/-! ## Analyses -/

/-- The collection `c` before an analysis, its result, and the collection after it. -/
inductive Analyzed (t : FileTree) (resources : String) (c : Collection) :
    Except AnalysisError Nat → Collection → Prop
  /-- The layouts cannot be listed. -/
  | unlisted {e : DiscoveryError} (h : findLayouts t resources = .error e) :
      Analyzed t resources c (.error (.discovery e)) c
  /-- The first file that fails ends the analysis. -/
  | stopped {before after : List String} {path : String} {e : AnalysisError}
      (h : findLayouts t resources = .ok (before ++ path :: after))
      (good : ∀ p ∈ before, ∃ r, FileHas t p r) (bad : FileFails t path e) :
      Analyzed t resources c (.error e) c
  /-- All files are layouts, and the references of each of them are added. -/
  | complete {paths : List String} {c' : Collection} (h : findLayouts t resources = .ok paths)
      (good : ∀ p ∈ paths, ∃ r, FileHas t p r)
      (adds : Adds c c' (fun n => ∃ p ∈ paths, ∃ r, FileHas t p r ∧ n ∈ r.classes)
        fun n => ∃ p ∈ paths, ∃ r, FileHas t p r ∧ n ∈ r.handlers) :
      Analyzed t resources c (.ok paths.length) c'

theorem run_absorb (t : FileTree) (resources : String) (c : Collection) :
    (Analyzer.absorb t resources).run.run c =
      match findLayouts t resources with
      | .error e => (.error (.discovery e), c)
      | .ok paths =>
        match collect t paths with
        | .error e => (.error e, c)
        | .ok found => (.ok paths.length, union c found) := by
  unfold Analyzer.absorb
  cases findLayouts t resources with
  | error e => rfl
  | ok paths =>
    dsimp only
    cases hcollect : collect t paths with
    | error e =>
      show ((liftExcept (collect t paths) >>= _ : Analyzer Nat).run.run c) = _
      rw [hcollect]
      rfl
    | ok found =>
      show ((liftExcept (collect t paths) >>= _ : Analyzer Nat).run.run c) = _
      rw [hcollect]
      rfl

theorem run_absorb_of_collect {t : FileTree} {resources : String} {paths : List String}
    {found : References} (hpaths : findLayouts t resources = .ok paths)
    (hfound : collect t paths = .ok found) (c : Collection) :
    (Analyzer.absorb t resources).run.run c = (.ok paths.length, union c found) := by
  rw [run_absorb, hpaths]
  dsimp only
  rw [hfound]

theorem run_absorb_of_fileHas {t : FileTree} {resources path : String} {r : References}
    (hpath : findLayouts t resources = .ok [path]) (h : FileHas t path r) (c : Collection) :
    (Analyzer.absorb t resources).run.run c = (.ok 1, union c r) := by
  have hcollect : collect t [path] = .ok (union References.empty r) :=
    bind_eq_ok_iff.2
      ⟨_, mapM_eq_ok_iff.2 (.cons (fileReferences_eq_ok_iff.2 h) .nil), rfl⟩
  rw [run_absorb_of_collect hpath hcollect, union_empty_union]
  rfl

/-- An analysis that succeeds has listed the layouts it counts, and has read them all. -/
theorem collect_of_run_absorb {t : FileTree} {resources : String} {c c' : Collection} {n : Nat}
    (h : (Analyzer.absorb t resources).run.run c = (.ok n, c')) :
    ∃ paths found, findLayouts t resources = .ok paths ∧ collect t paths = .ok found ∧
      paths.length = n ∧ c' = union c found := by
  rw [run_absorb] at h
  cases hpaths : findLayouts t resources with
  | error e => rw [hpaths] at h; cases h
  | ok paths =>
    rw [hpaths] at h
    dsimp only at h
    cases hcollect : collect t paths with
    | error e => rw [hcollect] at h; cases h
    | ok found =>
      rw [hcollect] at h
      obtain ⟨hlength, hunion⟩ := Prod.mk.inj h
      exact ⟨paths, found, rfl, hcollect, Except.ok.inj hlength, hunion.symm⟩

theorem findLayouts_of_run_absorb {t : FileTree} {resources : String} {c c' : Collection} {n : Nat}
    (h : (Analyzer.absorb t resources).run.run c = (.ok n, c')) :
    ∃ paths, findLayouts t resources = .ok paths ∧ paths.length = n := by
  obtain ⟨paths, found, hpaths, -, hlength, -⟩ := collect_of_run_absorb h
  exact ⟨paths, hpaths, hlength⟩

/-- An analysis gives the collection that the analyzer is left with. -/
theorem Collection.analyze_eq_ok_iff {t : FileTree} {resources : String} {c c' : Collection}
    {n : Nat} :
    c.analyze t resources = .ok (c', n) ↔
      (Analyzer.absorb t resources).run.run c = (.ok n, c') := by
  unfold analyze
  constructor
  · intro h
    split at h
    next layouts c₁ hrun =>
      obtain ⟨rfl, rfl⟩ := Prod.mk.inj (Except.ok.inj h)
      exact hrun
    next => cases h
  · intro h
    rw [h]

/-- **An analysis adds the references of all layouts of a resource directory, or fails as the first
bad one of them does and changes nothing.** -/
theorem run_absorb_eq_iff {t : FileTree} {resources : String} {c c' : Collection}
    {result : Except AnalysisError Nat} :
    (Analyzer.absorb t resources).run.run c = (result, c') ↔ Analyzed t resources c result c' := by
  rw [run_absorb]
  constructor
  · intro h
    cases hpaths : findLayouts t resources with
    | error e =>
      rw [hpaths] at h
      cases h
      exact .unlisted hpaths
    | ok paths =>
      rw [hpaths] at h
      dsimp only at h
      cases hcollect : collect t paths with
      | error e =>
        rw [hcollect] at h
        cases h
        obtain ⟨before, path, after, rfl, hgood, hbad⟩ := collect_eq_error_iff.1 hcollect
        exact .stopped hpaths hgood hbad
      | ok found =>
        rw [hcollect] at h
        cases h
        obtain ⟨hgood, hadds⟩ := collect_eq_ok hcollect
        rw [adds_empty_iff] at hadds
        exact .complete hpaths hgood ((adds_union c found).congr hadds.1 hadds.2)
  · intro h
    cases h with
    | unlisted h => rw [h]
    | stopped h good bad =>
      rw [h]
      dsimp only
      rw [collect_eq_error_iff.2 ⟨_, _, _, rfl, good, bad⟩]
    | complete h good adds =>
      obtain ⟨found, hfound⟩ := exists_collect_eq_ok good
      obtain ⟨-, hadds⟩ := collect_eq_ok hfound
      rw [adds_empty_iff] at hadds
      rw [← run_absorb, run_absorb_of_collect h hfound,
        ((adds_union c found).congr hadds.1 hadds.2).unique adds]

end LayoutShell.Layout
