import LayoutShell.Proofs.Layout.Collections
import LayoutShell.Proofs.Layout.Discoveries

/-!
# Analyzing one directory after another

An analyzer may be given many resource directories in turn. Each of them is answered as a new
analyzer would answer it, and the collection grows by what a new analyzer would collect from it.

* `Analyzer.absorbAll` is the work on a list of directories. A failure ends only its own analysis.
* `run_absorb_eq_answer` says that no analysis depends on the ones before it, and `run_absorbAll` is
  what follows for a list.
* `run_absorbAll_of_mem_iff`: the outcome depends only on which directories are in the list.
-/

namespace LayoutShell.Layout

open Files References

/-- Analyzes resource directories one after another and gives the answer to each of them. -/
def Analyzer.absorbAll (t : FileTree) (directories : List String) :
    StateM Collection (List (Except AnalysisError Nat)) :=
  directories.mapM fun resources => (Analyzer.absorb t resources).run

/-- What a new analyzer answers. -/
def answer (t : FileTree) (resources : String) : Except AnalysisError Nat :=
  ((Analyzer.absorb t resources).run.run References.empty).1

/-- What a new analyzer collects. -/
def found (t : FileTree) (resources : String) : References :=
  ((Analyzer.absorb t resources).run.run References.empty).2

/-! ## One analysis -/

/-- An analysis gives the same answer on every collection, and adds the same references. -/
theorem run_absorb_eq_answer (t : FileTree) (resources : String) (c : Collection) :
    (Analyzer.absorb t resources).run.run c =
      (answer t resources, c.union (found t resources)) := by
  rw [answer, found, run_absorb, run_absorb]
  cases findLayouts t resources with
  | error e => rfl
  | ok paths =>
    dsimp only
    cases collect t paths with
    | error e => rfl
    | ok r => rw [union_empty_union]

/-! ## Sequences of analyses -/

theorem run_absorbAll (t : FileTree) (directories : List String) (c : Collection) :
    (Analyzer.absorbAll t directories).run c =
      (directories.map (answer t), (directories.map (found t)).foldl union c) := by
  induction directories generalizing c with
  | nil => rfl
  | cons resources rest ih =>
    have hrest := ih (c.union (found t resources))
    rw [Analyzer.absorbAll, List.mapM_cons, StateT.run_bind, run_absorb_eq_answer]
    exact congrArg (fun p => (answer t resources :: p.1, p.2)) hrest

/-- The collection grows by what each directory of the list gives. -/
theorem adds_run_absorbAll (t : FileTree) (directories : List String) (c : Collection) :
    Adds c ((Analyzer.absorbAll t directories).run c).2
      (fun n => ∃ resources ∈ directories, n ∈ (found t resources).classes)
      fun n => ∃ resources ∈ directories, n ∈ (found t resources).handlers := by
  rw [run_absorbAll]
  exact (adds_foldl_union c (directories.map (found t))).congr (by simp) (by simp)

/-- **The outcome of analyses depends only on which directories were analyzed.** The order of the
directories and their repetitions do not matter, each of them is answered as a new analyzer answers
it, and nothing that was collected is lost on the way. -/
theorem run_absorbAll_of_mem_iff (t : FileTree) (c : Collection)
    {directories directories' : List String}
    (h : ∀ resources, resources ∈ directories ↔ resources ∈ directories') :
    ((Analyzer.absorbAll t directories).run c).2.classes =
        ((Analyzer.absorbAll t directories').run c).2.classes ∧
      ((Analyzer.absorbAll t directories).run c).2.handlers =
        ((Analyzer.absorbAll t directories').run c).2.handlers ∧
      ((Analyzer.absorbAll t directories).run c).2.database.render =
        ((Analyzer.absorbAll t directories').run c).2.database.render ∧
      ((Analyzer.absorbAll t directories).run c).1 = directories.map (answer t) ∧
      ((Analyzer.absorbAll t directories').run c).1 = directories'.map (answer t) ∧
      ∀ before, before <+: directories →
        (∀ n ∈ ((Analyzer.absorbAll t before).run c).2.classes,
          n ∈ ((Analyzer.absorbAll t directories).run c).2.classes) ∧
        ∀ n ∈ ((Analyzer.absorbAll t before).run c).2.handlers,
          n ∈ ((Analyzer.absorbAll t directories).run c).2.handlers := by
  have heq : ((Analyzer.absorbAll t directories).run c).2 =
      ((Analyzer.absorbAll t directories').run c).2 :=
    (adds_run_absorbAll t directories c).unique
      ((adds_run_absorbAll t directories' c).congr (by simp [h]) (by simp [h]))
  refine ⟨congrArg classes heq, congrArg handlers heq, ?_, ?_, ?_, fun before hbefore => ?_⟩
  · rw [heq]
  · exact congrArg Prod.fst (run_absorbAll t directories c)
  · exact congrArg Prod.fst (run_absorbAll t directories' c)
  · have hadds := adds_run_absorbAll t directories c
    have hbefore' := adds_run_absorbAll t before c
    refine ⟨fun n hn => (hadds.classes n).2 ?_, fun n hn => (hadds.handlers n).2 ?_⟩
    · exact ((hbefore'.classes n).1 hn).imp_right fun ⟨r, hr, hn⟩ => ⟨r, hbefore.subset hr, hn⟩
    · exact ((hbefore'.handlers n).1 hn).imp_right fun ⟨r, hr, hn⟩ => ⟨r, hbefore.subset hr, hn⟩

/-! Two directories with one layout each, and one that is not there. -/

namespace Repeated

def map : String := "<a.Map/>"

def button : String :=
  "<Button xmlns:android=\"http://schemas.android.com/apk/res/android\" android:onClick=\"go\"/>"

def tree : FileTree :=
  { entries := Dict.ofList [(["lib"], .directory), (["lib", "layout"], .directory),
      (["lib", "layout", "b.xml"], .file (Text.encode button.toList)), (["res"], .directory),
      (["res", "layout"], .directory),
      (["res", "layout", "a.xml"], .file (Text.encode map.toList))] }

theorem findLayouts_lib : findLayouts tree "lib" = .ok ["lib/layout/b.xml"] := by
  have hlayout : LayoutDirectory tree "lib" "layout" ["lib", "layout"] :=
    ⟨by decide, by decide, FileTree.locate_of_leads (by decide) (by decide), by decide⟩
  have hlocate : tree.locate "lib" = .ok ["lib"] := FileTree.locate_of_leads (by decide) (by decide)
  rw [findLayouts_of_children hlocate (by decide) (by decide) hlayout (by decide)]
  decide

theorem findLayouts_res : findLayouts tree "res" = .ok ["res/layout/a.xml"] := by
  have hlayout : LayoutDirectory tree "res" "layout" ["res", "layout"] :=
    ⟨by decide, by decide, FileTree.locate_of_leads (by decide) (by decide), by decide⟩
  have hlocate : tree.locate "res" = .ok ["res"] := FileTree.locate_of_leads (by decide) (by decide)
  rw [findLayouts_of_children hlocate (by decide) (by decide) hlayout (by decide)]
  decide

theorem findLayouts_gone : findLayouts tree "gone" = .error (.resources "gone" .notFound) := by
  apply findLayouts_of_locate_error
  rw [FileTree.locate_eq_follow (by decide : _ ∧ FileTree.stepsOf "gone" = ["gone"] ∧ _),
    FileTree.follow]
  decide

theorem fileHas_button :
    FileHas tree "lib/layout/b.xml" ⟨NameSet.ofList ["Button"], NameSet.ofList ["go"]⟩ :=
  fileHas_of_entry (FileTree.locate_of_leads (by decide) (by decide)) (by rfl)
    (by decide +kernel : References.parse button.toList = _)

theorem fileHas_map : FileHas tree "res/layout/a.xml" ⟨NameSet.ofList ["a.Map"], ∅⟩ :=
  fileHas_of_entry (FileTree.locate_of_leads (by decide) (by decide)) (by rfl)
    (by decide +kernel : References.parse map.toList = _)

theorem answer_lib : answer tree "lib" = .ok 1 ∧ found tree "lib" =
    References.empty.union ⟨NameSet.ofList ["Button"], NameSet.ofList ["go"]⟩ := by
  rw [answer, found, run_absorb_of_fileHas findLayouts_lib fileHas_button]
  exact ⟨rfl, rfl⟩

theorem answer_res : answer tree "res" = .ok 1 ∧
    found tree "res" = References.empty.union ⟨NameSet.ofList ["a.Map"], ∅⟩ := by
  rw [answer, found, run_absorb_of_fileHas findLayouts_res fileHas_map]
  exact ⟨rfl, rfl⟩

theorem answer_gone : answer tree "gone" = .error (.discovery (.resources "gone" .notFound)) ∧
    found tree "gone" = References.empty := by
  rw [answer, found, run_absorb, findLayouts_gone]
  exact ⟨rfl, rfl⟩

/-- The answers to the directories, and what is collected from all of them. -/
def run (directories : List String) : List (Except AnalysisError Nat) × Collection :=
  (Analyzer.absorbAll tree directories).run References.empty

end Repeated

theorem run_absorbAll_repeated :
    (∀ resources, resources ∈ ["res", "gone", "lib", "res"] ↔ resources ∈ ["lib", "res", "gone"]) ∧
      (Repeated.run ["res", "gone", "lib", "res"]).2.classes =
        (Repeated.run ["lib", "res", "gone"]).2.classes ∧
      (Repeated.run ["res", "gone", "lib", "res"]).2.handlers =
        (Repeated.run ["lib", "res", "gone"]).2.handlers ∧
      (Repeated.run ["lib", "res", "gone"]).2 =
        ⟨NameSet.ofList ["Button", "a.Map"], NameSet.ofList ["go"]⟩ ∧
      (Repeated.run ["res", "gone", "lib", "res"]).1 =
        [.ok 1, .error (.discovery (.resources "gone" .notFound)), .ok 1, .ok 1] := by
  have hmem : ∀ resources,
      resources ∈ ["res", "gone", "lib", "res"] ↔ resources ∈ ["lib", "res", "gone"] := by
    intro resources
    simp only [List.mem_cons, List.not_mem_nil, or_false]
    tauto
  obtain ⟨hclasses, hhandlers, -, hanswers, -⟩ :=
    run_absorbAll_of_mem_iff Repeated.tree References.empty hmem
  refine ⟨hmem, hclasses, hhandlers, ?_, hanswers.trans ?_⟩
  · rw [Repeated.run, run_absorbAll]
    simp only [List.map_cons, List.map_nil, Repeated.answer_lib, Repeated.answer_res,
      Repeated.answer_gone]
    decide
  · simp only [List.map_cons, List.map_nil, Repeated.answer_lib, Repeated.answer_res,
      Repeated.answer_gone]

end LayoutShell.Layout
