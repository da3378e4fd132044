import LayoutShell.Proofs.Layout.Discoveries
import LayoutShell.Proofs.Layout.Documents
import LayoutShell.Proofs.Layout.Sequences

/-!
# Where collected names come from

Every name that an analyzer holds was mentioned by an element of a layout that it has read. A tag
that only structures a layout names no class by itself, so it can be collected only where an
attribute spells it out.

* `collected` is the collection after analyses of any directories of any trees.
* `adds_collected` traces the names of a collection back to elements.
* `structural_mem_collected`: how structural tags and empty names can be collected.
-/

namespace LayoutShell.Layout

open Files Markup References

/-- The collection of an analyzer that has analyzed the directories one after another, each in its
own tree. A failure ends only its own analysis. -/
def collected (calls : List (FileTree × String)) : Collection :=
  calls.foldl (fun c call => ((Analyzer.absorb call.1 call.2).run.run c).2) References.empty

/-! ## Elements of files -/

/-- The file is a document with the element `e`. -/
def HasElement (t : FileTree) (path : String) (e : Element) : Prop :=
  ∃ (document : List Char) (events : List Event), t.readText path = .ok document ∧
    Event.scan document = events.map .ok ∧ ∃ event ∈ events, event.element? = some e

/-- A layout refers to what its elements refer to. -/
theorem FileHas.mem_iff {t : FileTree} {path : String} {r : References} (h : FileHas t path r) :
    (∀ n, n ∈ r.classes ↔ ∃ e, HasElement t path e ∧ ElementClass e n) ∧
      ∀ n, n ∈ r.handlers ↔ ∃ e, HasElement t path e ∧ ElementHandler e n := by
  obtain ⟨document, hread, hparse⟩ := h
  obtain ⟨q, hq, -⟩ := bind_eq_ok_iff.1 hparse
  obtain ⟨events, hscan⟩ := Progress.run_eq_ok_cases hq
  obtain ⟨-, -, hadds⟩ := (parse_of_scan hscan).1 hparse
  have hmentions : ∀ (R : Element → String → Prop) (n : String),
      Mentions R events n ↔ ∃ e, HasElement t path e ∧ R e n := by
    intro R n
    constructor
    · rintro ⟨event, hevent, e, he, hn⟩
      exact ⟨e, ⟨document, events, hread, hscan, event, hevent, he⟩, hn⟩
    · rintro ⟨e, ⟨document', events', hread', hscan', event, hevent, he⟩, hn⟩
      obtain rfl := Except.ok.inj (hread.symm.trans hread')
      have hevents : events = events' :=
        List.map_injective_iff.2 (fun _ _ => Except.ok.inj) (hscan.symm.trans hscan')
      exact ⟨event, hevents ▸ hevent, e, he, hn⟩
  rw [adds_empty_iff] at hadds
  exact ⟨fun n => (hadds.1 n).trans (hmentions _ n), fun n => (hadds.2 n).trans (hmentions _ n)⟩

/-! ## Elements of analyses -/

/-- The analysis of `resources` succeeds, and one of its layouts has the element `e`. -/
def Reads (t : FileTree) (resources : String) (e : Element) : Prop :=
  ∃ paths, findLayouts t resources = .ok paths ∧ (∀ path ∈ paths, ∃ r, FileHas t path r) ∧
    ∃ path ∈ paths, HasElement t path e

/-- The names that files mention are those that the elements read from them refer to by `R`. -/
theorem exists_reads_iff {t : FileTree} {resources : String} {paths : List String}
    (hpaths : findLayouts t resources = .ok paths) (hgood : ∀ path ∈ paths, ∃ r, FileHas t path r)
    {names : References → NameSet} {R : Element → String → Prop} {n : String}
    (h : ∀ path r, FileHas t path r → (n ∈ names r ↔ ∃ e, HasElement t path e ∧ R e n)) :
    (∃ path ∈ paths, ∃ r, FileHas t path r ∧ n ∈ names r) ↔
      ∃ e, Reads t resources e ∧ R e n := by
  constructor
  · rintro ⟨path, hpath, r, hr, hn⟩
    obtain ⟨e, he, hn⟩ := (h path r hr).1 hn
    exact ⟨e, ⟨paths, hpaths, hgood, path, hpath, he⟩, hn⟩
  · rintro ⟨e, ⟨paths', hpaths', -, path, hpath, he⟩, hn⟩
    obtain rfl := Except.ok.inj (hpaths.symm.trans hpaths')
    obtain ⟨r, hr⟩ := hgood path hpath
    exact ⟨path, hpath, r, hr, (h path r hr).2 ⟨e, he, hn⟩⟩

/-- What a new analyzer collects is what the elements that it reads refer to. -/
theorem adds_found (t : FileTree) (resources : String) :
    Adds References.empty (found t resources)
      (fun n => ∃ e, Reads t resources e ∧ ElementClass e n)
      fun n => ∃ e, Reads t resources e ∧ ElementHandler e n := by
  have hnothing : (∀ e, ¬Reads t resources e) → Adds References.empty References.empty
      (fun n => ∃ e, Reads t resources e ∧ ElementClass e n)
      fun n => ∃ e, Reads t resources e ∧ ElementHandler e n := fun h =>
    (Adds.refl References.empty).congr (fun n => iff_of_false id fun ⟨e, he, _⟩ => h e he)
      fun n => iff_of_false id fun ⟨e, he, _⟩ => h e he
  rw [found, run_absorb]
  cases hpaths : findLayouts t resources with
  | error cause =>
    refine hnothing fun e he => ?_
    obtain ⟨paths, hpaths', -⟩ := he
    cases hpaths.symm.trans hpaths'
  | ok paths =>
    dsimp only
    cases hcollect : collect t paths with
    | error cause =>
      refine hnothing fun e he => ?_
      obtain ⟨paths', hpaths', hgood, -⟩ := he
      obtain rfl := Except.ok.inj (hpaths.symm.trans hpaths')
      obtain ⟨r, hr⟩ := exists_collect_eq_ok hgood
      cases hcollect.symm.trans hr
    | ok r =>
      obtain ⟨hgood, hadds⟩ := collect_eq_ok hcollect
      rw [adds_empty_iff] at hadds
      refine (adds_union References.empty r).congr (fun n => (hadds.1 n).trans ?_)
        fun n => (hadds.2 n).trans ?_
      · exact exists_reads_iff hpaths hgood fun _ _ hr => hr.mem_iff.1 n
      · exact exists_reads_iff hpaths hgood fun _ _ hr => hr.mem_iff.2 n

theorem collected_eq (calls : List (FileTree × String)) :
    collected calls = (calls.map fun call => found call.1 call.2).foldl union References.empty := by
  rw [collected, List.foldl_map]
  congr 1
  funext c call
  rw [run_absorb_eq_answer]

/-- **An analyzer holds the names that the elements of its successful analyses refer to.** -/
theorem adds_collected (calls : List (FileTree × String)) :
    Adds References.empty (collected calls)
      (fun n => ∃ call ∈ calls, ∃ e, Reads call.1 call.2 e ∧ ElementClass e n)
      fun n => ∃ call ∈ calls, ∃ e, Reads call.1 call.2 e ∧ ElementHandler e n := by
  have hfound := fun call : FileTree × String => adds_empty_iff.1 (adds_found call.1 call.2)
  rw [collected_eq]
  refine (adds_foldl_union References.empty _).congr (fun n => ?_) fun n => ?_
  · simp only [List.mem_map, exists_exists_and_eq_and, (hfound _).1]
  · simp only [List.mem_map, exists_exists_and_eq_and, (hfound _).2]

/-! ## Structural tags and empty names -/

theorem structural_of_elementClass {e : Element} {tag : List Char} (htag : tag ∈ structuralTags) :
    ElementClass e (String.ofList tag) ↔ ∃ kind, elementTag e = .ok kind ∧
      ∃ a ∈ attributeList e, AttributeClass e.scope kind a (String.ofList tag) := by
  constructor
  · rintro ⟨kind, hkind, ⟨hnot, heq⟩ | hattribute⟩
    · obtain rfl := String.ofList_inj.1 heq
      exact absurd htag hnot
    · exact ⟨kind, hkind, hattribute⟩
  · rintro ⟨kind, hkind, hattribute⟩
    exact ⟨kind, hkind, .inr hattribute⟩

/-- The value of an attribute counts only if it is not empty. -/
theorem ofList_ne_empty {v : List Char} (h : v ≠ []) : "" ≠ String.ofList v := fun heq =>
  h (String.ofList_inj.1 heq).symm

theorem elementTag_of_elementClass_empty {e : Element} (h : ElementClass e "") :
    elementTag e = .ok [] := by
  obtain ⟨kind, hkind, ⟨-, heq⟩ | ⟨a, -, l, v, -, -, hv, heq⟩⟩ := h
  · obtain rfl : [] = kind := String.ofList_inj.1 heq
    exact hkind
  · exact absurd heq (ofList_ne_empty hv)

/-- **A collection holds a structural tag exactly if a class attribute of a `view` or `fragment`
spells it out, it holds an empty class name only if an element has no name, and it never holds an
empty handler.** -/
theorem structural_mem_collected (calls : List (FileTree × String)) :
    (∀ tag ∈ structuralTags, String.ofList tag ∈ (collected calls).classes ↔
      ∃ call ∈ calls, ∃ e, Reads call.1 call.2 e ∧ ∃ kind, elementTag e = .ok kind ∧
        ∃ a ∈ attributeList e, AttributeClass e.scope kind a (String.ofList tag)) ∧
    ("" ∈ (collected calls).classes →
      ∃ call ∈ calls, ∃ e, Reads call.1 call.2 e ∧ elementTag e = .ok []) ∧
    "" ∉ (collected calls).handlers := by
  obtain ⟨hclasses, hhandlers⟩ := adds_empty_iff.1 (adds_collected calls)
  refine ⟨fun tag htag => ?_, fun h => ?_, fun h => ?_⟩
  · rw [hclasses]
    simp only [structural_of_elementClass htag]
  · obtain ⟨call, hcall, e, he, hn⟩ := (hclasses _).1 h
    exact ⟨call, hcall, e, he, elementTag_of_elementClass_empty hn⟩
  · obtain ⟨call, -, e, -, a, -, v, -, hv, heq⟩ := (hhandlers _).1 h
    exact ofList_ne_empty hv heq

/-! An attribute may spell out a structural tag, and an element need not have a name. -/

namespace Spelled

def layout : String :=
  "<view xmlns:android=\"http://schemas.android.com/apk/res/android\" android:class=\"merge\">" ++
    "< /></view>"

def tree : FileTree :=
  { entries := Dict.ofList [(["res"], .directory), (["res", "layout"], .directory),
      (["res", "layout", "a.xml"], .file (Text.encode layout.toList))] }

theorem findLayouts_tree : findLayouts tree "res" = .ok ["res/layout/a.xml"] := by
  have hlayout : LayoutDirectory tree "res" "layout" ["res", "layout"] :=
    ⟨by decide, by decide, FileTree.locate_of_leads (by decide) (by decide), by decide⟩
  have hlocate : tree.locate "res" = .ok ["res"] := FileTree.locate_of_leads (by decide) (by decide)
  rw [findLayouts_of_children hlocate (by decide) (by decide) hlayout (by decide)]
  decide

theorem fileHas_layout : FileHas tree "res/layout/a.xml" ⟨NameSet.ofList ["", "merge"], ∅⟩ :=
  fileHas_of_entry (FileTree.locate_of_leads (by decide) (by decide)) (by rfl)
    (by decide +kernel : References.parse layout.toList = _)

end Spelled

/-- **Neither structural tags nor the empty name are kept out of every collection.** -/
theorem structural_mem_collected_spelled :
    (¬∀ calls, ∀ tag ∈ structuralTags, String.ofList tag ∉ (collected calls).classes) ∧
      ¬∀ calls, "" ∉ (collected calls).classes := by
  have hclasses : (collected [(Spelled.tree, "res")]).classes = NameSet.ofList ["", "merge"] := by
    rw [collected, List.foldl_cons,
      run_absorb_of_fileHas Spelled.findLayouts_tree Spelled.fileHas_layout]
    decide
  refine ⟨fun h => ?_, fun h => ?_⟩
  · refine h [(Spelled.tree, "res")] "merge".toList (by decide) ?_
    rw [hclasses]
    decide
  · refine h [(Spelled.tree, "res")] ?_
    rw [hclasses]
    decide

end LayoutShell.Layout
