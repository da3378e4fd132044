import LayoutShell.Proofs.Files.Rewriting
import LayoutShell.Proofs.Layout.Discoveries

/-!
# Looking for layouts again

A file that is written to some place may be a new layout or replace one, but it does not keep the
search for layouts from ending: no directory is added or lost, and a walk fails only at directories.

* `exists_layoutsBelow_put` and `mem_layoutNames_of_put` say this of one walk and of the directories
  that are walked, and `exists_findLayouts_of_write` of the whole search.
* `isLayoutPath_put_iff`: a file whose name does not end in `.xml` is no layout, so that the search
  finds what it found before (`perm_findLayouts_of_write`).
-/

namespace LayoutShell.Layout

open Files Files.FileTree Files.Path

section

variable {t : FileTree} {l : Location} (hl : t.Free l) (content : List UInt8)

include hl

theorem get?_put_eq_directory_iff (l' : Location) :
    (t.put l (.file content)).entries.get? l' = some .directory ↔
      t.entries.get? l' = some .directory := by
  rw [FileTree.put, Dict.get?_insert]
  split
  next h =>
    rw [h, get?_eq_entry?_of_free hl]
    refine iff_of_false (by simp) fun hdir => ?_
    obtain ⟨_, hfile⟩ := hl _ hdir
    cases hfile
  next => rfl

theorem isReachable_put (here : Location) (names : List String) :
    isReachable (t.put l (.file content)) here names = isReachable t here names := by
  rw [Bool.eq_iff_iff, isReachable_iff, isReachable_iff]
  simp only [get?_put_eq_directory_iff hl]

/-- A walk that met only directories with short paths still does. -/
theorem unreadable?_put {path : String} {top : Location} (h : unreadable? t path top = none) :
    unreadable? (t.put l (.file content)) path top = none := by
  rw [Option.eq_none_iff_forall_ne_some]
  intro directory hdirectory
  obtain ⟨names, hmem, rfl, hlong⟩ := mem_of_unreadable? hdirectory
  rw [mem_entriesUnder, get?_put_eq_directory_iff hl, isReachable_put hl,
    ← mem_entriesUnder] at hmem
  have hsome := isSome_unreadable? hmem hlong
  rw [h] at hsome
  cases hsome

/-- The walk of a directory does not fail because of a file that was written. -/
theorem exists_layoutsBelow_put {path : String} {paths : List String}
    (hdir : t.isDirectoryAt path = true) (h : layoutsBelow t path = .ok paths) :
    ∃ paths', layoutsBelow (t.put l (.file content)) path = .ok paths' := by
  obtain ⟨top, htop, hisDir⟩ := isDirectoryAt_iff.1 hdir
  obtain ⟨l', hentry, h⟩ := bind_eq_ok_iff.1 h
  rw [mapError_eq_ok_iff] at hentry
  rw [layoutsBelow, locateEntry_put hl content hentry, locate_put hl content htop]
  simp only [Except.mapError, bind, Except.bind, isDirectory_put_eq hl, hisDir, htop] at h ⊢
  split
  · exact ⟨_, rfl⟩
  next hfile =>
    have hold : ∀ content, t.entry? l' ≠ some (.file content) := by
      intro old hold
      rw [entry?_put hl] at hfile
      split at hfile
      · exact hfile content rfl
      · exact hfile old hold
    split at h
    next old hentry' => exact absurd hentry' (hold old)
    next =>
      cases hunreadable : unreadable? t path top with
      | some directory =>
        rw [hunreadable] at h
        cases h
      | none =>
        rw [unreadable?_put hl content hunreadable]
        exact ⟨_, rfl⟩

/-- The file that was written is no layout directory. -/
theorem mem_layoutNames_of_put {resources name : String} {d : Location}
    (hd : t.locate resources = .ok d)
    (hlast : ∀ n, l = d ++ [n] → IsName n ∧ n ≠ "." ∧ n ≠ "..")
    (h : name ∈ layoutNames (t.put l (.file content)) resources d) :
    name ∈ layoutNames t resources d := by
  obtain ⟨hmem, hname⟩ := List.mem_filter.1 h
  rw [isDirectoryAt_put hl] at hname
  refine List.mem_filter.2 ⟨?_, hname⟩
  obtain ⟨e, he⟩ := mem_children_iff.1 hmem
  rw [FileTree.put, Dict.get?_insert] at he
  split at he
  next hnew =>
    exfalso
    obtain ⟨hisName, hdots⟩ := hlast name hnew.symm
    rw [Bool.and_eq_true, ← isDirectoryAt_put hl content, isDirectoryAt_iff] at hname
    obtain ⟨-, top, htop, hdir⟩ := hname
    obtain ⟨-, e', he', hnoLink⟩ := locateEntry_join (locate_put hl content hd) hisName hdots htop
    rw [entry?_put hl, if_pos hnew] at he'
    cases he'
    rw [hnoLink fun _ => Entry.noConfusion, isDirectory_put_eq hl, hnew,
      not_isDirectory_of_free hl] at hdir
    cases hdir
  next => exact mem_children_iff.2 ⟨e, he⟩

theorem layoutDirectory_put_iff {resources name : String} {top : Location} :
    LayoutDirectory (t.put l (.file content)) resources name top ↔
      LayoutDirectory t resources name top := by
  constructor
  · rintro ⟨isName, layout, locate, isDirectory⟩
    have hat : t.isDirectoryAt (join resources name) = true := by
      rw [← isDirectoryAt_put hl content, isDirectoryAt_iff]
      exact ⟨top, locate, isDirectory⟩
    obtain ⟨top', hlocate, hdir⟩ := isDirectoryAt_iff.1 hat
    obtain rfl := Except.ok.inj ((locate_put hl content hlocate).symm.trans locate)
    exact ⟨isName, layout, hlocate, hdir⟩
  · rintro ⟨isName, layout, locate, isDirectory⟩
    exact ⟨isName, layout, locate_put hl content locate, isDirectory_put hl content isDirectory⟩

theorem reaches_put_iff {top : Location} {names : List String} {e : Entry}
    (hne : top ++ names ≠ l) :
    Reaches (t.put l (.file content)) top names e ↔ Reaches t top names e := by
  constructor
  · rintro ⟨isName, through, entry⟩
    simp only [isDirectory_put_eq hl] at through
    rw [entry?_put hl, if_neg hne] at entry
    exact ⟨isName, through, entry⟩
  · rintro ⟨isName, through, entry⟩
    refine ⟨isName, ?_, ?_⟩
    · simpa only [isDirectory_put_eq hl] using through
    · rw [entry?_put hl, if_neg hne]
      exact entry

/-- A file whose name does not end in `.xml` is no layout and does not replace one. -/
theorem isLayoutPath_put_iff (hxml : ∀ parent stem, l ≠ parent ++ [stem ++ ".xml"])
    {resources path : String} :
    IsLayoutPath (t.put l (.file content)) resources path ↔ IsLayoutPath t resources path := by
  have hne : ∀ top names stem, top ++ (names ++ [stem ++ ".xml"]) ≠ l := by
    intro top names stem heq
    rw [← List.append_assoc] at heq
    exact hxml _ _ heq.symm
  constructor
  · rintro ⟨directory, top, names, file, content', stem, hdirectory, hreaches, hstem, rfl, hpath⟩
    exact ⟨directory, top, names, _, content', stem,
      (layoutDirectory_put_iff hl content).1 hdirectory,
      (reaches_put_iff hl content (hne top names stem)).1 hreaches, hstem, rfl, hpath⟩
  · rintro ⟨directory, top, names, file, content', stem, hdirectory, hreaches, hstem, rfl, hpath⟩
    exact ⟨directory, top, names, _, content', stem,
      (layoutDirectory_put_iff hl content).2 hdirectory,
      (reaches_put_iff hl content (hne top names stem)).2 hreaches, hstem, rfl, hpath⟩

end

theorem locate_of_findLayouts {t : FileTree} {resources : String} {paths : List String}
    (h : findLayouts t resources = .ok paths) :
    ∃ d, t.locate resources = .ok d ∧ t.isDirectory d = true := by
  obtain ⟨directories, hdirectories, -⟩ := bind_eq_ok_iff.1 h
  obtain ⟨names, hnames, -⟩ := bind_eq_ok_iff.1 hdirectories
  obtain ⟨d, hd, hdir, -⟩ := list_eq_ok_iff.1 (mapError_eq_ok_iff.1 hnames)
  exact ⟨d, hd, hdir⟩

/-- **Where layouts were found, they are found again after a file was written.** -/
theorem exists_findLayouts_of_write {t t' : FileTree} {path : String} {content : List UInt8}
    (hwrite : t.write path content = .ok t') {resources : String} {paths : List String}
    (h : findLayouts t resources = .ok paths) :
    ∃ paths', findLayouts t' resources = .ok paths' := by
  obtain ⟨l, hl, hput⟩ := bind_eq_ok_iff.1 hwrite
  cases hput
  obtain ⟨⟨⟩, -, htarget⟩ := bind_eq_ok_iff.1 hl
  have hcreates := creates_of_target htarget
  have hfree := hcreates.free
  obtain ⟨d, hd, hdir⟩ := locate_of_findLayouts h
  obtain ⟨parent, last, -, hisName, hordinary, heq⟩ := hcreates.exists_child
    (isLocation_nil.startOf path) fun _ => isName_of_mem_steps
  have hlast : ∀ n, l = d ++ [n] → IsName n ∧ n ≠ "." ∧ n ≠ ".." := by
    intro n hn
    obtain ⟨-, hn⟩ := List.append_inj' (hn.symm.trans heq) rfl
    rw [List.cons.inj hn |>.1]
    exact ⟨hisName, hordinary.ne_dot, hordinary.ne_dots⟩
  cases hagain : findLayouts (t.put l (.file content)) resources with
  | ok paths' => exact ⟨paths', rfl⟩
  | error e =>
    exfalso
    rw [findLayouts_eq hd hdir] at h
    obtain ⟨found, hfound, -⟩ := map_eq_ok_iff.1 h
    rw [findLayouts_eq (locate_put hfree content hd) (isDirectory_put hfree content hdir)] at hagain
    obtain ⟨before, name, after, hnames, -, herror⟩ :=
      mapM_eq_error_iff.1 (map_eq_error_iff.1 hagain)
    have hname : name ∈ layoutNames t resources d := by
      apply mem_layoutNames_of_put hfree content hd hlast
      rw [hnames]
      simp
    obtain ⟨ps, hps⟩ := forall_mem_of_mapM hfound name hname
    have hat : t.isDirectoryAt (join resources name) = true := by
      have hfilter := (List.mem_filter.1 hname).2
      rw [Bool.and_eq_true] at hfilter
      exact hfilter.2
    obtain ⟨ps', hps'⟩ := exists_layoutsBelow_put hfree content hat (mapError_eq_ok_iff.1 hps)
    rw [hps'] at herror
    cases herror

/-- Writing a file whose name does not end in `.xml` changes nothing about the layouts found. -/
theorem perm_findLayouts_of_write {t t' : FileTree} (ht : t.Proper) {path : String} {l : Location}
    (hl : t.destination path = .ok l) (hxml : ∀ parent stem, l ≠ parent ++ [stem ++ ".xml"])
    {content : List UInt8} (hwrite : t.write path content = .ok t') {resources : String}
    {paths paths' : List String} (h : findLayouts t resources = .ok paths)
    (h' : findLayouts t' resources = .ok paths') : paths'.Perm paths := by
  have ht' := ht.write hwrite
  obtain rfl := Except.ok.inj ((write_of_destination hl content).symm.trans hwrite)
  obtain ⟨⟨⟩, -, htarget⟩ := bind_eq_ok_iff.1 hl
  have hfree := (creates_of_target htarget).free
  obtain ⟨d, hd, hdir⟩ := locate_of_findLayouts h
  obtain ⟨d', hd', hdir'⟩ := locate_of_findLayouts h'
  have hlist := list_eq_ok_iff.2 ⟨d, hd, hdir, rfl⟩
  have hlist' := list_eq_ok_iff.2 ⟨d', hd', hdir', rfl⟩
  have hnodup := (sorted_of_findLayouts ht hlist h).imp Before.ne
  have hnodup' := (sorted_of_findLayouts ht' hlist' h').imp Before.ne
  refine (List.perm_ext_iff_of_nodup hnodup' hnodup).2 fun file => ?_
  rw [mem_iff_of_findLayouts ht hlist h, mem_iff_of_findLayouts ht' hlist' h']
  exact isLayoutPath_put_iff hfree content hxml

end LayoutShell.Layout
