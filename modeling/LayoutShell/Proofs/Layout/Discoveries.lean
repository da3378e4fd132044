import LayoutShell.Layout.Discovery
import LayoutShell.Proofs.Files.Directories

/-!
# The layout files of a resource directory

A file tree has no permissions, so all directories are readable. Only the length of its path may
keep a directory from being read.

* `Reaches` says that names lead through directories to an entry, without a link on the way, and
  `mem_entriesUnder_iff` that a walk visits exactly what is reached. `sorted_entriesUnder` gives the
  order of the walk.
* `LayoutDirectory` says which directories are walked, and `layoutsBelow_eq` what the walk gives.
* `IsLayoutPath` are the paths of layout files and `IsTooDeep` those of directories whose path is
  too long.
* `findLayouts_lists`: exactly the layout files are found, each once and in order, unless the path
  of a directory is too long. `not_forall_findLayouts_lists` says that this happens.
-/

namespace LayoutShell.Layout

open Files Files.FileTree Files.Path

/-! ## Walking a directory -/

/-- The names lead from the directory `top` to the entry `e`. Each of them stands in a directory, so
no link is followed. -/
structure Reaches (t : FileTree) (top : Location) (names : List String) (e : Entry) : Prop where
  isName : ∀ name ∈ names, IsName name
  through : ∀ before name, before ++ [name] <+: names → t.isDirectory (top ++ before) = true
  entry : t.entry? (top ++ names) = some e

theorem isReachable_iff {t : FileTree} {here : Location} {names : List String} :
    isReachable t here names = true ↔ ∀ before name, before ≠ [] → before ++ [name] <+: names →
      t.entries.get? (here ++ before) = some .directory := by
  fun_induction isReachable t here names with
  | case1 here => simp
  | case2 here name =>
    refine iff_of_true rfl fun before name' hne hbefore => absurd ?_ hne
    have hlength := hbefore.length_le
    simpa using hlength
  | case3 here name rest hrest ih =>
    rw [Bool.and_eq_true, decide_eq_true_eq, ih]
    constructor
    · rintro ⟨hname, htail⟩ before name' hne hbefore
      obtain ⟨first, before, rfl⟩ := List.exists_cons_of_ne_nil hne
      rw [List.cons_append, List.cons_prefix_cons] at hbefore
      obtain ⟨rfl, hbefore⟩ := hbefore
      by_cases hnil : before = []
      · rw [hnil]
        exact hname
      · rw [List.append_cons]
        exact htail before name' hnil hbefore
    · intro h
      obtain ⟨next, rest, rfl⟩ := List.exists_cons_of_ne_nil fun hnil => hrest hnil
      refine ⟨h [name] next (by simp) (by simp), fun before name' _ hbefore => ?_⟩
      rw [← List.append_cons]
      exact h (name :: before) name' (by simp) (List.cons_prefix_cons.2 ⟨rfl, hbefore⟩)

theorem under_eq_some_iff {t : FileTree} {top l : Location} {e : Entry}
    {found : List String × Entry} :
    (if top.isPrefixOf l ∧ isReachable t top (l.drop top.length) then
      some (l.drop top.length, e) else none) = some found ↔
      l = top ++ found.1 ∧ e = found.2 ∧ isReachable t top found.1 = true := by
  constructor
  · intro h
    split at h
    next hl =>
      obtain ⟨rest, rfl⟩ := List.isPrefixOf_iff_prefix.1 hl.1
      rw [List.drop_left] at hl h
      cases h
      exact ⟨rfl, rfl, hl.2⟩
    next => cases h
  · rintro ⟨rfl, rfl, hreach⟩
    simp [hreach]

theorem mem_entriesUnder {t : FileTree} {top : Location} {names : List String} {e : Entry} :
    (names, e) ∈ entriesUnder t top ↔
      t.entries.get? (top ++ names) = some e ∧ isReachable t top names = true := by
  rw [entriesUnder, List.mem_filterMap, Dict.get?_eq_some_iff]
  constructor
  · rintro ⟨⟨l, e'⟩, hmem, h⟩
    obtain ⟨rfl, rfl, hreach⟩ := under_eq_some_iff.1 h
    exact ⟨hmem, hreach⟩
  · rintro ⟨hmem, hreach⟩
    exact ⟨_, hmem, under_eq_some_iff.2 ⟨rfl, rfl, hreach⟩⟩

theorem sorted_entriesUnder (t : FileTree) (top : Location) :
    (entriesUnder t top).Pairwise fun a b => List.Lex (· < ·) a.1 b.1 := by
  rw [entriesUnder, List.pairwise_filterMap]
  refine t.entries.sorted.imp ?_
  rintro ⟨l, e⟩ ⟨l', e'⟩ hlt found hfound found' hfound'
  obtain ⟨rfl, -⟩ := under_eq_some_iff.1 hfound
  obtain ⟨rfl, -⟩ := under_eq_some_iff.1 hfound'
  exact lex_of_append hlt

section

variable {t : FileTree} (ht : t.Proper) {top : Location} {names : List String} {e : Entry}

theorem entry?_append_names (hne : names ≠ []) (hnames : ∀ name ∈ names, IsName name) :
    t.entry? (top ++ names) = t.entries.get? (top ++ names) := by
  obtain rfl | ⟨init, last, rfl⟩ := List.eq_nil_or_concat' names
  · exact absurd rfl hne
  · rw [← List.append_assoc]
    exact entry?_child _ (hnames last (by simp))

include ht

theorem isName_of_isReachable (hentry : t.entries.get? (top ++ names) = some e)
    (hreach : isReachable t top names = true) : ∀ name ∈ names, IsName name := by
  rcases (ht.isLocation hentry).isName_of_append with hnames | ⟨rest, rfl, rfl⟩
  · exact hnames
  -- a walk of the working directory does not enter the system root
  exfalso
  cases rest with
  | nil =>
    rw [List.append_nil, List.nil_append, ht.get?_systemRoot] at hentry
    cases hentry
  | cons name rest =>
    have hroot := isReachable_iff.1 hreach systemRoot name (by decide) (by simp)
    rw [List.nil_append, ht.get?_systemRoot] at hroot
    cases hroot

/-- **A walk visits what can be reached without following a link.** -/
theorem mem_entriesUnder_iff (hdir : t.isDirectory top = true) (hne : names ≠ []) :
    (names, e) ∈ entriesUnder t top ↔ Reaches t top names e := by
  rw [mem_entriesUnder]
  constructor
  · rintro ⟨hentry, hreach⟩
    have hnames := isName_of_isReachable ht hentry hreach
    refine ⟨hnames, fun before name hbefore => ?_, (entry?_append_names hne hnames).trans hentry⟩
    by_cases hnil : before = []
    · rw [hnil, List.append_nil]
      exact hdir
    · have hsub : ∀ name ∈ before, IsName name := fun n hn =>
        hnames n (hbefore.subset (List.mem_append_left _ hn))
      rw [isDirectory, entry?_append_names hnil hsub, decide_eq_true_eq]
      exact isReachable_iff.1 hreach before name hnil hbefore
  · intro h
    refine ⟨(entry?_append_names hne h.isName).symm.trans h.entry, isReachable_iff.2 ?_⟩
    intro before name hnil hbefore
    have hsub : ∀ name ∈ before, IsName name := fun n hn =>
      h.isName n (hbefore.subset (List.mem_append_left _ hn))
    rw [← entry?_append_names hnil hsub]
    exact entry?_of_isDirectory (h.through before name hbefore)

/-- The layout files of a walk. -/
theorem mem_layoutsUnder_iff (hdir : t.isDirectory top = true) :
    names ∈ layoutsUnder t top ↔ ∃ before file content stem, names = before ++ [file] ∧
      Reaches t top names (.file content) ∧ stem ≠ "" ∧ file = stem ++ ".xml" := by
  simp only [layoutsUnder, List.mem_map, List.mem_filter, Prod.exists, exists_and_right,
    exists_eq_right]
  constructor
  · rintro ⟨e, hmem, hlayout⟩
    cases e with
    | file content =>
      obtain rfl | ⟨before, file, rfl⟩ := List.eq_nil_or_concat' names
      · rw [isLayoutFile] at hlayout
        exact absurd hlayout (by decide)
      · rw [isLayoutFile, beq_iff_eq, List.getLastD_concat, extension?_eq_some_xml_iff] at hlayout
        obtain ⟨stem, hne, hfile⟩ := hlayout
        exact ⟨before, file, content, stem, rfl,
          (mem_entriesUnder_iff ht hdir (by simp)).1 hmem, hne, hfile⟩
    | directory => cases hlayout
    | link => cases hlayout
  · rintro ⟨before, file, content, stem, rfl, hreach, hne, hfile⟩
    refine ⟨.file content, (mem_entriesUnder_iff ht hdir (by simp)).2 hreach, ?_⟩
    rw [isLayoutFile, beq_iff_eq, List.getLastD_concat, extension?_eq_some_xml_iff]
    exact ⟨stem, hne, hfile⟩

omit ht in
theorem sorted_layoutsUnder (t : FileTree) (top : Location) :
    (layoutsUnder t top).Pairwise (List.Lex (· < ·)) := by
  rw [layoutsUnder, List.pairwise_map]
  exact (sorted_entriesUnder t top).filter _

omit ht in
theorem mem_of_unreadable? {path directory : String} (h : unreadable? t path top = some directory) :
    ∃ names, (names, .directory) ∈ entriesUnder t top ∧ directory = joinAll path names ∧
      maxPath < directory.utf8ByteSize := by
  have hlong := List.find?_some h
  obtain ⟨⟨names, e⟩, hmem, rfl⟩ := List.mem_map.1 (List.mem_of_find?_eq_some h)
  obtain ⟨hmem, he⟩ := List.mem_filter.1 hmem
  obtain rfl : e = .directory := of_decide_eq_true he
  exact ⟨names, hmem, rfl, of_decide_eq_true hlong⟩

omit ht in
theorem isSome_unreadable? {path : String} (hmem : (names, .directory) ∈ entriesUnder t top)
    (hlong : maxPath < (joinAll path names).utf8ByteSize) :
    (unreadable? t path top).isSome = true := by
  rw [unreadable?, List.find?_isSome]
  refine ⟨joinAll path names, List.mem_map.2 ⟨_, List.mem_filter.2 ⟨hmem, ?_⟩, rfl⟩, ?_⟩
  · exact decide_eq_true rfl
  · exact decide_eq_true hlong

end

/-! ## Layout directories -/

/-- `name` begins with the word for layouts, and in the resource directory it designates a directory,
which stands at `top`. -/
structure LayoutDirectory (t : FileTree) (resources name : String) (top : Location) : Prop where
  isName : IsName name
  layout : "layout".toList <+: name.toList
  locate : t.locate (join resources name) = .ok top
  isDirectory : t.isDirectory top = true

/-- A path of a layout file: it leads from a layout directory through directories to a file whose
name has something before `.xml`. -/
def IsLayoutPath (t : FileTree) (resources path : String) : Prop :=
  ∃ directory top names file content stem, LayoutDirectory t resources directory top ∧
    Reaches t top (names ++ [file]) (.file content) ∧ stem ≠ "" ∧ file = stem ++ ".xml" ∧
    path = joinAll resources (directory :: (names ++ [file]))

/-- A path that leads from a layout directory through directories to a directory, and that is too
long to read it. -/
def IsTooDeep (t : FileTree) (resources path : String) : Prop :=
  ∃ directory top names name, LayoutDirectory t resources directory top ∧
    Reaches t top (names ++ [name]) .directory ∧
    path = joinAll resources (directory :: (names ++ [name])) ∧ maxPath < path.utf8ByteSize

section

variable {t : FileTree} {resources name : String} {l top : Location}

theorem LayoutDirectory.ne_dots (h : LayoutDirectory t resources name top) :
    name ≠ "." ∧ name ≠ ".." := by
  refine ⟨?_, ?_⟩
  · rintro rfl
    exact absurd h.layout (by decide)
  · rintro rfl
    exact absurd h.layout (by decide)

/-- The names of the layout directories among those that stand at `l`. -/
def layoutNames (t : FileTree) (resources : String) (l : Location) : List String :=
  (t.children l).filter fun name => isLayoutName name && t.isDirectoryAt (join resources name)

theorem sorted_layoutNames (t : FileTree) (resources : String) (l : Location) :
    (layoutNames t resources l).Pairwise (· < ·) :=
  (sorted_children t l).filter _

/-- Where the resources are not found, neither are layouts. -/
theorem findLayouts_of_locate_error {e : FileError} (h : t.locate resources = .error e) :
    findLayouts t resources = .error (.resources resources e) := by
  rw [findLayouts, layoutDirectories, list, h]
  rfl

variable (hl : t.locate resources = .ok l)

include hl

theorem findLayouts_eq (hdir : t.isDirectory l = true) :
    findLayouts t resources =
      ((layoutNames t resources l).mapM fun name =>
        (layoutsBelow t (join resources name)).mapError .walk).map List.flatten := by
  have hlist : t.list resources = .ok (t.children l) := list_eq_ok_iff.2 ⟨l, hl, hdir, rfl⟩
  rw [findLayouts, layoutDirectories, hlist]
  simp only [Except.mapError, bind, Except.bind, pure, Except.pure, List.mapM_map]
  rw [← layoutNames]
  rfl

/-- What the walk of a layout directory gives. -/
theorem layoutsBelow_eq (h : LayoutDirectory t resources name top) :
    layoutsBelow t (join resources name) =
      (unreadable? t (join resources name) top).elim
        (.ok ((layoutsUnder t top).map (joinAll (join resources name))))
        fun directory => .error ⟨directory, .nameTooLong⟩ := by
  obtain ⟨hentry, e, he, hnoLink⟩ := locateEntry_join hl h.isName h.ne_dots h.locate
  have hfile : ∀ content, e ≠ .file content := by
    rintro content rfl
    have htop := entry?_of_isDirectory h.isDirectory
    rw [hnoLink fun _ => Entry.noConfusion, he] at htop
    cases htop
  rw [layoutsBelow, hentry]
  simp only [Except.mapError, bind, Except.bind, he, h.locate, h.isDirectory]
  cases e with
  | file content => exact absurd rfl (hfile content)
  | directory => cases unreadable? t (join resources name) top <;> rfl
  | link next => cases unreadable? t (join resources name) top <;> rfl

/-- The layouts of resources that consist of one layout directory. -/
theorem findLayouts_of_children (hdir : t.isDirectory l = true) (hchildren : t.children l = [name])
    (h : LayoutDirectory t resources name top)
    (hreadable : unreadable? t (join resources name) top = none) :
    findLayouts t resources = .ok ((layoutsUnder t top).map (joinAll (join resources name))) := by
  have hnames : layoutNames t resources l = [name] := by
    have hlayout : (isLayoutName name && t.isDirectoryAt (join resources name)) = true := by
      rw [Bool.and_eq_true, isDirectoryAt_iff]
      exact ⟨List.isPrefixOf_iff_prefix.2 h.layout, top, h.locate, h.isDirectory⟩
    rw [layoutNames, hchildren, List.filter_singleton, hlayout, cond_true]
  have hbelow : layoutsBelow t (join resources name) =
      .ok ((layoutsUnder t top).map (joinAll (join resources name))) := by
    rw [layoutsBelow_eq hl h, hreadable]
    rfl
  rw [findLayouts_eq hl hdir, hnames]
  exact map_eq_ok_iff.2 ⟨_, mapM_eq_ok_iff.2 (.cons (mapError_eq_ok_iff.2 hbelow) .nil),
    List.flatten_singleton⟩

variable (ht : t.Proper)

include ht

theorem mem_layoutNames_iff :
    name ∈ layoutNames t resources l ↔ ∃ top, LayoutDirectory t resources name top := by
  rw [layoutNames, List.mem_filter, Bool.and_eq_true, isDirectoryAt_iff, mem_children_iff]
  constructor
  · rintro ⟨⟨e, hentry⟩, hlayout, top, htop, hdir⟩
    obtain ⟨parent, name', -, hname, heq⟩ := ht _ (Dict.get?_eq_some_iff.1 hentry)
    obtain ⟨-, heq⟩ := List.append_inj' heq rfl
    cases heq
    exact ⟨top, hname, List.isPrefixOf_iff_prefix.1 hlayout, htop, hdir⟩
  · rintro ⟨top, h⟩
    obtain ⟨-, e, he, -⟩ := locateEntry_join hl h.isName h.ne_dots h.locate
    rw [entry?_child l h.isName] at he
    exact ⟨⟨e, he⟩, List.isPrefixOf_iff_prefix.2 h.layout, top, h.locate, h.isDirectory⟩

omit hl in
theorem isTooDeep_of_unreadable? (h : LayoutDirectory t resources name top) {directory : String}
    (hunreadable : unreadable? t (join resources name) top = some directory) :
    IsTooDeep t resources directory := by
  obtain ⟨names, hmem, rfl, hlong⟩ := mem_of_unreadable? hunreadable
  obtain rfl | ⟨before, last, rfl⟩ := List.eq_nil_or_concat' names
  · exact absurd hlong (short_of_locate h.locate)
  · exact ⟨name, top, before, last, h, (mem_entriesUnder_iff ht h.isDirectory (by simp)).1 hmem,
      rfl, hlong⟩

/-- A walk fails if it meets a directory whose path is too long. -/
theorem layoutsBelow_eq_error_of_reaches (h : LayoutDirectory t resources name top)
    {names : List String} (hne : names ≠ []) (hreach : Reaches t top names .directory)
    (hlong : maxPath < (joinAll (join resources name) names).utf8ByteSize) :
    ∃ directory, layoutsBelow t (join resources name) = .error ⟨directory, .nameTooLong⟩ := by
  have hmem := (mem_entriesUnder_iff ht h.isDirectory hne).2 hreach
  obtain ⟨directory, hunreadable⟩ := Option.isSome_iff_exists.1 (isSome_unreadable? hmem hlong)
  rw [layoutsBelow_eq hl h, hunreadable]
  exact ⟨directory, rfl⟩

/-- A walk that fails has met such a directory. -/
theorem isTooDeep_of_layoutsBelow (h : LayoutDirectory t resources name top) {e : WalkError}
    (herror : layoutsBelow t (join resources name) = .error e) :
    ∃ path, IsTooDeep t resources path ∧ e = ⟨path, .nameTooLong⟩ := by
  rw [layoutsBelow_eq hl h] at herror
  cases hunreadable : unreadable? t (join resources name) top with
  | none =>
    rw [hunreadable] at herror
    cases herror
  | some directory =>
    rw [hunreadable] at herror
    cases herror
    exact ⟨directory, isTooDeep_of_unreadable? ht h hunreadable, rfl⟩

omit ht in
theorem eq_of_layoutsBelow (h : LayoutDirectory t resources name top) {paths : List String}
    (hpaths : layoutsBelow t (join resources name) = .ok paths) :
    paths = (layoutsUnder t top).map fun names => joinAll resources (name :: names) := by
  rw [layoutsBelow_eq hl h] at hpaths
  cases hunreadable : unreadable? t (join resources name) top with
  | none =>
    rw [hunreadable] at hpaths
    exact (Except.ok.inj hpaths).symm
  | some directory =>
    rw [hunreadable] at hpaths
    cases hpaths

/-- A walk gives paths that lead on from its directory. -/
theorem exists_of_layoutsBelow (h : LayoutDirectory t resources name top) {paths : List String}
    (hpaths : layoutsBelow t (join resources name) = .ok paths) {path : String}
    (hpath : path ∈ paths) :
    ∃ names, (∀ n ∈ names, IsName n) ∧ path = joinAll resources (name :: names) := by
  rw [eq_of_layoutsBelow hl h hpaths] at hpath
  obtain ⟨names, hmem, rfl⟩ := List.mem_map.1 hpath
  obtain ⟨_, _, _, _, -, hreach, -⟩ := (mem_layoutsUnder_iff ht h.isDirectory).1 hmem
  exact ⟨names, hreach.isName, rfl⟩

theorem sorted_of_layoutsBelow (h : LayoutDirectory t resources name top) {paths : List String}
    (hpaths : layoutsBelow t (join resources name) = .ok paths) : paths.Pairwise Before := by
  rw [eq_of_layoutsBelow hl h hpaths, List.pairwise_map]
  refine (sorted_layoutsUnder t top).imp_of_mem fun {a b} ha hb hab => ?_
  obtain ⟨_, _, _, _, -, hreach, -⟩ := (mem_layoutsUnder_iff ht h.isDirectory).1 ha
  obtain ⟨_, _, _, _, -, hreach', -⟩ := (mem_layoutsUnder_iff ht h.isDirectory).1 hb
  exact before_joinAll (List.forall_mem_cons.2 ⟨h.isName, hreach.isName⟩)
    (List.forall_mem_cons.2 ⟨h.isName, hreach'.isName⟩) (.cons hab) resources

theorem before_of_layoutsBelow (h : LayoutDirectory t resources name top) {name' : String}
    {top' : Location} (h' : LayoutDirectory t resources name' top') (hlt : name < name')
    {paths paths' : List String} (hpaths : layoutsBelow t (join resources name) = .ok paths)
    (hpaths' : layoutsBelow t (join resources name') = .ok paths') :
    ∀ path ∈ paths, ∀ path' ∈ paths', Before path path' := by
  intro path hpath path' hpath'
  obtain ⟨names, hnames, rfl⟩ := exists_of_layoutsBelow hl ht h hpaths hpath
  obtain ⟨names', hnames', rfl⟩ := exists_of_layoutsBelow hl ht h' hpaths' hpath'
  exact before_joinAll (List.forall_mem_cons.2 ⟨h.isName, hnames⟩)
    (List.forall_mem_cons.2 ⟨h'.isName, hnames'⟩) (.rel hlt) resources

end

/-! ## All layout files -/

/-- The paths are those of the layout files, each of them once and in order. -/
structure ListsLayouts (t : FileTree) (resources : String) (paths : List String) : Prop where
  mem_iff : ∀ path, path ∈ paths ↔ IsLayoutPath t resources path
  nodup : paths.Nodup
  sorted : paths.Pairwise Before

section

variable {t : FileTree} (ht : t.Proper) {resources : String} {names : List String}
  (hlist : t.list resources = .ok names)

include ht hlist

theorem not_isTooDeep_of_findLayouts {paths : List String}
    (hpaths : findLayouts t resources = .ok paths) (path : String) :
    ¬IsTooDeep t resources path := by
  rintro ⟨directory, top, before, name, h, hreach, rfl, hlong⟩
  obtain ⟨l, hl, hdir, -⟩ := list_eq_ok_iff.1 hlist
  rw [findLayouts_eq hl hdir] at hpaths
  obtain ⟨found, hfound, -⟩ := map_eq_ok_iff.1 hpaths
  obtain ⟨ps, hbelow⟩ := forall_mem_of_mapM hfound directory
    ((mem_layoutNames_iff hl ht).2 ⟨top, h⟩)
  obtain ⟨e, herror⟩ := layoutsBelow_eq_error_of_reaches hl ht h (by simp) hreach hlong
  rw [herror] at hbelow
  cases hbelow

theorem isTooDeep_of_findLayouts {e : DiscoveryError} (he : findLayouts t resources = .error e) :
    ∃ path, IsTooDeep t resources path ∧ e = .walk ⟨path, .nameTooLong⟩ := by
  obtain ⟨l, hl, hdir, -⟩ := list_eq_ok_iff.1 hlist
  rw [findLayouts_eq hl hdir] at he
  obtain ⟨before, name, after, hnames, -, herror⟩ := mapM_eq_error_iff.1 (map_eq_error_iff.1 he)
  obtain ⟨top, h⟩ := (mem_layoutNames_iff hl ht).1
    (hnames ▸ List.mem_append_right before List.mem_cons_self)
  obtain ⟨e, hbelow, rfl⟩ := mapError_eq_error_iff.1 herror
  obtain ⟨path, hpath, rfl⟩ := isTooDeep_of_layoutsBelow hl ht h hbelow
  exact ⟨path, hpath, rfl⟩

/-- The walks come in the order of their directories. -/
theorem sorted_of_findLayouts {paths : List String} (hpaths : findLayouts t resources = .ok paths) :
    paths.Pairwise Before := by
  obtain ⟨l, hl, hdir, -⟩ := list_eq_ok_iff.1 hlist
  rw [findLayouts_eq hl hdir] at hpaths
  obtain ⟨found, hfound, rfl⟩ := map_eq_ok_iff.1 hpaths
  refine List.pairwise_flatten.2 ⟨fun ps hps => ?_, ?_⟩
  · obtain ⟨name, hname, ps, hbelow, rfl⟩ :=
      (exists_mem_iff_of_mapM hfound (· = ps)).1 ⟨ps, hps, rfl⟩
    obtain ⟨top, h⟩ := (mem_layoutNames_iff hl ht).1 hname
    exact sorted_of_layoutsBelow hl ht h (mapError_eq_ok_iff.1 hbelow)
  · refine pairwise_of_mapM hfound (List.Pairwise.and_mem.1 (sorted_layoutNames t resources l)) ?_
    rintro name name' ps ps' hps hps' ⟨hname, hname', hlt⟩
    obtain ⟨top, h⟩ := (mem_layoutNames_iff hl ht).1 hname
    obtain ⟨top', h'⟩ := (mem_layoutNames_iff hl ht).1 hname'
    exact before_of_layoutsBelow hl ht h h' hlt (mapError_eq_ok_iff.1 hps)
      (mapError_eq_ok_iff.1 hps')

theorem mem_iff_of_findLayouts {paths : List String} (hpaths : findLayouts t resources = .ok paths)
    (path : String) : path ∈ paths ↔ IsLayoutPath t resources path := by
  obtain ⟨l, hl, hdir, -⟩ := list_eq_ok_iff.1 hlist
  rw [findLayouts_eq hl hdir] at hpaths
  obtain ⟨found, hfound, rfl⟩ := map_eq_ok_iff.1 hpaths
  rw [List.mem_flatten, exists_mem_iff_of_mapM hfound (path ∈ ·)]
  constructor
  · rintro ⟨name, hname, ps, hbelow, hpath⟩
    obtain ⟨top, h⟩ := (mem_layoutNames_iff hl ht).1 hname
    rw [eq_of_layoutsBelow hl h (mapError_eq_ok_iff.1 hbelow)] at hpath
    obtain ⟨names, hmem, rfl⟩ := List.mem_map.1 hpath
    obtain ⟨before, file, content, stem, rfl, hreach, hstem, hfile⟩ :=
      (mem_layoutsUnder_iff ht h.isDirectory).1 hmem
    exact ⟨name, top, before, file, content, stem, h, hreach, hstem, hfile, rfl⟩
  · rintro ⟨name, top, before, file, content, stem, h, hreach, hstem, hfile, rfl⟩
    have hname := (mem_layoutNames_iff hl ht).2 ⟨top, h⟩
    obtain ⟨ps, hbelow⟩ := forall_mem_of_mapM hfound name hname
    refine ⟨name, hname, ps, hbelow, ?_⟩
    rw [eq_of_layoutsBelow hl h (mapError_eq_ok_iff.1 hbelow)]
    exact List.mem_map_of_mem ((mem_layoutsUnder_iff ht h.isDirectory).2
      ⟨before, file, content, stem, rfl, hreach, hstem, hfile⟩)

/-- **Exactly the layout files are found, each of them once and in order.** Only a directory with a
path that is too long to read ends the search, with an error that names such a directory. -/
theorem findLayouts_lists :
    ((∃ path, IsTooDeep t resources path) → ∃ path, IsTooDeep t resources path ∧
        findLayouts t resources = .error (.walk ⟨path, .nameTooLong⟩)) ∧
      ((∀ path, ¬IsTooDeep t resources path) →
        ∃ paths, findLayouts t resources = .ok paths ∧ ListsLayouts t resources paths) := by
  cases hfound : findLayouts t resources with
  | ok paths =>
    have hnone := not_isTooDeep_of_findLayouts ht hlist hfound
    have hsorted := sorted_of_findLayouts ht hlist hfound
    refine ⟨fun ⟨path, hpath⟩ => absurd hpath (hnone path), fun _ => ⟨paths, rfl, ?_⟩⟩
    exact ⟨mem_iff_of_findLayouts ht hlist hfound, hsorted.imp Before.ne, hsorted⟩
  | error e =>
    obtain ⟨path, hpath, rfl⟩ := isTooDeep_of_findLayouts ht hlist hfound
    exact ⟨fun _ => ⟨path, hpath, rfl⟩, fun hnone => absurd hpath (hnone path)⟩

end

/-! A link to a layout directory is walked as well. A link that is met on the way is not. -/

namespace Linked

def tree : FileTree :=
  { entries := Dict.ofList [(["res"], .directory), (["res", "layout"], .directory),
      (["res", "layout", ".xml"], .file []), (["res", "layout", "a.xml"], .file []),
      (["res", "layout", "up"], .link ".."), (["res", "layout", "x"], .directory),
      (["res", "layout", "x", "b.xml"], .file []), (["res", "layout-land"], .link "layout"),
      (["res", "values"], .directory)] }

theorem proper_tree : tree.Proper := proper_of_names (by decide)

theorem locate_resources : tree.locate "res" = .ok ["res"] :=
  locate_of_leads (by decide) (by decide)

theorem list_resources : tree.list "res" = .ok ["layout", "layout-land", "values"] :=
  list_eq_ok_iff.2 ⟨["res"], locate_resources, by decide, by decide⟩

theorem locate_layout : tree.locate "res/layout" = .ok ["res", "layout"] :=
  locate_of_leads (by decide) (by decide)

theorem locate_land : tree.locate "res/layout-land" = .ok ["res", "layout"] := by
  have hpath : checkPath "res/layout-land" = .ok () ∧ startOf [] "res/layout-land" = [] ∧
      stepsOf "res/layout-land" = ["res", "layout-land"] := by decide
  have hnext : startOf ["res"] "layout" = ["res"] ∧ stepsOf "layout" = ["layout"] := by
    decide
  have hlayout : tree.Follows 39 (startOf ["res"] "layout") (stepsOf "layout" ++ [])
      ["res", "layout"] := by
    rw [hnext.1, hnext.2]
    exact follows_of_follow (follow_of_leads (by decide) 39)
  have hland : tree.entry? ["res", "layout-land"] = some (.link "layout") := by decide
  have hres : tree.entry? ["res"] = some .directory := by decide
  rw [locate, hpath.1, hpath.2.1, hpath.2.2]
  exact follow_of_follows (.down rfl (by decide) hres (fun _ => Entry.noConfusion)
    (.link (by decide) (by decide) hland hlayout))

theorem layoutDirectory_layout : LayoutDirectory tree "res" "layout" ["res", "layout"] :=
  ⟨by decide, by decide, locate_layout, by decide⟩

theorem layoutDirectory_land : LayoutDirectory tree "res" "layout-land" ["res", "layout"] :=
  ⟨by decide, by decide, locate_land, by decide⟩

theorem layoutNames_tree : layoutNames tree "res" ["res"] = ["layout", "layout-land"] := by
  have hchildren : tree.children ["res"] = ["layout", "layout-land", "values"] := by
    decide
  have hlayout := isDirectoryAt_iff.2
    ⟨_, layoutDirectory_layout.locate, layoutDirectory_layout.isDirectory⟩
  have hland := isDirectoryAt_iff.2
    ⟨_, layoutDirectory_land.locate, layoutDirectory_land.isDirectory⟩
  have hnames : isLayoutName "layout" = true ∧ isLayoutName "layout-land" = true ∧
      isLayoutName "values" = false := by decide
  simp [layoutNames, hchildren, hnames, hlayout, hland]

theorem findLayouts_tree : findLayouts tree "res" = .ok ["res/layout/a.xml",
    "res/layout/x/b.xml", "res/layout-land/a.xml", "res/layout-land/x/b.xml"] := by
  have hlayout : layoutsBelow tree (join "res" "layout") =
      .ok ["res/layout/a.xml", "res/layout/x/b.xml"] := by
    rw [layoutsBelow_eq locate_resources layoutDirectory_layout]
    decide
  have hland : layoutsBelow tree (join "res" "layout-land") =
      .ok ["res/layout-land/a.xml", "res/layout-land/x/b.xml"] := by
    rw [layoutsBelow_eq locate_resources layoutDirectory_land]
    decide
  rw [findLayouts_eq locate_resources (by decide), layoutNames_tree]
  exact map_eq_ok_iff.2 ⟨_, mapM_eq_ok_iff.2 (.cons (mapError_eq_ok_iff.2 hlayout)
    (.cons (mapError_eq_ok_iff.2 hland) .nil)), rfl⟩

end Linked

theorem findLayouts_lists_linked :
    Linked.tree.Proper ∧ Linked.tree.list "res" = .ok ["layout", "layout-land", "values"] ∧
      (∀ path, ¬IsTooDeep Linked.tree "res" path) ∧
      ListsLayouts Linked.tree "res" ["res/layout/a.xml", "res/layout/x/b.xml",
        "res/layout-land/a.xml", "res/layout-land/x/b.xml"] := by
  have hnone := not_isTooDeep_of_findLayouts Linked.proper_tree Linked.list_resources
    Linked.findLayouts_tree
  obtain ⟨paths, hpaths, hlists⟩ :=
    (findLayouts_lists Linked.proper_tree Linked.list_resources).2 hnone
  obtain rfl := Except.ok.inj (Linked.findLayouts_tree.symm.trans hpaths)
  exact ⟨Linked.proper_tree, Linked.list_resources, hnone, hlists⟩

/-! A path with many dots leads to layouts, but not to a directory that stands beside them. -/

namespace Deep

def tree : FileTree :=
  { entries := Dict.ofList [(["res"], .directory), (["res", "layout"], .directory),
      (["res", "layout", "a.xml"], .file (Text.encode "<A/>".toList)),
      (["res", "layout", "subdirectory"], .directory)] }

/-- The working directory after so many steps that stay in it. -/
def dots : Nat → String
  | 0 => ""
  | n + 1 => "." ++ "/" ++ dots n

theorem proper_tree : tree.Proper := proper_of_names (by decide)

theorem steps_dots (n : Nat) : steps (dots n) = List.replicate n "." := by
  induction n with
  | zero => exact steps_empty
  | succ n ih =>
    rw [dots, steps_append_slash, ih, IsName.steps_eq (by decide)]
    rfl

theorem utf8ByteSize_dots (n : Nat) : (dots n).utf8ByteSize = 2 * n := by
  induction n with
  | zero => rfl
  | succ n ih =>
    rw [dots, String.utf8ByteSize_append, ih, show ("." ++ "/").utf8ByteSize = 2 from rfl]
    omega

theorem not_mem_dots (n : Nat) : '\x00' ∉ (dots n).toList := by
  induction n with
  | zero => simp [dots]
  | succ n ih => simp [dots, ih]

theorem startOf_dots (n : Nat) : startOf [] (dots n) = [] := by
  rw [startOf]
  cases n with
  | zero => rfl
  | succ n => simp [dots, isAbsolute]

/-- The directory `res` by way of the dots. -/
def resources (n : Nat) : String := join (dots n) "res"

theorem isName_res : IsName "res" := by decide

theorem isName_layout : IsName "layout" := by decide

theorem locate_of_stepsOf {path : String} {n : Nat} {names : List String}
    (hcheck : checkPath path = .ok ()) (hstart : startOf [] path = startOf [] (dots n))
    (hsteps : stepsOf path = List.replicate n "." ++ names) (h : tree.leads [] names = true) :
    tree.locate path = .ok names := by
  rw [locate, hcheck, hstart, hsteps, startOf_dots]
  exact (follow_replicate_dot rfl maxLinks names n).trans (follow_of_leads h maxLinks)

theorem utf8ByteSize_resources (n : Nat) :
    2 * n + 3 ≤ (resources n).utf8ByteSize ∧ (resources n).utf8ByteSize ≤ 2 * n + 4 := by
  have hsize := utf8ByteSize_join isName_res (dots n)
  rwa [utf8ByteSize_dots] at hsize

theorem locate_resources {n : Nat} (hn : n ≤ 2039) : tree.locate (resources n) = .ok ["res"] := by
  have hsteps : stepsOf (resources n) = List.replicate n "." ++ ["res"] := by
    rw [resources, stepsOf_join isName_res, steps_dots]
  refine locate_of_stepsOf (checkPath_join isName_res _ ⟨not_mem_dots n, by decide⟩ ?_)
    (startOf_join isName_res ..) hsteps (by decide)
  rw [utf8ByteSize_dots, maxPath, show "res".utf8ByteSize = 3 from rfl]
  omega

theorem locate_layout {n : Nat} (hn : n ≤ 2039) :
    tree.locate (join (resources n) "layout") = .ok ["res", "layout"] := by
  have hnul : '\x00' ∉ (resources n).toList :=
    not_mem_join isName_res _ (by decide) (not_mem_dots n) (by decide)
  have hsteps : stepsOf (join (resources n) "layout") =
      List.replicate n "." ++ ["res", "layout"] := by
    rw [stepsOf_join isName_layout, resources, steps_join isName_res, steps_dots, List.append_assoc]
    rfl
  have hsize := utf8ByteSize_resources n
  refine locate_of_stepsOf (checkPath_join isName_layout _ ⟨hnul, by decide⟩ ?_)
    ((startOf_join isName_layout ..).trans (startOf_join isName_res ..)) hsteps (by decide)
  rw [maxPath, show "layout".utf8ByteSize = 6 from rfl]
  omega

theorem list_resources {n : Nat} (hn : n ≤ 2039) : tree.list (resources n) = .ok ["layout"] :=
  list_eq_ok_iff.2 ⟨["res"], locate_resources hn, by decide, by decide⟩

theorem layoutDirectory {n : Nat} (hn : n ≤ 2039) :
    LayoutDirectory tree (resources n) "layout" ["res", "layout"] :=
  ⟨isName_layout, by decide, locate_layout hn, by decide⟩

theorem isName_subdirectory : IsName "subdirectory" := by decide

theorem reaches_subdirectory :
    Reaches tree ["res", "layout"] ["subdirectory"] .directory := by
  refine ⟨List.forall_mem_singleton.2 isName_subdirectory, fun before name hbefore => ?_,
    by decide⟩
  obtain rfl : before = [] := by simpa using hbefore.length_le
  decide

theorem isTooDeep {n : Nat} (hn : n = 2039) :
    IsTooDeep tree (resources n) (joinAll (resources n) ["layout", "subdirectory"]) := by
  refine ⟨"layout", ["res", "layout"], [], "subdirectory", layoutDirectory (by omega),
    reaches_subdirectory, rfl, ?_⟩
  have hsize := utf8ByteSize_resources n
  have hsize' := utf8ByteSize_join isName_layout (resources n)
  have hsize'' := utf8ByteSize_join isName_subdirectory (join (resources n) "layout")
  rw [show "layout".utf8ByteSize = 6 from rfl] at hsize'
  rw [show "subdirectory".utf8ByteSize = 12 from rfl] at hsize''
  rw [joinAll, List.foldl_cons, List.foldl_cons, List.foldl_nil, maxPath]
  omega

end Deep

/-- Not every resource directory that can be listed has its layout files found. -/
theorem not_forall_findLayouts_lists :
    ¬∀ (t : FileTree) (resources : String) (names : List String), t.Proper →
      t.list resources = .ok names →
        ∃ paths, findLayouts t resources = .ok paths ∧ ListsLayouts t resources paths := by
  intro h
  have hlist := Deep.list_resources (le_refl 2039)
  obtain ⟨paths, hpaths, -⟩ := h _ _ _ Deep.proper_tree hlist
  exact not_isTooDeep_of_findLayouts Deep.proper_tree hlist hpaths _ (Deep.isTooDeep rfl)

end LayoutShell.Layout
