import LayoutShell.Proofs.Files.Paths
import LayoutShell.Proofs.Files.Writing

/-!
# Directories and what stands in them

* `Proper` says that the entries of a tree stand under names below the working directory or the
  system root. Files that are written and entries that are installed keep it
  (`Proper.write`, `Proper.install`), so trees that are built up are proper.
* `mem_children_iff` and `sorted_children` say what a directory lists.
* `locateEntry_join` compares the path of a directory with the path of an entry in it.
-/

namespace LayoutShell.Files.FileTree

open Files.Path

/-! ## Proper trees -/

/-- Names that lead on from the working directory or the system root. -/
def IsLocation (l : Location) : Prop :=
  ∃ top names, (top = [] ∨ top = systemRoot) ∧ (∀ name ∈ names, IsName name) ∧ l = top ++ names

/-- Every entry stands at a location under a name. -/
def Proper (t : FileTree) : Prop :=
  ∀ entry ∈ t.entries.entries, ∃ l name, IsLocation l ∧ IsName name ∧ entry.1 = l ++ [name]

theorem isLocation_nil : IsLocation [] := ⟨[], [], .inl rfl, by simp, rfl⟩

theorem isLocation_systemRoot : IsLocation systemRoot := ⟨systemRoot, [], .inr rfl, by simp, rfl⟩

theorem IsLocation.child {l : Location} (h : IsLocation l) {name : String} (hname : IsName name) :
    IsLocation (l ++ [name]) := by
  obtain ⟨top, names, htop, hnames, rfl⟩ := h
  refine ⟨top, names ++ [name], htop, ?_, List.append_assoc ..⟩
  simpa [or_imp, forall_and] using ⟨hnames, hname⟩

theorem IsLocation.parentOf {l : Location} (h : IsLocation l) : IsLocation (parentOf l) := by
  rw [FileTree.parentOf]
  split
  · exact isLocation_systemRoot
  next hl =>
    obtain ⟨top, names, htop, hnames, rfl⟩ := h
    rcases List.eq_nil_or_concat' names with rfl | ⟨names, name, rfl⟩
    · rw [List.append_nil] at hl
      exact absurd htop hl
    · refine ⟨top, names, htop, fun n hn => hnames n (List.mem_append_left _ hn), ?_⟩
      rw [← List.append_assoc, List.dropLast_concat]

theorem IsLocation.startOf {l : Location} (h : IsLocation l) (path : String) :
    IsLocation (startOf l path) := by
  rw [FileTree.startOf]
  split
  · exact isLocation_systemRoot
  · exact h

/-- What follows a location within another one consists of names, unless it begins at the root. -/
theorem IsLocation.isName_of_append {l : Location} {names : List String}
    (h : IsLocation (l ++ names)) :
    (∀ name ∈ names, IsName name) ∨ ∃ rest, l = [] ∧ names = systemRoot ++ rest := by
  obtain ⟨top, below, htop, hbelow, heq⟩ := h
  rcases htop with rfl | rfl
  · rw [List.nil_append] at heq
    exact .inl fun name hname => hbelow name (by rw [← heq]; exact List.mem_append_right _ hname)
  cases l with
  | nil => exact .inr ⟨below, rfl, heq⟩
  | cons root l =>
    have htail : l ++ names = below := List.tail_eq_of_cons_eq heq
    exact .inl fun name hname => hbelow name (by rw [← htail]; exact List.mem_append_right _ hname)

theorem isName_of_mem_stepsOf {path name : String} (h : name ∈ stepsOf path) : IsName name := by
  rw [stepsOf] at h
  split at h
  · rcases List.mem_append.1 h with h | h
    · exact isName_of_mem_steps h
    · obtain rfl := List.mem_singleton.1 h
      decide
  · exact isName_of_mem_steps h

/-- Names lead from a location to a location. -/
theorem Follows.isLocation {t : FileTree} {links : Nat} {here l : Location} {steps : List String}
    (h : t.Follows links here steps l) (hhere : IsLocation here)
    (hsteps : ∀ name ∈ steps, IsName name) : IsLocation l := by
  induction h with
  | done => exact hhere
  | stay _ _ ih => exact ih hhere (List.forall_mem_cons.1 hsteps).2
  | up _ _ ih => exact ih hhere.parentOf (List.forall_mem_cons.1 hsteps).2
  | link _ _ _ _ ih =>
    refine ih (hhere.startOf _) fun name hname => ?_
    rcases List.mem_append.1 hname with hname | hname
    · exact isName_of_mem_stepsOf hname
    · exact (List.forall_mem_cons.1 hsteps).2 name hname
  | down _ _ _ _ _ ih =>
    rw [List.forall_mem_cons] at hsteps
    exact ih (hhere.child hsteps.1) hsteps.2

theorem Creates.exists_child {t : FileTree} {links : Nat} {here l : Location} {slash : Bool}
    {steps : List String} (h : t.Creates links here slash steps l) (hhere : IsLocation here)
    (hsteps : ∀ name ∈ steps, IsName name) :
    ∃ parent name, IsLocation parent ∧ IsName name ∧ Ordinary name ∧ l = parent ++ [name] := by
  induction h with
  | stay _ _ _ ih => exact ih hhere (List.forall_mem_cons.1 hsteps).2
  | up _ _ _ ih => exact ih hhere.parentOf (List.forall_mem_cons.1 hsteps).2
  | link _ _ _ _ _ ih =>
    refine ih (hhere.startOf _) fun name hname => ?_
    rcases List.mem_append.1 hname with hname | hname
    · exact isName_of_mem_steps hname
    · exact (List.forall_mem_cons.1 hsteps).2 name hname
  | down _ _ _ _ _ _ ih =>
    rw [List.forall_mem_cons] at hsteps
    exact ih (hhere.child hsteps.1) hsteps.2
  | @new _ here name _ ordinary =>
    exact ⟨here, name, hhere, hsteps name List.mem_cons_self, ordinary, rfl⟩

theorem proper_empty : empty.Proper := fun _ h => absurd h List.not_mem_nil

/-- A tree whose locations consist of names has no entry outside the working directory. -/
theorem proper_of_names {t : FileTree}
    (h : ∀ entry ∈ t.entries.entries, entry.1 ≠ [] ∧ ∀ name ∈ entry.1, IsName name) :
    t.Proper := by
  rintro ⟨l, e⟩ hentry
  obtain ⟨hne, hnames⟩ := h _ hentry
  obtain rfl | ⟨parent, name, rfl⟩ := List.eq_nil_or_concat' l
  · exact absurd rfl hne
  · refine ⟨parent, name, ⟨[], parent, .inl rfl, fun n hn => ?_, rfl⟩, hnames name (by simp), rfl⟩
    exact hnames n (List.mem_append_left _ hn)

namespace Proper

variable {t : FileTree} (ht : t.Proper)

include ht

theorem put {l : Location} {name : String} (hl : IsLocation l) (hname : IsName name) (e : Entry) :
    (t.put (l ++ [name]) e).Proper := by
  intro entry hentry
  rcases Dict.mem_insertEntry hentry with rfl | hentry
  · exact ⟨l, name, hl, hname, rfl⟩
  · exact ht entry hentry

theorem write {t' : FileTree} {path : String} {content : List UInt8}
    (h : t.write path content = .ok t') : t'.Proper := by
  obtain ⟨l, hl, h⟩ := bind_eq_ok_iff.1 h
  cases h
  obtain ⟨⟨⟩, -, htarget⟩ := bind_eq_ok_iff.1 hl
  obtain ⟨parent, name, hparent, hname, -, rfl⟩ := (creates_of_target htarget).exists_child
    (isLocation_nil.startOf path) fun _ => isName_of_mem_steps
  exact ht.put hparent hname _

theorem makeDirectories {steps : List String} (hsteps : ∀ name ∈ steps, IsName name)
    {here l : Location} {t' : FileTree} (hhere : IsLocation here)
    (h : t.makeDirectories here steps = .ok (t', l)) : t'.Proper ∧ IsLocation l := by
  induction steps generalizing t here with
  | nil =>
    cases h
    exact ⟨ht, hhere⟩
  | cons name rest ih =>
    rw [List.forall_mem_cons] at hsteps
    rw [FileTree.makeDirectories] at h
    split at h
    next next hfollow =>
      split at h
      · refine ih ht hsteps.2 ((follows_of_follow hfollow).isLocation hhere ?_) h
        simpa using hsteps.1
      · cases h
    · exact ih (ht.put hhere hsteps.1 _) hsteps.2 (hhere.child hsteps.1) h
    · cases h

/-- An entry that is installed under a name keeps a tree proper. -/
theorem install {t' : FileTree} {path : String} (hpath : steps path ≠ []) {e : Entry}
    (h : t.install path e = .ok t') : t'.Proper := by
  have hnames : ∀ name ∈ steps path, IsName name := fun _ => isName_of_mem_steps
  have habove : ∀ name ∈ (steps path).dropLast, IsName name :=
    fun name hname => hnames name (List.dropLast_subset _ hname)
  have hstart := isLocation_nil.startOf path
  cases e with
  | directory =>
    obtain ⟨⟨t'', l⟩, hmake, h⟩ := bind_eq_ok_iff.1 h
    cases h
    exact (ht.makeDirectories hnames hstart hmake).1
  | link next =>
    obtain ⟨⟨t'', l⟩, hmake, h⟩ := bind_eq_ok_iff.1 h
    cases h
    obtain ⟨ht'', hl⟩ := ht.makeDirectories habove hstart hmake
    refine ht''.put hl (hnames _ ?_) _
    rw [fileName, List.getLastD_eq_getLast?, List.getLast?_eq_some_getLast hpath]
    exact List.getLast_mem hpath
  | file content =>
    obtain ⟨⟨t'', l⟩, hmake, h⟩ := bind_eq_ok_iff.1 h
    exact (ht.makeDirectories habove hstart hmake).1.write h

theorem foldlM_install {entries : List (String × Entry)}
    (hpaths : ∀ entry ∈ entries, steps entry.1 ≠ []) {t' : FileTree}
    (h : entries.foldlM (fun t entry => t.install entry.1 entry.2) t = .ok t') : t'.Proper := by
  induction entries generalizing t with
  | nil =>
    cases h
    exact ht
  | cons entry entries ih =>
    rw [List.forall_mem_cons] at hpaths
    obtain ⟨t₁, hinstall, h⟩ := bind_eq_ok_iff.1 h
    exact ih (ht.install hpaths.1 hinstall) hpaths.2 h

end Proper

/-- **A tree that is built up by installing entries is proper.** -/
theorem proper_of_foldlM_install {entries : List (String × Entry)}
    (hpaths : ∀ entry ∈ entries, steps entry.1 ≠ []) {t : FileTree}
    (h : entries.foldlM (fun t entry => t.install entry.1 entry.2) empty = .ok t) : t.Proper :=
  proper_empty.foldlM_install hpaths h

theorem Proper.isLocation {t : FileTree} (ht : t.Proper) {l : Location} {e : Entry}
    (h : t.entries.get? l = some e) : IsLocation l := by
  obtain ⟨parent, name, hparent, hname, hl⟩ := ht _ (Dict.get?_eq_some_iff.1 h)
  cases hl
  exact hparent.child hname

theorem Proper.get?_systemRoot {t : FileTree} (ht : t.Proper) :
    t.entries.get? systemRoot = none := by
  refine Option.eq_none_iff_forall_ne_some.2 fun e h => ?_
  obtain ⟨parent, name, -, hname, hl⟩ := ht _ (Dict.get?_eq_some_iff.1 h)
  have hlast : some "/" = some name := by
    simpa [systemRoot] using congrArg List.getLast? hl
  cases hlast
  exact hname.noSlash (by decide)

/-! ## Listing a directory -/

theorem entry?_child {t : FileTree} (l : Location) {name : String} (hname : IsName name) :
    t.entry? (l ++ [name]) = t.entries.get? (l ++ [name]) := by
  refine if_neg ?_
  rintro (h | h)
  · simp at h
  · have hlast := congrArg List.getLast? h
    rw [List.getLast?_concat] at hlast
    cases hlast
    exact hname.noSlash (by decide)

theorem childName?_eq_some_iff {parent l : Location} {name : String} :
    childName? parent l = some name ↔ l = parent ++ [name] := by
  rw [childName?]
  constructor
  · intro h
    split at h
    next hparent =>
      obtain ⟨init, rfl⟩ := List.getLast?_eq_some_iff.1 h
      rw [List.dropLast_concat] at hparent
      rw [hparent]
    next => cases h
  · rintro rfl
    rw [List.dropLast_concat, if_pos rfl, List.getLast?_concat]

theorem mem_children_iff {t : FileTree} {l : Location} {name : String} :
    name ∈ t.children l ↔ ∃ e, t.entries.get? (l ++ [name]) = some e := by
  simp only [children, Dict.keys, List.mem_filterMap, List.mem_map, childName?_eq_some_iff,
    Dict.get?_eq_some_iff]
  constructor
  · rintro ⟨_, ⟨⟨_, e⟩, hmem, rfl⟩, rfl⟩
    exact ⟨e, hmem⟩
  · rintro ⟨e, hmem⟩
    exact ⟨_, ⟨_, hmem, rfl⟩, rfl⟩

theorem lex_of_append {before a b : List String}
    (h : List.Lex (· < ·) (before ++ a) (before ++ b)) : List.Lex (· < ·) a b := by
  induction before with
  | nil => exact h
  | cons name before ih =>
    cases h with
    | rel h => exact absurd h (String.lt_irrefl name)
    | cons h => exact ih h

theorem sorted_children (t : FileTree) (l : Location) : (t.children l).Pairwise (· < ·) := by
  rw [children, Dict.keys, List.pairwise_filterMap, List.pairwise_map]
  refine t.entries.sorted.imp fun {a b} hab name hname name' hname' => ?_
  rw [childName?_eq_some_iff] at hname hname'
  have hlex : List.Lex (· < ·) a.1 b.1 := hab
  rw [hname, hname'] at hlex
  cases lex_of_append hlex with
  | rel h => exact h
  | cons h => cases h

/-! ## Paths of entries in a directory -/

theorem list_eq_ok_iff {t : FileTree} {path : String} {names : List String} :
    t.list path = .ok names ↔
      ∃ l, t.locate path = .ok l ∧ t.isDirectory l = true ∧ names = t.children l := by
  rw [list, bind_eq_ok_iff]
  refine exists_congr fun l => and_congr_right fun _ => ?_
  by_cases hdir : t.isDirectory l = true
  · simp [hdir, eq_comm]
  · simp [hdir]

theorem isDirectoryAt_iff {t : FileTree} {path : String} :
    t.isDirectoryAt path = true ↔ ∃ l, t.locate path = .ok l ∧ t.isDirectory l = true := by
  rw [isDirectoryAt, entryAt]
  cases t.locate path with
  | error => simp [bind, Except.bind]
  | ok l =>
    simp only [bind, Except.bind, isDirectory]
    cases hentry : t.entry? l with
    | none => simp [hentry]
    | some e => cases e <;> simp [hentry]

theorem checkPath_of_locate {t : FileTree} {path : String} {l : Location}
    (h : t.locate path = .ok l) : checkPath path = .ok () := by
  obtain ⟨⟨⟩, hcheck, -⟩ := bind_eq_ok_iff.1 h
  exact hcheck

theorem short_of_locate {t : FileTree} {path : String} {l : Location}
    (h : t.locate path = .ok l) : ¬maxPath < path.utf8ByteSize := by
  intro hlong
  have hcheck := checkPath_of_locate h
  rw [checkPath, if_pos hlong] at hcheck
  split at hcheck
  · cases hcheck
  · split at hcheck <;> cases hcheck

theorem follows_of_locate {t : FileTree} {path : String} {l : Location}
    (h : t.locate path = .ok l) : t.Follows maxLinks (startOf [] path) (stepsOf path) l := by
  obtain ⟨⟨⟩, -, hfollow⟩ := bind_eq_ok_iff.1 h
  exact follows_of_follow hfollow

/-- A slash at the end of a path makes no difference to where it leads. -/
theorem follows_steps_of_locate {t : FileTree} {path : String} {l : Location}
    (h : t.locate path = .ok l) : t.Follows maxLinks (startOf [] path) (steps path) l := by
  have hfollows := follows_of_locate h
  rw [stepsOf] at hfollows
  split at hfollows
  · obtain ⟨mid, links, hsteps, hdot⟩ := hfollows.exists_of_append
    rw [hdot.eq_of_dot]
    exact hsteps
  · exact hfollows

section

variable {name : String} (hname : IsName name) (path : String)

include hname

theorem stepsOf_join : stepsOf (join path name) = steps path ++ [name] := by
  rw [stepsOf, endsInSlash_join hname, steps_join hname]
  rfl

theorem checkPath_join (hnul : '\x00' ∉ path.toList ∧ '\x00' ∉ name.toList)
    (hshort : path.utf8ByteSize + name.utf8ByteSize + 1 ≤ maxPath) :
    checkPath (join path name) = .ok () := by
  have hne : (join path name).isEmpty = false := by
    obtain ⟨slash, -, hjoin⟩ := exists_join_eq hname path
    rw [hjoin]
    simp [hname.ne_empty]
  have hsize := (utf8ByteSize_join hname path).2
  rw [checkPath, if_neg (not_mem_join hname path (by decide) hnul.1 hnul.2), if_neg (by simp [hne]),
    if_neg (by omega)]

theorem startOf_join (here : Location) : startOf here (join path name) = startOf here path := by
  rw [startOf, startOf, isAbsolute_join hname]

end

/-- **What a path designates in a directory stands there under its last name.** It is this entry
itself, unless that is a link. -/
theorem locateEntry_join {t : FileTree} {path name : String} {l top : Location}
    (hl : t.locate path = .ok l) (hname : IsName name) (hdots : name ≠ "." ∧ name ≠ "..")
    (htop : t.locate (join path name) = .ok top) :
    t.locateEntry (join path name) = .ok (l ++ [name]) ∧
      ∃ e, t.entry? (l ++ [name]) = some e ∧ ((∀ next, e ≠ .link next) → top = l ++ [name]) := by
  have hfollows := follows_of_locate htop
  rw [stepsOf_join hname, startOf_join hname] at hfollows
  obtain ⟨mid, links, hmid, hlast⟩ := hfollows.exists_of_append
  obtain rfl : mid = l := Except.ok.inj
    ((follow_of_follows hmid).symm.trans (follow_of_follows (follows_steps_of_locate hl)))
  obtain ⟨dir, ordinary, e, hentry, hnoLink⟩ := hlast.of_singleton hdots
  refine ⟨?_, e, hentry, hnoLink⟩
  rw [locateEntry, checkPath_of_locate htop, stepsOf_join hname, startOf_join hname]
  simp [bind, Except.bind, follow_of_follows hmid, ordinary.ne_dot, ordinary.ne_dots, dir,
    ordinary.short, hentry]

end LayoutShell.Files.FileTree
