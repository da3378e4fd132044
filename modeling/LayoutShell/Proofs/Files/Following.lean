import LayoutShell.Files.Access

/-!
# Following paths

* `follow_dot`, `follow_dots`, `follow_link` and `follow_entry` are the steps of a path that can be
  followed.
* `Follows` lists the steps of such a path, and `follows_of_follow` says that there are no others.
* `Follows.exists_of_append` cuts a path in two, and `Follows.of_singleton` says what its last name
  found.
* `leads` checks names that lead through directories without a link, and `follow_of_leads` says
  where they lead. `locate_eq_follow` and `locate_of_leads` say this of whole paths.
-/

namespace LayoutShell.Files.FileTree

/-- A name that is looked up in a directory. -/
structure Ordinary (name : String) : Prop where
  ne_dot : name ≠ "."
  ne_dots : name ≠ ".."
  short : ¬maxName < name.utf8ByteSize

instance (name : String) : Decidable (Ordinary name) :=
  decidable_of_iff (name ≠ "." ∧ name ≠ ".." ∧ ¬maxName < name.utf8ByteSize)
    ⟨fun h => ⟨h.1, h.2.1, h.2.2⟩, fun h => ⟨h.ne_dot, h.ne_dots, h.short⟩⟩

/-! ## Steps -/

section

variable {t : FileTree} {here : Location} (dir : t.isDirectory here = true) (links : Nat)
  (rest : List String)

include dir

theorem follow_dot : t.follow links here ("." :: rest) = t.follow links here rest := by
  rw [follow]
  simp [dir]

theorem follow_replicate_dot (n : Nat) :
    t.follow links here (List.replicate n "." ++ rest) = t.follow links here rest := by
  induction n with
  | zero => rfl
  | succ n ih => rw [List.replicate_succ, List.cons_append, follow_dot dir, ih]

theorem follow_dots : t.follow links here (".." :: rest) = t.follow links (parentOf here) rest := by
  rw [follow]
  simp [dir]

variable {name : String} (ordinary : Ordinary name)

include ordinary

theorem follow_link {next : String} (entry : t.entry? (here ++ [name]) = some (.link next)) :
    t.follow (links + 1) here (name :: rest) =
      t.follow links (startOf here next) (stepsOf next ++ rest) := by
  rw [follow]
  simp [dir, ordinary.ne_dot, ordinary.ne_dots, ordinary.short, entry]

theorem follow_entry {e : Entry} (entry : t.entry? (here ++ [name]) = some e)
    (noLink : ∀ next, e ≠ .link next) :
    t.follow links here (name :: rest) = t.follow links (here ++ [name]) rest := by
  rw [follow]
  cases e with
  | link next => exact absurd rfl (noLink next)
  | file content => simp [dir, ordinary.ne_dot, ordinary.ne_dots, ordinary.short, entry]
  | directory => simp [dir, ordinary.ne_dot, ordinary.ne_dots, ordinary.short, entry]

end

/-! ## Paths that can be followed -/

/-- The steps lead from `here` to the last location, following at most so many links. -/
inductive Follows (t : FileTree) : Nat → Location → List String → Location → Prop
  | done {links : Nat} {here : Location} : Follows t links here [] here
  | stay {links : Nat} {here l : Location} {rest : List String} (dir : t.isDirectory here = true)
      (tail : Follows t links here rest l) : Follows t links here ("." :: rest) l
  | up {links : Nat} {here l : Location} {rest : List String} (dir : t.isDirectory here = true)
      (tail : Follows t links (parentOf here) rest l) : Follows t links here (".." :: rest) l
  | link {links : Nat} {here l : Location} {name next : String} {rest : List String}
      (dir : t.isDirectory here = true) (ordinary : Ordinary name)
      (entry : t.entry? (here ++ [name]) = some (.link next))
      (tail : Follows t links (startOf here next) (stepsOf next ++ rest) l) :
      Follows t (links + 1) here (name :: rest) l
  | down {links : Nat} {here l : Location} {name : String} {rest : List String} {e : Entry}
      (dir : t.isDirectory here = true) (ordinary : Ordinary name)
      (entry : t.entry? (here ++ [name]) = some e) (noLink : ∀ next, e ≠ .link next)
      (tail : Follows t links (here ++ [name]) rest l) : Follows t links here (name :: rest) l

theorem follows_of_follow {t : FileTree} {links : Nat} {here l : Location} {steps : List String}
    (h : t.follow links here steps = .ok l) : t.Follows links here steps l := by
  fun_induction follow t links here steps with
  | case1 links here =>
    cases h
    exact .done
  | case3 links here rest hdir ih => exact .stay (by simpa using hdir) (ih h)
  | case4 links here rest hdir _ ih => exact .up (by simpa using hdir) (ih h)
  | case8 here name rest hdir h₁ h₂ h₃ next hentry links ih =>
    exact .link (by simpa using hdir) ⟨h₁, h₂, h₃⟩ hentry (ih h)
  | case9 links here name rest hdir h₁ h₂ h₃ e hlink hentry ih =>
    exact .down (by simpa using hdir) ⟨h₁, h₂, h₃⟩ hentry hlink (ih h)
  | _ => cases h

theorem follow_of_follows {t : FileTree} {links : Nat} {here l : Location} {steps : List String}
    (h : t.Follows links here steps l) : t.follow links here steps = .ok l := by
  induction h with
  | done => rw [follow]
  | stay dir _ ih => rw [follow_dot dir, ih]
  | up dir _ ih => rw [follow_dots dir, ih]
  | link dir ordinary entry _ ih => rw [follow_link dir _ _ ordinary entry, ih]
  | down dir ordinary entry noLink _ ih => rw [follow_entry dir _ _ ordinary entry noLink, ih]

namespace Follows

variable {t : FileTree} {links : Nat} {here l : Location}

/-- A path that can be followed can be followed up to any of its names. -/
theorem exists_of_append {before after : List String}
    (h : t.Follows links here (before ++ after) l) :
    ∃ mid links', t.Follows links here before mid ∧ t.Follows links' mid after l := by
  generalize hsteps : before ++ after = steps at h
  induction h generalizing before with
  | @done links here =>
    obtain ⟨rfl, rfl⟩ := List.append_eq_nil_iff.1 hsteps
    exact ⟨here, links, .done, .done⟩
  | @stay links here l rest dir tail ih =>
    cases before with
    | nil =>
      cases hsteps
      exact ⟨here, links, .done, .stay dir tail⟩
    | cons name before =>
      cases hsteps
      obtain ⟨mid, links', hbefore, hafter⟩ := ih rfl
      exact ⟨mid, links', .stay dir hbefore, hafter⟩
  | @up links here l rest dir tail ih =>
    cases before with
    | nil =>
      cases hsteps
      exact ⟨here, links, .done, .up dir tail⟩
    | cons name before =>
      cases hsteps
      obtain ⟨mid, links', hbefore, hafter⟩ := ih rfl
      exact ⟨mid, links', .up dir hbefore, hafter⟩
  | @link links here l name next rest dir ordinary entry tail ih =>
    cases before with
    | nil =>
      cases hsteps
      exact ⟨here, links + 1, .done, .link dir ordinary entry tail⟩
    | cons name before =>
      cases hsteps
      obtain ⟨mid, links', hbefore, hafter⟩ := ih (List.append_assoc ..)
      exact ⟨mid, links', .link dir ordinary entry hbefore, hafter⟩
  | @down links here l name rest e dir ordinary entry noLink tail ih =>
    cases before with
    | nil =>
      cases hsteps
      exact ⟨here, links, .done, .down dir ordinary entry noLink tail⟩
    | cons name before =>
      cases hsteps
      obtain ⟨mid, links', hbefore, hafter⟩ := ih rfl
      exact ⟨mid, links', .down dir ordinary entry noLink hbefore, hafter⟩

theorem eq_of_dot (h : t.Follows links here ["."] l) : l = here := by
  generalize hname : "." = name at h
  cases h with
  | stay _ tail =>
    cases tail
    rfl
  | up => exact absurd hname (by decide)
  | link _ ordinary => exact absurd hname.symm ordinary.ne_dot
  | down _ ordinary => exact absurd hname.symm ordinary.ne_dot

/-- A name was found in a directory, and what it designates is what stands there, unless that is a
link. -/
theorem of_singleton {name : String} (hname : name ≠ "." ∧ name ≠ "..")
    (h : t.Follows links here [name] l) :
    t.isDirectory here = true ∧ Ordinary name ∧ ∃ e, t.entry? (here ++ [name]) = some e ∧
      ((∀ next, e ≠ .link next) → l = here ++ [name]) := by
  cases h with
  | stay => exact absurd rfl hname.1
  | up => exact absurd rfl hname.2
  | link dir ordinary entry => exact ⟨dir, ordinary, _, entry, fun h => absurd rfl (h _)⟩
  | down dir ordinary entry _ tail =>
    cases tail
    exact ⟨dir, ordinary, _, entry, fun _ => rfl⟩

end Follows

/-! ## Names without links -/

/-- Something other than a link stands at a location. -/
def standsAt (t : FileTree) (l : Location) : Bool :=
  match t.entry? l with
  | none | some (.link _) => false
  | some _ => true

theorem entry?_of_standsAt {t : FileTree} {l : Location} (h : t.standsAt l = true) :
    ∃ e, t.entry? l = some e ∧ ∀ next, e ≠ .link next := by
  unfold standsAt at h
  split at h
  · cases h
  · cases h
  next e hno hentry => exact ⟨e, hentry, hno⟩

/-- The names lead from `here` through directories, and none of them is a link. -/
def leads (t : FileTree) (here : Location) : List String → Bool
  | [] => true
  | name :: rest =>
    t.isDirectory here && Ordinary name && t.standsAt (here ++ [name]) &&
      leads t (here ++ [name]) rest

theorem follow_of_leads {t : FileTree} {here : Location} {names : List String}
    (h : t.leads here names = true) (links : Nat) :
    t.follow links here names = .ok (here ++ names) := by
  induction names generalizing here with
  | nil => rw [follow, List.append_nil]
  | cons name rest ih =>
    simp only [leads, Bool.and_eq_true, decide_eq_true_eq] at h
    obtain ⟨⟨⟨dir, ordinary⟩, hstands⟩, hrest⟩ := h
    obtain ⟨e, hentry, noLink⟩ := entry?_of_standsAt hstands
    rw [follow_entry dir links rest ordinary hentry noLink, ih hrest, List.append_assoc]
    rfl

/-- A relative path is followed from the working directory. -/
theorem locate_eq_follow {t : FileTree} {path : String} {steps : List String}
    (h : checkPath path = .ok () ∧ stepsOf path = steps ∧ startOf [] path = []) :
    t.locate path = t.follow maxLinks [] steps := by
  rw [locate, h.1, h.2.1, h.2.2]
  rfl

theorem locate_of_leads {t : FileTree} {path : String} (hcheck : checkPath path = .ok ())
    (h : t.leads (startOf [] path) (stepsOf path) = true) :
    t.locate path = .ok (startOf [] path ++ stepsOf path) := by
  rw [locate, hcheck]
  exact follow_of_leads h maxLinks

end LayoutShell.Files.FileTree
