import LayoutShell.Proofs.Files.Following
import LayoutShell.Proofs.Results

/-!
# Written files are read back

A file is created where its path leads, links included. Afterwards the same path leads there.

* `Creates` lists the steps on which a path creates a file, and `creates_of_target` says that there
  are no others.
* `entry?_put` says what changes when a file is put at a free location.
* `Creates.follow` compares the two ways of following a path: the one that creates a file and the
  one that finds it.
* `read_of_write`: what was written to a path is read from it.
* `agreeExcept_of_write`: nothing else changes.
-/

namespace LayoutShell.Files.FileTree

/-! ## Creating a file -/

/-- A location at which a file may be created: nothing or a file stands there. -/
def Free (t : FileTree) (l : Location) : Prop :=
  ∀ e, t.entry? l = some e → ∃ content, e = .file content

/-- The steps from `here`, following at most so many links, create a file at the last location. -/
inductive Creates (t : FileTree) : Nat → Location → Bool → List String → Location → Prop
  | stay {links : Nat} {here l : Location} {slash : Bool} {rest : List String}
      (dir : t.isDirectory here = true) (more : rest ≠ [])
      (tail : Creates t links here slash rest l) :
      Creates t links here slash ("." :: rest) l
  | up {links : Nat} {here l : Location} {slash : Bool} {rest : List String}
      (dir : t.isDirectory here = true) (more : rest ≠ [])
      (tail : Creates t links (parentOf here) slash rest l) :
      Creates t links here slash (".." :: rest) l
  | link {links : Nat} {here l : Location} {slash : Bool} {name next : String} {rest : List String}
      (dir : t.isDirectory here = true) (ordinary : Ordinary name)
      (last : rest = [] → slash = false)
      (entry : t.entry? (here ++ [name]) = some (.link next))
      (tail : Creates t links (startOf here next)
        (if rest.isEmpty then Path.endsInSlash next else slash) (Path.steps next ++ rest) l) :
      Creates t (links + 1) here slash (name :: rest) l
  | down {links : Nat} {here l : Location} {slash : Bool} {name : String} {rest : List String}
      {e : Entry} (dir : t.isDirectory here = true) (ordinary : Ordinary name) (more : rest ≠ [])
      (entry : t.entry? (here ++ [name]) = some e) (noLink : ∀ next, e ≠ .link next)
      (tail : Creates t links (here ++ [name]) slash rest l) :
      Creates t links here slash (name :: rest) l
  | new {links : Nat} {here : Location} {name : String} (dir : t.isDirectory here = true)
      (ordinary : Ordinary name) (free : t.Free (here ++ [name])) :
      Creates t links here false [name] (here ++ [name])

theorem creates_of_target {t : FileTree} {links : Nat} {here l : Location} {slash : Bool}
    {steps : List String} (h : t.target links here slash steps = .ok l) :
    t.Creates links here slash steps l := by
  fun_induction target t links here slash steps with
  | case4 links here slash rest hdir hlast ih =>
    exact .stay (by simpa using hdir) (by simpa using hlast) (ih h)
  | case5 links here slash rest hdir hlast _ ih =>
    exact .up (by simpa using hdir) (by simpa using hlast) (ih h)
  | case8 here slash name rest hdir hlast h₁ h₂ h₃ next hentry links slash' ih =>
    refine .link (by simpa using hdir) ⟨h₁, h₂, h₃⟩ (fun hrest => ?_) hentry (ih h)
    simpa [hrest, h₁, h₂] using hlast
  | case10 links here slash name rest hdir hlast h₁ h₂ h₃ hmore hlink hsome ih =>
    obtain ⟨e, he⟩ : ∃ e, t.entry? (here ++ [name]) = some e :=
      Option.ne_none_iff_exists'.1 fun hnone => hsome (by rw [hnone]; rfl)
    exact .down (by simpa using hdir) ⟨h₁, h₂, h₃⟩ (by simpa using hmore) he
      (fun next hnext => hlink next (hnext ▸ he)) (ih h)
  | case12 links here slash name rest hdir hlast h₁ h₂ h₃ hmore hlink hdirectory =>
    cases h
    obtain rfl : rest = [] := by simpa using hmore
    obtain rfl : slash = false := by simpa [h₁, h₂] using hlast
    refine .new (by simpa using hdir) ⟨h₁, h₂, h₃⟩ fun e he => ?_
    cases e with
    | file content => exact ⟨content, rfl⟩
    | directory => exact absurd he hdirectory
    | link next => exact absurd he (hlink next)
  | _ => cases h

theorem target_of_creates {t : FileTree} {links : Nat} {here l : Location} {slash : Bool}
    {steps : List String} (h : t.Creates links here slash steps l) :
    t.target links here slash steps = .ok l := by
  induction h with
  | stay dir more _ ih =>
    rw [target]
    simp [dir, more, ih]
  | up dir more _ ih =>
    rw [target]
    simp [dir, more, ih]
  | @link _ _ _ slash name _ rest dir ordinary last entry _ ih =>
    have hlast : ¬(rest.isEmpty ∧ (slash ∨ name = "." ∨ name = "..")) := by
      rw [List.isEmpty_iff]
      simpa [ordinary.ne_dot, ordinary.ne_dots] using last
    rw [target, if_neg (by simp [dir]), if_neg hlast, if_neg ordinary.ne_dot,
      if_neg ordinary.ne_dots, if_neg ordinary.short, entry]
    exact ih
  | @down _ _ _ _ _ _ e dir ordinary more entry noLink _ ih =>
    rw [target, if_neg (by simp [dir]), if_neg (by simp [more]), if_neg ordinary.ne_dot,
      if_neg ordinary.ne_dots, if_neg ordinary.short, entry]
    cases e with
    | link next => exact absurd rfl (noLink next)
    | file content => simp [more, ih]
    | directory => simp [more, ih]
  | @new _ here name dir ordinary free =>
    rw [target, if_neg (by simp [dir]), if_neg (by simp [ordinary.ne_dot, ordinary.ne_dots]),
      if_neg ordinary.ne_dot, if_neg ordinary.ne_dots, if_neg ordinary.short]
    cases hentry : t.entry? (here ++ [name]) with
    | none => rfl
    | some e =>
      obtain ⟨content, rfl⟩ := free e hentry
      rfl

/-- Names that lead to a directory create a file in it. -/
theorem creates_of_leads {t : FileTree} {here : Location} {names : List String} {name : String}
    (h : t.leads here names = true) (dir : t.isDirectory (here ++ names) = true)
    (ordinary : Ordinary name) (free : t.Free (here ++ names ++ [name])) (links : Nat) :
    t.Creates links here false (names ++ [name]) (here ++ names ++ [name]) := by
  induction names generalizing here with
  | nil =>
    rw [List.append_nil] at dir free ⊢
    exact .new dir ordinary free
  | cons next rest ih =>
    simp only [leads, Bool.and_eq_true, decide_eq_true_eq] at h
    obtain ⟨⟨⟨hdir, hnext⟩, hstands⟩, hrest⟩ := h
    obtain ⟨e, hentry, noLink⟩ := entry?_of_standsAt hstands
    rw [List.append_cons here next rest] at dir free ⊢
    exact .down hdir hnext (by simp) hentry noLink (ih hrest dir free)

theorem destination_of_leads {t : FileTree} {path name : String} {names : List String}
    (hcheck : checkPath path = .ok ())
    (hpath : Path.steps path = names ++ [name] ∧ Path.endsInSlash path = false)
    (h : t.leads (startOf [] path) names = true)
    (dir : t.isDirectory (startOf [] path ++ names) = true) (ordinary : Ordinary name)
    (free : t.Free (startOf [] path ++ names ++ [name])) :
    t.destination path = .ok (startOf [] path ++ names ++ [name]) := by
  rw [destination, hcheck, hpath.1, hpath.2]
  exact target_of_creates (creates_of_leads h dir ordinary free maxLinks)

theorem write_of_destination {t : FileTree} {path : String} {l : Location}
    (h : t.destination path = .ok l) (content : List UInt8) :
    t.write path content = .ok (t.put l (.file content)) :=
  bind_eq_ok_iff.2 ⟨l, h, rfl⟩

namespace Creates

variable {t : FileTree} {links : Nat} {here l : Location} {slash : Bool} {steps : List String}

theorem isDirectory (h : t.Creates links here slash steps l) : t.isDirectory here = true := by
  cases h <;> assumption

theorem free (h : t.Creates links here slash steps l) : t.Free l := by
  induction h with
  | stay _ _ _ ih => exact ih
  | up _ _ _ ih => exact ih
  | link _ _ _ _ _ ih => exact ih
  | down _ _ _ _ _ _ ih => exact ih
  | new _ _ free => exact free

/-- No file is created by a path that ends in a slash. -/
theorem slash_eq (h : t.Creates links here slash steps l) : slash = false := by
  induction h with
  | stay _ _ _ ih => exact ih
  | up _ _ _ ih => exact ih
  | @link _ _ _ _ _ _ rest _ _ last _ _ ih =>
    cases rest with
    | nil => exact last rfl
    | cons => exact ih
  | down _ _ _ _ _ _ ih => exact ih
  | new => rfl

end Creates

/-! ## The tree with the file -/

theorem entry?_of_isDirectory {t : FileTree} {l : Location} (h : t.isDirectory l = true) :
    t.entry? l = some .directory := by
  simpa [isDirectory] using h

theorem entry?_put {t : FileTree} {l : Location} (hl : t.Free l) (content : List UInt8)
    (l' : Location) :
    FileTree.entry? (t.put l (.file content)) l' =
      if l' = l then some (.file content) else t.entry? l' := by
  unfold entry? put
  by_cases htop : l' = [] ∨ l' = systemRoot
  · have hne : l' ≠ l := by
      rintro rfl
      obtain ⟨content, h⟩ := hl .directory (if_pos htop)
      cases h
    rw [if_pos htop, if_neg hne, if_pos htop]
  · rw [if_neg htop, if_neg htop, Dict.get?_insert]

section

variable {t : FileTree} {l : Location} (hl : t.Free l) (content : List UInt8)

include hl

/-- What was no file before is what it was. -/
theorem entry?_put_of_ne {l' : Location} {e : Entry} (h : t.entry? l' = some e)
    (he : ∀ content, e ≠ .file content) :
    FileTree.entry? (t.put l (.file content)) l' = some e := by
  have hne : l' ≠ l := by
    rintro rfl
    obtain ⟨content, hc⟩ := hl e h
    exact he content hc
  rw [entry?_put hl, if_neg hne, h]

theorem isDirectory_put {l' : Location} (h : t.isDirectory l' = true) :
    (t.put l (.file content)).isDirectory l' = true := by
  have hentry := entry?_put_of_ne hl content (entry?_of_isDirectory h) fun _ => Entry.noConfusion
  simp [isDirectory, hentry]

end

/-! ## Finding the file -/

/-- The second steps are the first ones with dots before some of them: a path with a slash at its
end asks for a directory, also if it is the target of a link in the middle of another path. -/
inductive Dotted : List String → List String → Prop
  | nil : Dotted [] []
  | cons (name : String) {steps steps' : List String} (h : Dotted steps steps') :
      Dotted (name :: steps) (name :: steps')
  | dot {steps steps' : List String} (more : steps ≠ []) (h : Dotted steps steps') :
      Dotted steps ("." :: steps')

namespace Dotted

theorem refl (steps : List String) : Dotted steps steps := by
  induction steps with
  | nil => exact .nil
  | cons name steps ih => exact .cons name ih

theorem eq_nil {steps' : List String} (h : Dotted [] steps') : steps' = [] := by
  cases h with
  | nil => rfl
  | dot more => exact absurd rfl more

theorem append (before : List String) {steps steps' : List String} (h : Dotted steps steps') :
    Dotted (before ++ steps) (before ++ steps') := by
  induction before with
  | nil => exact h
  | cons name before ih => exact .cons name ih

/-- The steps of a link, before others. -/
theorem stepsOf_append {next : String} {steps steps' : List String} (h : Dotted steps steps')
    (hslash : Path.endsInSlash next = true → steps ≠ []) :
    Dotted (Path.steps next ++ steps) (stepsOf next ++ steps') := by
  rw [stepsOf]
  split
  · next hs =>
    rw [List.append_assoc]
    exact append _ (.dot (hslash hs) h)
  · exact append _ h

/-- Dots before a step change nothing. -/
theorem follow_cons {t : FileTree} {here : Location} (dir : t.isDirectory here = true)
    (links : Nat) {name : String} {rest steps' : List String} (h : Dotted (name :: rest) steps') :
    ∃ rest', Dotted rest rest' ∧
      t.follow links here steps' = t.follow links here (name :: rest') := by
  generalize hsteps : name :: rest = steps at h
  induction h with
  | nil => cases hsteps
  | cons _ h =>
    cases hsteps
    exact ⟨_, h, rfl⟩
  | dot _ _ ih =>
    obtain ⟨rest', hrest', hfollow⟩ := ih hsteps
    exact ⟨rest', hrest', (follow_dot dir links _).trans hfollow⟩

end Dotted

/-- **Where a path creates a file, it finds the file afterwards.** -/
theorem Creates.follow {t : FileTree} {links : Nat} {here l : Location} {slash : Bool}
    {steps : List String} (h : t.Creates links here slash steps l) (content : List UInt8)
    {steps' : List String} (hsteps : Dotted steps steps') :
    (t.put l (.file content)).follow links here steps' = .ok l := by
  have hfree := h.free
  induction h generalizing steps' with
  | stay dir more _ ih =>
    obtain ⟨rest', hrest', hfollow⟩ := hsteps.follow_cons (isDirectory_put hfree content dir) _
    rw [hfollow, follow_dot (isDirectory_put hfree content dir), ih hrest' hfree]
  | up dir more _ ih =>
    obtain ⟨rest', hrest', hfollow⟩ := hsteps.follow_cons (isDirectory_put hfree content dir) _
    rw [hfollow, follow_dots (isDirectory_put hfree content dir), ih hrest' hfree]
  | link dir ordinary last entry tail ih =>
    have dir' := isDirectory_put hfree content dir
    obtain ⟨rest', hrest', hfollow⟩ := hsteps.follow_cons dir' _
    rw [hfollow, follow_link dir' _ _ ordinary
      (entry?_put_of_ne hfree content entry fun _ => Entry.noConfusion)]
    refine ih (hrest'.stepsOf_append fun hslash hnil => ?_) hfree
    have := tail.slash_eq
    rw [hnil, List.isEmpty_nil, if_pos rfl, hslash] at this
    cases this
  | down dir ordinary more entry noLink tail ih =>
    have dir' := isDirectory_put hfree content dir
    obtain ⟨rest', hrest', hfollow⟩ := hsteps.follow_cons dir' _
    -- the next step starts in this entry, so it is a directory
    have hentry := entry?_of_isDirectory tail.isDirectory
    rw [hfollow, follow_entry dir' _ _ ordinary
      (entry?_put_of_ne hfree content hentry fun _ => Entry.noConfusion)
      fun _ => Entry.noConfusion, ih hrest' hfree]
  | new dir ordinary free =>
    have dir' := isDirectory_put hfree content dir
    obtain ⟨rest', hrest', hfollow⟩ := hsteps.follow_cons dir' _
    obtain rfl := hrest'.eq_nil
    rw [hfollow, follow_entry dir' _ _ ordinary (by rw [entry?_put hfree, if_pos rfl])
      fun _ => Entry.noConfusion, FileTree.follow]

/-- A file is written where nothing or a file stood, and its path leads there afterwards. -/
theorem exists_of_write {t t' : FileTree} {path : String} {content : List UInt8}
    (h : t.write path content = .ok t') :
    ∃ l, t.Free l ∧ t' = t.put l (.file content) ∧ t'.locate path = .ok l := by
  obtain ⟨l, hl, h⟩ := bind_eq_ok_iff.1 h
  cases h
  obtain ⟨⟨⟩, hcheck, htarget⟩ := bind_eq_ok_iff.1 hl
  have hcreates := creates_of_target htarget
  have hsteps : stepsOf path = Path.steps path := by
    rw [stepsOf, hcreates.slash_eq]
    rfl
  refine ⟨l, hcreates.free, rfl, ?_⟩
  rw [locate, hcheck, hsteps]
  exact hcreates.follow content (.refl _)

/-- **What was written to a path is read from it.** -/
theorem read_of_write {t t' : FileTree} {path : String} {content : List UInt8}
    (h : t.write path content = .ok t') : t'.read path = .ok content := by
  obtain ⟨l, hfree, rfl, hlocate⟩ := exists_of_write h
  have hentry : (t.put l (.file content)).entryAt path = .ok (.file content) := by
    have hput : FileTree.entry? (t.put l (.file content)) l = some (.file content) := by
      rw [entry?_put hfree, if_pos rfl]
    rw [entryAt, hlocate]
    simp only [bind, Except.bind, hput]
  rw [read, hentry]
  rfl

/-- A file with any content may stand alone. -/
theorem exists_write_empty {name : String} (hcheck : checkPath name = .ok ())
    (hname : Path.steps name = [] ++ [name] ∧ Path.endsInSlash name = false)
    (hstart : startOf [] name = []) (ordinary : Ordinary name) (content : List UInt8) :
    ∃ t, FileTree.empty.write name content = .ok t := by
  have hroot : ¬([name] = [] ∨ [name] = systemRoot) := by
    rintro (h | h)
    · cases h
    · cases h
      exact absurd hname.1 (by decide)
  have hfree : FileTree.empty.Free [name] := by
    intro e he
    unfold entry? at he
    rw [if_neg hroot] at he
    cases he
  have hdestination : FileTree.empty.destination name = .ok (startOf [] name ++ [] ++ [name]) := by
    refine destination_of_leads hcheck hname ?_ ?_ ordinary ?_ <;> rw [hstart]
    · rfl
    · rfl
    · exact hfree
  exact ⟨_, write_of_destination hdestination content⟩

/-- Two trees that differ at most in what stands at `l`. -/
structure AgreeExcept (l : Location) (t t' : FileTree) : Prop where
  entry? : ∀ l', l' ≠ l → t'.entry? l' = t.entry? l'
  programs : t'.programs = t.programs

/-- **A file that is written replaces nothing else.** -/
theorem agreeExcept_of_write {t t' : FileTree} {path : String} {content : List UInt8}
    (h : t.write path content = .ok t') :
    ∃ l, t'.locate path = .ok l ∧ t'.entry? l = some (.file content) ∧ AgreeExcept l t t' := by
  obtain ⟨l, hfree, rfl, hlocate⟩ := exists_of_write h
  refine ⟨l, hlocate, ?_, fun l' hl' => ?_, rfl⟩
  · rw [entry?_put hfree, if_pos rfl]
  · rw [entry?_put hfree, if_neg hl']

end LayoutShell.Files.FileTree
