import LayoutShell.Proofs.Dictionaries
import LayoutShell.Proofs.Files.Directories

/-!
# What stays when a file is written

A file is written where nothing or a file stood. Directories and links stay what they are, so all
paths lead where they led before, and only the path of the new file leads further.

* `isDirectory_put_eq` and `entry?_put_eq_link_iff` say what stays.
* `Follows.put` and `Follows.of_put` say the same of paths: what can be followed can still be
  followed, and no other directory is reached.
* `Creates.put` and `write_again`: a file that is written again is written to the same place, and
  then nothing changes.
-/

namespace LayoutShell.Files.FileTree

section

variable {t : FileTree} {l : Location} (hl : t.Free l) (content : List UInt8)

include hl

theorem not_isDirectory_of_free : t.isDirectory l = false := by
  rw [isDirectory, decide_eq_false_iff_not]
  intro hdir
  obtain ⟨_, h⟩ := hl _ hdir
  cases h

/-- A location that is free is not one of the two that are always there. -/
theorem get?_eq_entry?_of_free : t.entries.get? l = t.entry? l := by
  unfold entry?
  split
  next htop =>
    have hdir := not_isDirectory_of_free hl
    rw [isDirectory, entry?, if_pos htop] at hdir
    simp at hdir
  next => rfl

theorem isDirectory_put_eq (l' : Location) :
    (t.put l (.file content)).isDirectory l' = t.isDirectory l' := by
  rw [isDirectory, entry?_put hl]
  split
  next h =>
    rw [h, not_isDirectory_of_free hl]
    simp
  next => rfl

theorem entry?_put_eq_link_iff (l' : Location) (next : String) :
    FileTree.entry? (t.put l (.file content)) l' = some (.link next) ↔
      t.entry? l' = some (.link next) := by
  constructor
  · intro h
    rw [entry?_put hl] at h
    split at h
    · cases h
    · exact h
  · intro h
    exact entry?_put_of_ne hl content h fun _ => Entry.noConfusion

/-- Where something stood that is no link, something stands that is none. -/
theorem exists_entry?_put {l' : Location} {e : Entry} (he : t.entry? l' = some e)
    (noLink : ∀ next, e ≠ .link next) :
    ∃ e', FileTree.entry? (t.put l (.file content)) l' = some e' ∧ ∀ next, e' ≠ .link next := by
  by_cases h : l' = l
  · exact ⟨.file content, by rw [entry?_put hl, if_pos h], fun _ => Entry.noConfusion⟩
  · exact ⟨e, by rw [entry?_put hl, if_neg h, he], noLink⟩

/-! ## Following paths -/

theorem Follows.put {links : Nat} {here d : Location} {steps : List String}
    (h : t.Follows links here steps d) :
    (t.put l (.file content)).Follows links here steps d := by
  induction h with
  | done => exact .done
  | stay dir _ ih => exact .stay ((isDirectory_put_eq hl content _).trans dir) ih
  | up dir _ ih => exact .up ((isDirectory_put_eq hl content _).trans dir) ih
  | link dir ordinary entry _ ih =>
    exact .link ((isDirectory_put_eq hl content _).trans dir) ordinary
      ((entry?_put_eq_link_iff hl content _ _).2 entry) ih
  | down dir ordinary entry noLink _ ih =>
    obtain ⟨e', hentry, hnoLink⟩ := exists_entry?_put hl content entry noLink
    exact .down ((isDirectory_put_eq hl content _).trans dir) ordinary hentry hnoLink ih

omit hl in
/-- A path that starts at a file leads nowhere else. -/
theorem Follows.eq_of_not_isDirectory {links : Nat} {here d : Location} {steps : List String}
    (h : t.Follows links here steps d) (hhere : t.isDirectory here = false) : d = here := by
  cases h with
  | done => rfl
  | stay dir | up dir | link dir | down dir =>
    rw [hhere] at dir
    cases dir

omit hl in
/-- No other directory is reached. -/
theorem Follows.of_put {t : FileTree} {l : Location} (hl : t.Free l) {content : List UInt8}
    {links : Nat} {here d : Location} {steps : List String}
    (h : (t.put l (.file content)).Follows links here steps d) (hd : t.isDirectory d = true) :
    t.Follows links here steps d := by
  induction h with
  | done => exact .done
  | stay dir _ ih => exact .stay ((isDirectory_put_eq hl content _).symm.trans dir) (ih hd)
  | up dir _ ih => exact .up ((isDirectory_put_eq hl content _).symm.trans dir) (ih hd)
  | link dir ordinary entry _ ih =>
    exact .link ((isDirectory_put_eq hl content _).symm.trans dir) ordinary
      ((entry?_put_eq_link_iff hl content _ _).1 entry) (ih hd)
  | @down _ here d name _ e dir ordinary entry noLink tail ih =>
    -- the file itself is not on the way, since the way ends at a directory
    have hne : here ++ [name] ≠ l := by
      intro heq
      have hfile : (t.put l (.file content)).isDirectory (here ++ [name]) = false := by
        rw [isDirectory_put_eq hl, heq, not_isDirectory_of_free hl]
      rw [tail.eq_of_not_isDirectory hfile, heq, not_isDirectory_of_free hl] at hd
      cases hd
    rw [entry?_put hl, if_neg hne] at entry
    exact .down ((isDirectory_put_eq hl content _).symm.trans dir) ordinary entry noLink (ih hd)

theorem locate_put {path : String} {d : Location} (h : t.locate path = .ok d) :
    (t.put l (.file content)).locate path = .ok d := by
  obtain ⟨⟨⟩, hcheck, hfollow⟩ := bind_eq_ok_iff.1 h
  exact bind_eq_ok_iff.2
    ⟨(), hcheck, follow_of_follows ((follows_of_follow hfollow).put hl content)⟩

theorem read_put_of_ne {path : String} {d : Location} (h : t.locate path = .ok d) (hne : d ≠ l) :
    (t.put l (.file content)).read path = t.read path := by
  rw [read, entryAt, locate_put hl content h]
  simp only [bind, Except.bind, entry?_put hl, if_neg hne]
  rw [read, entryAt, h]
  rfl

/-- A path designates a directory exactly if it did before. -/
theorem isDirectoryAt_put (path : String) :
    (t.put l (.file content)).isDirectoryAt path = t.isDirectoryAt path := by
  rw [Bool.eq_iff_iff, isDirectoryAt_iff, isDirectoryAt_iff]
  constructor
  · rintro ⟨d, hd, hdir⟩
    rw [isDirectory_put_eq hl] at hdir
    have hfollows := (follows_of_locate hd).of_put hl hdir
    exact ⟨d, bind_eq_ok_iff.2 ⟨(), checkPath_of_locate hd, follow_of_follows hfollows⟩, hdir⟩
  · rintro ⟨d, hd, hdir⟩
    exact ⟨d, locate_put hl content hd, (isDirectory_put_eq hl content d).trans hdir⟩

theorem locateEntry_put {path : String} {d : Location} (h : t.locateEntry path = .ok d) :
    (t.put l (.file content)).locateEntry path = .ok d := by
  have hfollow : ∀ {here d : Location} {steps : List String},
      t.follow maxLinks here steps = .ok d →
        (t.put l (.file content)).follow maxLinks here steps = .ok d := fun h =>
    follow_of_follows ((follows_of_follow h).put hl content)
  obtain ⟨⟨⟩, hcheck, h⟩ := bind_eq_ok_iff.1 h
  refine bind_eq_ok_iff.2 ⟨(), hcheck, ?_⟩
  dsimp only at h ⊢
  cases hlast : (stepsOf path).getLast? with
  | none =>
    rw [hlast] at h
    exact h
  | some name =>
    rw [hlast] at h
    obtain ⟨here, hhere, h⟩ := bind_eq_ok_iff.1 h
    refine bind_eq_ok_iff.2 ⟨here, hfollow hhere, ?_⟩
    by_cases hdots : name = "." ∨ name = ".."
    · rw [if_pos hdots] at h ⊢
      exact hfollow h
    · rw [if_neg hdots] at h ⊢
      rw [isDirectory_put_eq hl]
      split at h
      · cases h
      next hdir =>
        split at h
        · cases h
        next hshort =>
          split at h
          next hentry =>
            have hput : Option.isSome
                (FileTree.entry? (t.put l (.file content)) (here ++ [name])) = true := by
              rw [entry?_put hl]
              split
              · rfl
              · exact hentry
            rw [if_neg hdir, if_neg hshort, if_pos hput]
            exact h
          next => cases h

/-! ## Writing again -/

theorem free_put : (t.put l (.file content)).Free l := by
  intro e he
  rw [entry?_put hl, if_pos rfl] at he
  exact ⟨content, (Option.some.inj he).symm⟩

end

theorem put_put (t : FileTree) (l : Location) (e : Entry) : (t.put l e).put l e = t.put l e := by
  have hentries : (t.entries.insert l e).insert l e = t.entries.insert l e := by
    apply Dict.ext_get?
    intro k
    rw [Dict.get?_insert, Dict.get?_insert]
    split <;> rfl
  rw [put, put, hentries]

/-- The steps that create a file create it again. -/
theorem Creates.put {t : FileTree} {links : Nat} {here l : Location} {slash : Bool}
    {steps : List String} (h : t.Creates links here slash steps l) (content : List UInt8) :
    (t.put l (.file content)).Creates links here slash steps l := by
  have hfree := h.free
  induction h with
  | stay dir more _ ih => exact .stay (isDirectory_put hfree content dir) more (ih hfree)
  | up dir more _ ih => exact .up (isDirectory_put hfree content dir) more (ih hfree)
  | link dir ordinary last entry _ ih =>
    exact .link (isDirectory_put hfree content dir) ordinary last
      ((entry?_put_eq_link_iff hfree content _ _).2 entry) (ih hfree)
  | down dir ordinary more entry noLink _ ih =>
    obtain ⟨e', hentry, hnoLink⟩ := exists_entry?_put hfree content entry noLink
    exact .down (isDirectory_put hfree content dir) ordinary more hentry hnoLink (ih hfree)
  | new dir ordinary free =>
    exact .new (isDirectory_put hfree content dir) ordinary (free_put hfree content)

/-- **A file that is written again is left as it is.** -/
theorem write_again {t t' : FileTree} {path : String} {content : List UInt8}
    (h : t.write path content = .ok t') : t'.write path content = .ok t' := by
  obtain ⟨l, hl, h⟩ := bind_eq_ok_iff.1 h
  cases h
  obtain ⟨⟨⟩, hcheck, htarget⟩ := bind_eq_ok_iff.1 hl
  have hagain := target_of_creates ((creates_of_target htarget).put content)
  have hdestination : (t.put l (.file content)).destination path = .ok l :=
    bind_eq_ok_iff.2 ⟨(), hcheck, hagain⟩
  rw [write_of_destination hdestination, put_put]

theorem ne_empty_of_write {t t' : FileTree} {path : String} {content : List UInt8}
    (h : t.write path content = .ok t') : path ≠ "" := by
  rintro rfl
  obtain ⟨l, hl, -⟩ := bind_eq_ok_iff.1 h
  obtain ⟨⟨⟩, hcheck, -⟩ := bind_eq_ok_iff.1 hl
  exact absurd hcheck (by decide)

end LayoutShell.Files.FileTree
