import LayoutShell.Files.Access
import LayoutShell.Proofs.Text.ByteOrder

/-!
# Paths and their names

* `IsName` says that a text can stand between the slashes of a path.
* `isName_of_mem_steps`: the steps of a path are names. `steps_join` and `steps_joinAll` give the
  names of a path that was put together.
* `extension?_eq_some_xml_iff` says which names have the extension `xml`.
* `Before` is the order of paths, name by name and each name by its bytes. `before_joinAll` compares
  paths below one directory.
-/

namespace LayoutShell.Files.Path

/-- A text that can stand between the slashes of a path. -/
structure IsName (name : String) : Prop where
  ne_empty : name ≠ ""
  noSlash : '/' ∉ name.toList

instance (name : String) : Decidable (IsName name) :=
  decidable_of_iff (name ≠ "" ∧ '/' ∉ name.toList)
    ⟨fun h => ⟨h.1, h.2⟩, fun h => ⟨h.ne_empty, h.noSlash⟩⟩

/-! ## Names of a path -/

theorem steps_append_slash (path rest : String) :
    steps (path ++ "/" ++ rest) = steps path ++ steps rest := by
  have hchars : (path ++ "/" ++ rest).toList = path.toList ++ '/' :: rest.toList := by
    rw [String.toList_append, String.toList_append, List.append_assoc]
    rfl
  rw [steps, hchars, List.splitOn_append_cons_self, List.filter_append, List.map_append, steps,
    steps]

theorem not_mem_of_mem_splitOn {c : Char} {chars part : List Char} (h : part ∈ chars.splitOn c) :
    c ∉ part := by
  induction chars generalizing part with
  | nil => simp_all
  | cons d chars ih =>
    rw [List.splitOn_cons_eq_if_modifyHead] at h
    split at h
    · rcases List.mem_cons.1 h with rfl | h
      · exact List.not_mem_nil
      · exact ih h
    next hd =>
      obtain ⟨first, others, hparts⟩ := List.exists_cons_of_ne_nil (List.splitOn_ne_nil c chars)
      rw [hparts] at h ih
      rcases List.mem_cons.1 h with rfl | h
      · rw [List.mem_cons, not_or]
        exact ⟨fun he => hd (by simp [he]), ih List.mem_cons_self⟩
      · exact ih (List.mem_cons_of_mem _ h)

theorem isName_of_mem_steps {path name : String} (h : name ∈ steps path) : IsName name := by
  obtain ⟨part, hpart, rfl⟩ := List.mem_map.1 h
  obtain ⟨hmem, hne⟩ := List.mem_filter.1 hpart
  refine ⟨?_, ?_⟩
  · intro hempty
    simp_all
  · rw [String.toList_ofList]
    exact not_mem_of_mem_splitOn hmem

theorem steps_empty : steps "" = [] := by decide

theorem IsName.steps_eq {name : String} (h : IsName name) : steps name = [name] := by
  have hne : name.toList.isEmpty = false := by simpa using h.ne_empty
  rw [steps, List.splitOn_eq_singleton h.noSlash, List.filter_cons_of_pos (by simp [hne]),
    List.filter_nil, List.map_cons, List.map_nil, String.ofList_toList]

theorem IsName.isAbsolute_eq {name : String} (h : IsName name) : isAbsolute name = false := by
  refine decide_eq_false fun hhead => h.noSlash ?_
  exact List.mem_of_mem_head? hhead

theorem eq_append_slash {path : String} (h : endsInSlash path = true) : ∃ p, path = p ++ "/" := by
  obtain ⟨p, hp⟩ := List.getLast?_eq_some_iff.1 (of_decide_eq_true h)
  refine ⟨String.ofList p, String.toList_inj.1 ?_⟩
  rw [hp, String.toList_append, String.toList_ofList]
  rfl

section

variable {name : String} (h : IsName name) (path : String)

include h

theorem steps_join : steps (join path name) = steps path ++ [name] := by
  rw [join, if_neg (by simp [h.isAbsolute_eq])]
  split
  next hend =>
    rw [Bool.or_eq_true, String.isEmpty_iff] at hend
    rcases hend with rfl | hslash
    · rw [String.empty_append, h.steps_eq, steps_empty, List.nil_append]
    · obtain ⟨p, rfl⟩ := eq_append_slash hslash
      have hp : steps (p ++ "/") = steps p := by
        rw [← String.append_empty (s := p ++ "/"), steps_append_slash, steps_empty, List.append_nil]
      rw [steps_append_slash, h.steps_eq, hp]
  next => rw [steps_append_slash, h.steps_eq]

theorem exists_join_eq :
    ∃ slash, (slash = "" ∨ slash = "/") ∧ join path name = path ++ slash ++ name := by
  rw [join, if_neg (by simp [h.isAbsolute_eq])]
  split
  · exact ⟨"", .inl rfl, by rw [String.append_empty]⟩
  · exact ⟨"/", .inr rfl, rfl⟩

theorem endsInSlash_join : endsInSlash (join path name) = false := by
  obtain ⟨slash, -, hjoin⟩ := exists_join_eq h path
  refine decide_eq_false fun hlast => h.noSlash ?_
  rw [hjoin, String.toList_append,
    List.getLast?_append_of_ne_nil _ (by simpa using h.ne_empty)] at hlast
  exact List.mem_of_getLast? hlast

theorem utf8ByteSize_join :
    path.utf8ByteSize + name.utf8ByteSize ≤ (join path name).utf8ByteSize ∧
      (join path name).utf8ByteSize ≤ path.utf8ByteSize + name.utf8ByteSize + 1 := by
  obtain ⟨slash, hslash, hjoin⟩ := exists_join_eq h path
  have hsize : slash.utf8ByteSize ≤ 1 := by
    rcases hslash with rfl | rfl <;> decide
  rw [hjoin, String.utf8ByteSize_append, String.utf8ByteSize_append]
  omega

theorem not_mem_join {c : Char} (hc : c ≠ '/') (hpath : c ∉ path.toList) (hname : c ∉ name.toList) :
    c ∉ (join path name).toList := by
  obtain ⟨slash, hslash, hjoin⟩ := exists_join_eq h path
  rw [hjoin]
  rcases hslash with rfl | rfl
  · simp [hpath, hname]
  · simp [hpath, hname, hc]

theorem isAbsolute_join : isAbsolute (join path name) = isAbsolute path := by
  by_cases hpath : path = ""
  · subst hpath
    rw [join, if_neg (by simp [h.isAbsolute_eq]), if_pos (by decide), String.empty_append,
      h.isAbsolute_eq]
    rfl
  · obtain ⟨c, cs, hcs⟩ := List.exists_cons_of_ne_nil (mt String.toList_eq_nil_iff.1 hpath)
    rw [join, if_neg (by simp [h.isAbsolute_eq])]
    split <;> simp [isAbsolute, hcs]

end

theorem steps_joinAll {names : List String} (h : ∀ name ∈ names, IsName name) (path : String) :
    steps (joinAll path names) = steps path ++ names := by
  induction names generalizing path with
  | nil => exact (List.append_nil _).symm
  | cons name names ih =>
    rw [List.forall_mem_cons] at h
    rw [joinAll, List.foldl_cons, ← joinAll, ih h.2, steps_join h.1, List.append_assoc,
      List.singleton_append]

/-! ## Extensions -/

theorem extension?_eq_some_xml_iff {name : String} :
    extension? name = some "xml" ↔ ∃ stem, stem ≠ "" ∧ name = stem ++ ".xml" := by
  constructor
  · intro h
    rw [extension?] at h
    split at h
    next x c rest hdrop =>
      have hx : x = '.' := by
        have hhead := List.head?_dropWhile_not (· ≠ '.') name.toList.reverse
        rw [hdrop] at hhead
        simpa using hhead
      have htake : name.toList.reverse.takeWhile (· ≠ '.') = ['l', 'm', 'x'] := by
        split at h
        · cases h
        · simpa using congrArg (fun s => s.toList.reverse) (Option.some.inj h)
      have hparts := List.takeWhile_append_dropWhile (p := (· ≠ '.')) (l := name.toList.reverse)
      rw [htake, hdrop, hx] at hparts
      refine ⟨String.ofList (c :: rest).reverse, by simp, String.toList_inj.1 ?_⟩
      rw [← List.reverse_inj, ← hparts]
      simp
    next => cases h
  · rintro ⟨stem, hne, rfl⟩
    have hreverse : (stem ++ ".xml").toList.reverse =
        ['l', 'm', 'x'] ++ '.' :: stem.toList.reverse := by
      simp
    obtain ⟨c, rest, hstem⟩ := List.exists_cons_of_ne_nil
      (mt List.reverse_eq_nil_iff.1 (mt String.toList_eq_nil_iff.1 hne))
    have hdots : stem ++ ".xml" ≠ ".." := by
      intro h
      have := congrArg (fun s => s.toList.reverse.head?) h
      simp at this
    rw [extension?, hreverse, hstem]
    simp [hdots]

/-! ## Order -/

/-- Names by their bytes. -/
def NameBefore (a b : String) : Prop :=
  List.Lex (· < ·) (Text.encode a.toList) (Text.encode b.toList)

/-- Paths by their names. -/
def Before (p q : String) : Prop := List.Lex NameBefore (steps p) (steps q)

theorem nameBefore_of_lt {a b : String} (h : a < b) : NameBefore a b :=
  Text.lex_encode h

theorem NameBefore.ne {a b : String} (h : NameBefore a b) : a ≠ b := by
  rintro rfl
  exact (List.Lex.imp (fun _ _ => UInt8.ne_of_lt) _ _ h).to_ne rfl

theorem Before.ne {p q : String} (h : Before p q) : p ≠ q := by
  rintro rfl
  exact (List.Lex.imp (fun _ _ => NameBefore.ne) _ _ h).to_ne rfl

/-- Paths below a directory are ordered as the names that lead to them. -/
theorem before_joinAll {names names' : List String} (h : ∀ name ∈ names, IsName name)
    (h' : ∀ name ∈ names', IsName name) (hlex : List.Lex (· < ·) names names') (path : String) :
    Before (joinAll path names) (joinAll path names') := by
  rw [Before, steps_joinAll h, steps_joinAll h']
  exact List.Lex.append_left _ (List.Lex.imp (fun _ _ => nameBefore_of_lt) _ _ hlex) _

end LayoutShell.Files.Path
