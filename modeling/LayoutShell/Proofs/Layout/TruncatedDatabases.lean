import LayoutShell.Proofs.Json.Truncation
import LayoutShell.Proofs.Layout.Databases

/-!
# Layout databases that are cut short

A file that holds only the beginning of the text of a database, as after a write that was
interrupted, is never taken for a database and never found wrong in itself: it ends too early.

* `readNames_cut` and `nextKey_cut` read arrays of strings and keys up to a cut.
* `readMethods_cut` and `readMembers_cut` are the objects of a written database. Their members are
  known, so no value is passed over; a number that is passed over could be found wrong at a cut.
* `load_of_prefix`: of all beginnings of what was saved only the whole loads.
-/

namespace LayoutShell.Layout.Database

open Files Json Text Value

/-! ## Arrays of strings -/

section

variable (p q : List UInt8)

/-- Beyond white space, a beginning of a text starts as the text does. -/
theorem skipBlank_cut :
    skipBlank p = [] ∨ ∃ b t, skipBlank p = b :: t ∧ skipBlank (p ++ q) = b :: (t ++ q) := by
  cases h : skipBlank p with
  | nil => exact .inl rfl
  | cons b t =>
    refine .inr ⟨b, t, rfl, ?_⟩
    rw [skipBlank] at h
    rw [skipBlank, List.dropWhile_append, h]
    rfl

theorem expect_skipBlank_cut (b : UInt8) :
    AtCut (fun r s => r ++ q = s) (expect b (skipBlank p)) (expect b (skipBlank (p ++ q))) := by
  rcases skipBlank_cut p q with h | ⟨c, t, h, h'⟩
  · rw [h]
    exact .truncated
  · rw [h, h']
    exact expect_cut (c :: t) q b

theorem nextItem_cut (first : Bool) :
    AtCut (Option.Rel fun r s => r ++ q = s) (nextItem first p) (nextItem first (p ++ q)) := by
  rw [nextItem, nextItem]
  rcases skipBlank_cut p q with h | ⟨b, t, h, h'⟩
  · rw [h]
    exact .truncated
  rw [h, h']
  refine .ite (.ok .none) (.ite (.ok (.some rfl)) (.ite ?_ .error))
  rcases skipBlank_cut t q with h | ⟨c, u, h, h'⟩
  · rw [h]
    exact .truncated
  · rw [h, h']
    exact .ite .error (.ok (.some rfl))

theorem readString_cut : AtCut (Before q) (readString p) (readString (p ++ q)) := by
  rw [readString, readString]
  rcases skipBlank_cut p q with h | ⟨b, t, h, h'⟩
  · rw [h]
    exact .truncated
  rw [h, h']
  refine .ite ((readText_cut t q).map ?_) .error
  rintro ⟨name, r⟩ ⟨_, _⟩ ⟨rfl, rfl⟩
  exact .of_append q _ r

/-- The strings of an array; the fuel of the two readings may differ. -/
theorem readStrings_cut (n m : Nat) (first : Bool) :
    AtCut (Before q) (readStrings n first p) (readStrings m first (p ++ q)) := by
  induction n generalizing m first p with
  | zero => exact .truncated
  | succ n ih =>
    cases m with
    | zero => exact .error
    | succ m =>
      refine (nextItem_cut p q first).bind ?_
      rintro _ _ - (@⟨r, _, rfl⟩ | _)
      · refine (readString_cut r q).bind ?_
        rintro ⟨name, r⟩ ⟨_, _⟩ - ⟨rfl, rfl⟩
        refine (ih r m false).bind ?_
        rintro ⟨names, r⟩ ⟨_, _⟩ - ⟨rfl, rfl⟩
        exact .ok (.of_append q _ r)
      · refine (expect_skipBlank_cut p q _).bind ?_
        rintro r _ - rfl
        exact .ok (.of_append q [] r)

theorem readNames_cut : AtCut (Before q) (readNames p) (readNames (p ++ q)) := by
  rw [readNames, readNames]
  rcases skipBlank_cut p q with h | ⟨b, t, h, h'⟩
  · rw [h]
    exact .truncated
  · rw [h, h']
    exact .ite (readStrings_cut t q _ _ true) .error

/-! ## Keys -/

/-- The key whose quote a text begins with. -/
def keyAt (s : List UInt8) : Except Failure (Option (String × List UInt8)) := do
  let s ← expect (byte '"') s
  let (key, s) ← readText s
  return some (String.ofList key, s)

theorem nextKey_of_skipBlank {s t : List UInt8} {b : UInt8} (h : skipBlank s = b :: t)
    (first : Bool) :
    nextKey first s =
      if b = byte '\x7d' then .ok none
      else if first then keyAt (b :: t)
      else if b = byte ',' then keyAt (skipBlank t)
      else .error .malformed := by
  rw [nextKey, h]
  rfl

theorem keyAt_cut {r s : List UInt8}
    (h : AtCut (fun r s => r ++ q = s) (expect (byte '"') r) (expect (byte '"') s)) :
    AtCut (Option.Rel (Before q)) (keyAt r) (keyAt s) := by
  refine h.bind ?_
  rintro r _ - rfl
  refine (readText_cut r q).bind ?_
  rintro ⟨key, r⟩ ⟨_, _⟩ - ⟨rfl, rfl⟩
  exact .ok (.some (.of_append q _ r))

theorem nextKey_cut (first : Bool) :
    AtCut (Option.Rel (Before q)) (nextKey first p) (nextKey first (p ++ q)) := by
  rcases skipBlank_cut p q with h | ⟨b, t, h, h'⟩
  · rw [nextKey, h]
    exact .truncated
  · rw [nextKey_of_skipBlank h, nextKey_of_skipBlank h']
    exact .ite (.ok .none) (.ite (keyAt_cut q (expect_cut (b :: t) q _))
      (.ite (keyAt_cut q (expect_skipBlank_cut t q _)) .error))

end

/-! ## Objects -/

section

variable {p q s rest : List UInt8} {first : Bool}

/-- A bracket after white space is beyond the cut or the first byte that is read. -/
theorem skipBlank_cut_cons {ws : List UInt8} (hws : IsBlank ws) {b : UInt8}
    (hb : isBlankByte b = false) (hp : p ++ q = ws ++ b :: s) :
    skipBlank p = [] ∨ ∃ t, skipBlank p = b :: t ∧ t ++ q = s := by
  rcases skipBlank_cut p q with h | ⟨c, t, h, h'⟩
  · exact .inl h
  · rw [hp, skipBlank_append hws, skipBlank_cons hb] at h'
    obtain ⟨rfl, rfl⟩ := List.cons.inj h'
    exact .inr ⟨t, h, rfl⟩

theorem expect_cut_end {ws : List UInt8} (hws : IsBlank ws) {b : UInt8}
    (hb : isBlankByte b = false) (hp : p ++ q = ws ++ b :: rest) :
    AtCut (fun r s => r ++ q = s) (expect b (skipBlank p)) (.ok rest) := by
  have hrest : expect b (skipBlank (p ++ q)) = .ok rest := by
    rw [hp, skipBlank_append hws, skipBlank_cons hb, expect, if_pos rfl]
  exact hrest ▸ expect_skipBlank_cut p q b

theorem memberOf_cut {α : Type} {read : List UInt8 → Except Failure (α × List UInt8)} {value : α}
    (hp : p ++ q = byte ':' :: s)
    (hread : ∀ r, r ++ q = s → AtCut (Before q) (read r) (.ok (value, rest))) :
    AtCut (Before q) (memberOf none read p) (.ok (some value, rest)) := by
  have hvalue : AtCut (Before q) (valueOf read p) (.ok (value, rest)) :=
    (expect_cut_end isBlank_nil (by decide) hp).bind_ok hread
  refine hvalue.map (y := .ok (value, rest)) (g := fun b => (some b.1, b.2)) ?_
  rintro ⟨_, r⟩ ⟨_, _⟩ ⟨rfl, rfl⟩
  exact .of_append q _ r

theorem readNames_cut_text {width depth : Nat} {names : List String}
    (hp : p ++ q = [byte ' '] ++ (encode (namesText width depth names) ++ rest)) :
    AtCut (Before q) (readNames p) (.ok (names, rest)) := by
  have hnames := readNames_cut p q
  rwa [hp, readNames_blank isBlank_space, readNames_append] at hnames

theorem readMethodMembers_cut_end {ws : List UInt8} (hws : IsBlank ws)
    (hp : p ++ q = ws ++ byte '\x7d' :: rest) (n : Nat) (handlers : List String) :
    AtCut (Before q) (readMethodMembers n first (some handlers) p) (.ok (handlers, rest)) := by
  cases n with
  | zero => exact .truncated
  | succ n =>
    have hkey := nextKey_cut p q first
    rw [hp, nextKey_end hws] at hkey
    refine hkey.bind_ok ?_
    rintro _ ⟨⟩
    refine (expect_cut_end hws (by decide) hp).bind_ok ?_
    rintro r rfl
    exact .ok (.of_append q handlers r)

theorem readMethodMembers_cut {width depth : Nat} {handlers : List String}
    (hp : p ++ q = encode (newline width (depth + 1)) ++
      (encode (renderString "onClick") ++ byte ':' :: ([byte ' '] ++
        (encode (namesText width (depth + 1) handlers) ++
          (encode (newline width depth) ++ byte '\x7d' :: rest))))) (n : Nat) :
    AtCut (Before q) (readMethodMembers n true none p) (.ok (handlers, rest)) := by
  cases n with
  | zero => exact .truncated
  | succ n =>
    have hkey := nextKey_cut p q true
    rw [hp, nextKey_first (isBlank_newline width (depth + 1))] at hkey
    refine hkey.bind_ok ?_
    rintro _ (@⟨⟨_, r⟩, _, ⟨rfl, hr⟩⟩ | _)
    refine (memberOf_cut hr fun r hr => readNames_cut_text hr).bind_ok ?_
    rintro ⟨_, r⟩ ⟨rfl, hr⟩
    exact readMethodMembers_cut_end (isBlank_newline width depth) hr n handlers

theorem readMethods_cut {width depth : Nat} {handlers : List String}
    (hp : p ++ q = [byte ' '] ++ (encode (methodsText width depth handlers) ++ rest)) :
    AtCut (Before q) (readMethods p) (.ok (handlers, rest)) := by
  rw [encode_methodsText] at hp
  rw [readMethods]
  rcases skipBlank_cut_cons isBlank_space (by decide) hp with h | ⟨t, h, ht⟩
  · rw [h]
    exact .truncated
  · rw [h]
    exact readMethodMembers_cut ht _

theorem readMembers_cut_end {ws : List UInt8} (hws : IsBlank ws)
    (hp : p ++ q = ws ++ byte '\x7d' :: rest) (n : Nat) (handlers classes : List String) :
    AtCut (Before q) (readMembers n first (some handlers) (some classes) p)
      (.ok (⟨handlers, classes⟩, rest)) := by
  cases n with
  | zero => exact .truncated
  | succ n =>
    have hkey := nextKey_cut p q first
    rw [hp, nextKey_end hws] at hkey
    refine hkey.bind_ok ?_
    rintro _ ⟨⟩
    refine (expect_cut_end hws (by decide) hp).bind_ok ?_
    rintro r rfl
    exact .ok (.of_append q _ r)

theorem readMembers_cut_classes {width : Nat} {classes : List String}
    (hp : p ++ q = byte ',' :: (encode (newline width 1) ++
      (encode (renderString "classes") ++ byte ':' :: ([byte ' '] ++
        (encode (namesText width 1 classes) ++
          (encode (newline width 0) ++ byte '\x7d' :: rest)))))) (n : Nat)
    (handlers : List String) :
    AtCut (Before q) (readMembers n false (some handlers) none p)
      (.ok (⟨handlers, classes⟩, rest)) := by
  cases n with
  | zero => exact .truncated
  | succ n =>
    have hkey := nextKey_cut p q false
    rw [hp, nextKey_next (isBlank_newline width 1)] at hkey
    refine hkey.bind_ok ?_
    rintro _ (@⟨⟨_, r⟩, _, ⟨rfl, hr⟩⟩ | _)
    refine (memberOf_cut hr fun r hr => readNames_cut_text hr).bind_ok ?_
    rintro ⟨_, r⟩ ⟨rfl, hr⟩
    exact readMembers_cut_end (isBlank_newline width 0) hr n handlers classes

theorem readMembers_cut {width : Nat} {d : Database}
    (hp : p ++ q = encode (newline width 1) ++
      (encode (renderString "external_methods") ++ byte ':' :: ([byte ' '] ++
        (encode (methodsText width 1 d.handlers) ++ byte ',' :: (encode (newline width 1) ++
          (encode (renderString "classes") ++ byte ':' :: ([byte ' '] ++
            (encode (namesText width 1 d.classes) ++
              (encode (newline width 0) ++ byte '\x7d' :: rest))))))))) (n : Nat) :
    AtCut (Before q) (readMembers n true none none p) (.ok (d, rest)) := by
  cases n with
  | zero => exact .truncated
  | succ n =>
    have hkey := nextKey_cut p q true
    rw [hp, nextKey_first (isBlank_newline width 1)] at hkey
    refine hkey.bind_ok ?_
    rintro _ (@⟨⟨_, r⟩, _, ⟨rfl, hr⟩⟩ | _)
    refine (memberOf_cut hr fun r hr => readMethods_cut hr).bind_ok ?_
    rintro ⟨_, r⟩ ⟨rfl, hr⟩
    exact readMembers_cut_classes hr n d.handlers

end

/-! ## Databases -/

theorem readDatabase_cut {d : Database} {p q : List UInt8} (hp : p ++ q = encode d.render.toList) :
    AtCut (Before q) (readDatabase p) (.ok (d, [])) := by
  rw [render, pretty, String.toList_ofList, encode_prettyAt] at hp
  rw [readDatabase]
  rcases skipBlank_cut_cons isBlank_nil (by decide) hp with h | ⟨t, h, ht⟩
  · rw [h]
    exact .truncated
  · rw [h]
    exact readMembers_cut ht _

/-- The text of a database without its end is found to end too early. -/
theorem decode_of_append {d : Database} {p q : List UInt8} (hp : p ++ q = encode d.render.toList)
    (hq : q ≠ []) : decode p = .error .truncated := by
  rcases readDatabase_cut hp _ rfl with h | ⟨⟨_, r⟩, -, -, hr⟩
  · rw [decode, h]
    rfl
  · exact absurd (List.append_eq_nil_iff.1 hr).2 hq

/-- **Of all beginnings of what was saved only the whole loads.** Every other one is found to end
too early, wherever it is cut. -/
theorem load_of_prefix {d : Database} {t t' : FileTree} {path : String}
    (hsave : d.save t path = .ok t') {bytes p : List UInt8} (hbytes : t'.read path = .ok bytes)
    (hp : p <+: bytes) {u : FileTree} {name : String} (hread : u.read name = .ok p) :
    load u name = if p = bytes then .ok d else .error (.content .truncated) := by
  obtain rfl : encode d.render.toList = bytes :=
    Except.ok.inj ((FileTree.read_of_write hsave).symm.trans hbytes)
  rw [load, hread]
  show (decode p).mapError LoadError.content = _
  split
  · next h => rw [h, decode_encode_render]; rfl
  · next h =>
    obtain ⟨q, hq⟩ := hp
    rw [decode_of_append hq fun hnil => h (by rw [← hq, hnil, List.append_nil])]
    rfl

/-- A database whose text holds a character of two bytes. -/
def accented : Database where
  handlers := ["é"]
  classes := []

/-- The text is cut between the two bytes of a character. -/
theorem load_of_prefix_insideCharacter :
    ∃ t u p, accented.save FileTree.empty "out.json" = .ok t ∧
      t.read "out.json" = .ok (encode accented.render.toList) ∧
        p <+: encode accented.render.toList ∧ p.getLast? = some 0xC3 ∧
          u.read "out.json" = .ok p ∧ load u "out.json" = .error (.content .truncated) := by
  obtain ⟨t, ht⟩ := exists_write_outJson (encode accented.render.toList)
  obtain ⟨u, hu⟩ := exists_write_outJson ((encode accented.render.toList).take 63)
  have hbytes := FileTree.read_of_write ht
  have hread := FileTree.read_of_write hu
  have htext : accented.render.toList = accented.toValue.prettyAt 4 0 := by
    rw [render, pretty, String.toList_ofList]
  have hlast : ((encode accented.render.toList).take 63).getLast? = some 0xC3 := by
    rw [htext]
    decide
  have hne : (encode accented.render.toList).take 63 ≠ encode accented.render.toList := by
    have hlength : 63 < (encode accented.render.toList).length := by
      rw [htext]
      decide
    intro h
    have := congrArg List.length h
    rw [List.length_take] at this
    omega
  have hload := load_of_prefix (d := accented) ht hbytes (List.take_prefix 63 _) hread
  rw [if_neg hne] at hload
  exact ⟨t, u, _, ht, hbytes, List.take_prefix 63 _, hlast, hread, hload⟩

end LayoutShell.Layout.Database
