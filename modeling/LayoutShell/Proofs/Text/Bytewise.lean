import LayoutShell.Proofs.Text.ByteOrder
import LayoutShell.Proofs.Text.Cutting
import Mathlib.Data.List.DropRight
import Mathlib.Data.List.Infix

/-!
# Cutting the bytes of a text

A text is cut at ASCII characters. Its bytes may be cut at the same places, one byte at a time and
with no regard to characters, since the bytes of all other characters are no ASCII bytes.

* `encodeChar_cases` says which bytes a character is written with, and `encode_injective` that a
  text is determined by its bytes.
* `Agree` relates a property of bytes to a property of characters. Bytes are then taken, dropped and
  compared like characters (`takeWhile_encode`, `dropWhile_encode`, `rdropWhile_encode`).
* `cut` looks for a place in a text while it keeps a state, and `cut_encode` says that it finds the
  same place in the bytes.
-/

namespace LayoutShell.Text

/-! ## The bytes of a character -/

theorem toUInt8_eq (c : Char) : c.toUInt8 = c.toNat.toUInt8 := rfl

theorem toUInt8_lt {c : Char} (h : c.toNat < 0x80) : c.toUInt8 < 0x80 := by
  rw [toUInt8_eq]
  exact (toUInt8_lt_iff (by omega) 0x80).2 h

theorem toUInt8_inj {c d : Char} (hc : c.toNat < 0x80) (hd : d.toNat < 0x80) :
    c.toUInt8 = d.toUInt8 ↔ c = d := by
  constructor
  · intro h
    have hnat := congrArg UInt8.toNat h
    rw [toUInt8_eq, toUInt8_eq, toNat_toUInt8 (by omega), toNat_toUInt8 (by omega)] at hnat
    exact Char.toNat_inj.1 hnat
  · rintro rfl
    rfl

theorem ofNat_toUInt8 {c : Char} (h : c.toNat < 0x80) : Char.ofNat c.toUInt8.toNat = c := by
  rw [toUInt8_eq, toNat_toUInt8 (by omega), Char.ofNat_toNat]

/-- A character is written with its own byte, or with several bytes that are no ASCII. -/
theorem encodeChar_cases (c : Char) :
    c.toNat < 0x80 ∧ encodeChar c = [c.toUInt8] ∨
      0x80 ≤ c.toNat ∧ ∀ b ∈ encodeChar c, 0x80 ≤ b := by
  rcases Nat.lt_or_ge c.toNat 0x80 with h | h
  · exact .inl ⟨h, encodeChar_of_ascii h⟩
  · refine .inr ⟨h, fun b hb => ?_⟩
    rcases mem_encodeChar hb with ⟨hlt, -⟩ | hb
    · omega
    · exact hb

/-- Only the first byte of a character can be ASCII. -/
theorem exists_encodeChar_eq (c : Char) :
    ∃ b tail, encodeChar c = b :: tail ∧ ∀ d ∈ tail, 0x80 ≤ d := by
  rcases encodeChar_cases c with ⟨-, h⟩ | ⟨-, h⟩
  · exact ⟨_, [], h, by simp⟩
  · obtain ⟨b, tail, hbytes⟩ := List.exists_cons_of_ne_nil (encodeChar_ne_nil c)
    exact ⟨b, tail, hbytes, fun d hd => h d (hbytes ▸ List.mem_cons_of_mem _ hd)⟩

theorem ne_toUInt8_of_high {b : UInt8} (hb : 0x80 ≤ b) {d : Char} (hd : d.toNat < 0x80) :
    b ≠ d.toUInt8 := by
  rintro rfl
  exact UInt8.not_lt.2 hb (toUInt8_lt hd)

/-- The first byte of a character is that of an ASCII character only if both are the same. -/
theorem head_eq_toUInt8_iff {c : Char} {b : UInt8} {tail : List UInt8}
    (hbytes : encodeChar c = b :: tail) {d : Char} (hd : d.toNat < 0x80) :
    b = d.toUInt8 ↔ c = d := by
  rcases encodeChar_cases c with ⟨hc, hchar⟩ | ⟨hc, hchar⟩
  · obtain ⟨rfl, -⟩ := List.cons.inj (hbytes.symm.trans hchar)
    exact toUInt8_inj hc hd
  · have hb : 0x80 ≤ b := hchar b (hbytes ▸ List.mem_cons_self)
    refine iff_of_false (ne_toUInt8_of_high hb hd) ?_
    rintro rfl
    omega

/-! ## The bytes of a text -/

theorem encode_injective {s t : List Char} (h : encode s = encode t) : s = t := by
  have hdecode := congrArg decode h
  rwa [decode_encode, decode_encode, Option.some.injEq] at hdecode

theorem encode_eq_iff {s t : List Char} : encode s = encode t ↔ s = t :=
  ⟨encode_injective, fun h => h ▸ rfl⟩

@[simp]
theorem encode_eq_nil_iff {s : List Char} : encode s = [] ↔ s = [] :=
  encode_eq_iff (t := [])

theorem isEmpty_encode (s : List Char) : (encode s).isEmpty = s.isEmpty := by
  rw [Bool.eq_iff_iff, List.isEmpty_iff, List.isEmpty_iff, encode_eq_nil_iff]

theorem encode_cons_of_ascii {c : Char} (h : c.toNat < 0x80) (s : List Char) :
    encode (c :: s) = c.toUInt8 :: encode s := by
  rw [encode_cons, encodeChar_of_ascii h]
  rfl

theorem length_encodeChar (c : Char) : (encodeChar c).length = c.utf8Size := by
  have hval : c.val.toNat = c.toNat := rfl
  unfold encodeChar Char.utf8Size
  simp only [UInt32.le_iff_toNat_le, hval]
  split_ifs with h₁ h₂ h₃ <;> simp_all <;> omega

/-- The size of a text is the number of its bytes. -/
theorem length_encode (s : List Char) : (encode s).length = size s := by
  induction s with
  | nil => rfl
  | cons c s ih => rw [encode_cons, List.length_append, length_encodeChar, ih, size]

/-! ## Properties of bytes and of characters -/

/-- All bytes of a character have the property `q` exactly if the character has the property `p`. -/
def Agree (q : UInt8 → Bool) (p : Char → Bool) : Prop := ∀ c, ∀ b ∈ encodeChar c, q b = p c

namespace Agree

variable {q q' : UInt8 → Bool} {p p' : Char → Bool}

theorem ascii {d : Char} (hd : d.toNat < 0x80) : Agree (· == d.toUInt8) (· == d) := by
  intro c b hb
  rw [Bool.eq_iff_iff, beq_iff_eq, beq_iff_eq]
  rcases encodeChar_cases c with ⟨hc, hbytes⟩ | ⟨hc, hbytes⟩
  · rw [hbytes, List.mem_singleton] at hb
    rw [hb, toUInt8_inj hc hd]
  · refine iff_of_false (ne_toUInt8_of_high (hbytes b hb) hd) ?_
    rintro rfl
    omega

theorem or (h : Agree q p) (h' : Agree q' p') : Agree (fun b => q b || q' b) fun c => p c || p' c :=
  fun c b hb => by simp only [h c b hb, h' c b hb]

theorem and (h : Agree q p) (h' : Agree q' p') :
    Agree (fun b => q b && q' b) fun c => p c && p' c :=
  fun c b hb => by simp only [h c b hb, h' c b hb]

theorem not (h : Agree q p) : Agree (fun b => !q b) fun c => !p c :=
  fun c b hb => by simp only [h c b hb]

theorem congr (h : Agree q p) (hq : ∀ b, q b = q' b) (hp : ∀ c, p c = p' c) : Agree q' p' :=
  fun c b hb => by rw [← hq, ← hp, h c b hb]

theorem ascii_ne {d : Char} (hd : d.toNat < 0x80) :
    Agree (· != d.toUInt8) fun c => decide (c ≠ d) :=
  (ascii hd).not.congr (fun _ => rfl) fun c => by by_cases h : c = d <;> simp [h]

end Agree

section

variable {q : UInt8 → Bool} {p : Char → Bool}

theorem takeWhile_encode (h : Agree q p) (s : List Char) :
    (encode s).takeWhile q = encode (s.takeWhile p) := by
  induction s with
  | nil => rfl
  | cons c s ih =>
    rw [encode_cons]
    cases hc : p c with
    | true =>
      have hall : ∀ b ∈ encodeChar c, q b = true := fun b hb => (h c b hb).trans hc
      rw [List.takeWhile_append_of_pos hall, ih, List.takeWhile_cons_of_pos hc, encode_cons]
    | false =>
      obtain ⟨b, tail, hbytes, -⟩ := exists_encodeChar_eq c
      have hb : ¬q b = true := by simp [h c b (hbytes ▸ List.mem_cons_self), hc]
      rw [hbytes, List.cons_append, List.takeWhile_cons_of_neg hb,
        List.takeWhile_cons_of_neg (by simp [hc]), encode_nil]

theorem dropWhile_encode (h : Agree q p) (s : List Char) :
    (encode s).dropWhile q = encode (s.dropWhile p) := by
  have hbytes := List.takeWhile_append_dropWhile (p := q) (l := encode s)
  have hchars := congrArg encode (List.takeWhile_append_dropWhile (p := p) (l := s))
  rw [encode_append] at hchars
  rw [takeWhile_encode h] at hbytes
  exact List.append_cancel_left (hbytes.trans hchars.symm)

/-- What is dropped up to a character leaves that character at the front. -/
theorem eq_of_dropWhile_eq_cons {c d : Char} {s t : List Char}
    (h : s.dropWhile (fun c => decide (c ≠ d)) = c :: t) : c = d := by
  have hhead := List.head?_dropWhile_not (fun c => decide (c ≠ d)) s
  rw [h] at hhead
  simpa using hhead

theorem all_encode (h : Agree q p) (s : List Char) : (encode s).all q = s.all p := by
  induction s with
  | nil => rfl
  | cons c s ih =>
    have hchar : (encodeChar c).all q = p c := by
      obtain ⟨b, tail, hbytes, -⟩ := exists_encodeChar_eq c
      rw [Bool.eq_iff_iff, List.all_eq_true]
      constructor
      · intro hall
        have hb : b ∈ encodeChar c := hbytes ▸ List.mem_cons_self
        rw [← h c b hb, hall b hb]
      · intro hc b hb
        rw [h c b hb, hc]
    rw [encode_cons, List.all_append, List.all_cons, ih, hchar]

theorem rdropWhile_encode (h : Agree q p) (s : List Char) :
    (encode s).rdropWhile q = encode (dropRightWhile p s) := by
  induction s using List.reverseRecOn with
  | nil => rfl
  | append_singleton s c ih =>
    rw [encode_append, dropRightWhile_append]
    cases hc : p c with
    | true =>
      have hall : ∀ b ∈ encode [c], q b = true := by
        simpa using fun b hb => (h c b hb).trans hc
      have hdrop : dropRightWhile p [c] = [] := by simp [dropRightWhile, hc]
      rw [if_pos hdrop, ← ih, List.rdropWhile, List.rdropWhile, List.reverse_append,
        List.dropWhile_append_of_pos (by simpa using hall)]
    | false =>
      have hdrop : dropRightWhile p [c] = [c] := by simp [dropRightWhile, hc]
      have hnot : ∀ b ∈ encode [c], ¬q b = true := by
        simpa using fun b hb => (h c b hb).trans hc
      rw [if_neg (by simp [hdrop]), hdrop, encode_append]
      refine List.rdropWhile_eq_self_iff.2 fun hne => hnot _ ?_
      rw [List.getLast_append_of_ne_nil _ (by simp [encodeChar_ne_nil])]
      exact List.getLast_mem _

end

/-! ## The end of a text -/

theorem getLast?_encode {d : Char} (hd : d.toNat < 0x80) (s : List Char) :
    (encode s).getLast? = some d.toUInt8 ↔ s.getLast? = some d := by
  induction s using List.reverseRecOn with
  | nil => simp
  | append_singleton s c =>
    rw [encode_append, List.getLast?_concat, Option.some.injEq]
    obtain ⟨bytes, b, hbytes⟩ : ∃ bytes b, encode [c] = bytes ++ [b] :=
      (List.eq_nil_or_concat' _).resolve_left (by simp [encodeChar_ne_nil])
    have hb : b ∈ encodeChar c := by
      have hmem : b ∈ encode [c] := hbytes ▸ List.mem_append_right _ List.mem_cons_self
      simpa using hmem
    rw [hbytes, ← List.append_assoc, List.getLast?_concat, Option.some.injEq]
    simpa using Agree.ascii hd c b hb

theorem dropLast_encode {d : Char} (hd : d.toNat < 0x80) {s : List Char}
    (h : s.getLast? = some d) : (encode s).dropLast = encode s.dropLast := by
  obtain ⟨t, rfl⟩ := List.getLast?_eq_some_iff.1 h
  rw [encode_append, List.dropLast_concat]
  simp [encodeChar_of_ascii hd]

/-! ## The beginning of a text -/

theorem isPrefixOf_encode {w : List Char} (hw : ∀ c ∈ w, c.toNat < 0x80) (s : List Char) :
    (w.map Char.toUInt8).isPrefixOf (encode s) = w.isPrefixOf s := by
  induction w generalizing s with
  | nil => simp
  | cons d w ih =>
    rw [List.forall_mem_cons] at hw
    cases s with
    | nil => rfl
    | cons c s =>
      rw [encode_cons]
      rcases encodeChar_cases c with ⟨hc, hbytes⟩ | ⟨hc, hbytes⟩
      · have hhead : (d.toUInt8 == c.toUInt8) = (d == c) := by
          rw [Bool.eq_iff_iff, beq_iff_eq, beq_iff_eq, toUInt8_inj hw.1 hc]
        rw [hbytes, List.map_cons, List.singleton_append, List.isPrefixOf, List.isPrefixOf, hhead,
          ih hw.2]
      · obtain ⟨b, tail, heq⟩ := List.exists_cons_of_ne_nil (encodeChar_ne_nil c)
        have hb : d.toUInt8 ≠ b := by
          refine Ne.symm (ne_toUInt8_of_high (hbytes b ?_) hw.1)
          rw [heq]
          exact List.mem_cons_self
        have hdc : d ≠ c := by
          rintro rfl
          omega
        rw [heq, List.map_cons, List.cons_append, List.isPrefixOf, List.isPrefixOf,
          beq_false_of_ne hb, beq_false_of_ne hdc, Bool.false_and, Bool.false_and]

theorem encode_of_ascii {w : List Char} (hw : ∀ c ∈ w, c.toNat < 0x80) :
    encode w = w.map Char.toUInt8 := by
  induction w with
  | nil => rfl
  | cons c w ih =>
    rw [List.forall_mem_cons] at hw
    rw [encode_cons_of_ascii hw.1, ih hw.2, List.map_cons]

theorem drop_encode {w : List Char} (hw : ∀ c ∈ w, c.toNat < 0x80) {s : List Char}
    (h : w.isPrefixOf s = true) : (encode s).drop w.length = encode (s.drop w.length) := by
  obtain ⟨t, rfl⟩ := List.isPrefixOf_iff_prefix.1 h
  rw [encode_append, encode_of_ascii hw, List.drop_left]
  exact List.drop_left' (by simp)

/-! ## Places in a text -/

section Cut

variable {α σ τ : Type}

/-- The text before the place where it is cut, and the text after it. The place is the first at
which `stop` gives the text after it, where `next` changes the state on the way. -/
def cut (stop : σ → List α → Option (List α)) (next : σ → α → σ) :
    σ → List α → Option (List α × List α)
  | _, [] => none
  | state, a :: rest =>
    match stop state (a :: rest) with
    | some after => some ([], after)
    | none => (cut stop next (next state a) rest).map fun (before, after) => (a :: before, after)

theorem length_cut {stop : σ → List α → Option (List α)} {next : σ → α → σ}
    (hstop : ∀ state s after, stop state s = some after → after.length ≤ s.length) {state : σ}
    {s before after : List α} (h : cut stop next state s = some (before, after)) :
    after.length ≤ s.length := by
  induction s generalizing state before with
  | nil => cases h
  | cons a s ih =>
    rw [cut] at h
    split at h
    · next hcut =>
      cases h
      exact hstop _ _ _ hcut
    · obtain ⟨⟨before', after'⟩, hrest, heq⟩ := Option.map_eq_some_iff.1 h
      cases heq
      exact Nat.le_succ_of_le (ih hrest)

/-- Elements at which a text is not cut, and which leave the state alone, are passed over. -/
theorem cut_append_of_pass {stop : σ → List α → Option (List α)} {next : σ → α → σ} {state : σ}
    {s : List α} (h : ∀ a ∈ s, (∀ rest, stop state (a :: rest) = none) ∧ next state a = state)
    (rest : List α) :
    cut stop next state (s ++ rest) =
      (cut stop next state rest).map fun (before, after) => (s ++ before, after) := by
  induction s with
  | nil => simp
  | cons a s ih =>
    rw [List.forall_mem_cons] at h
    rw [List.cons_append, cut, h.1.1, h.1.2, ih h.2, Option.map_map]
    rfl

/-- **The bytes of a text are cut where the text is cut**, if both are cut at ASCII characters and
only these change the state. -/
theorem cut_encode {stop : σ → List Char → Option (List Char)} {next : σ → Char → σ}
    {stop' : τ → List UInt8 → Option (List UInt8)} {next' : τ → UInt8 → τ} {R : σ → τ → Prop}
    (hstop : ∀ state state' c s, R state state' → c.toNat < 0x80 →
      stop' state' (c.toUInt8 :: encode s) = (stop state (c :: s)).map encode)
    (hnext : ∀ state state' c, R state state' → c.toNat < 0x80 →
      R (next state c) (next' state' c.toUInt8))
    (hpass : ∀ state state' c s, R state state' → 0x80 ≤ c.toNat →
      stop state (c :: s) = none ∧ next state c = state)
    (hpass' : ∀ state state' b s, R state state' → 0x80 ≤ b →
      stop' state' (b :: s) = none ∧ next' state' b = state')
    {state : σ} {state' : τ} (hR : R state state') (s : List Char) :
    cut stop' next' state' (encode s) =
      (cut stop next state s).map fun p => (encode p.1, encode p.2) := by
  induction s generalizing state state' with
  | nil => rfl
  | cons c s ih =>
    rw [encode_cons, cut]
    rcases encodeChar_cases c with ⟨hc, hbytes⟩ | ⟨hc, hbytes⟩
    · rw [hbytes, List.singleton_append, cut, hstop state state' c s hR hc]
      cases stop state (c :: s) with
      | some after => rfl
      | none =>
        simp only [Option.map_none, ih (hnext state state' c hR hc), Option.map_map,
          Function.comp_def, encode_cons, hbytes, List.singleton_append]
    · have hbytes' : ∀ b ∈ encodeChar c,
          (∀ rest, stop' state' (b :: rest) = none) ∧ next' state' b = state' := fun b hb =>
        ⟨fun rest => (hpass' state state' b rest hR (hbytes b hb)).1,
          (hpass' state state' b [] hR (hbytes b hb)).2⟩
      obtain ⟨hnone, hsame⟩ := hpass state state' c s hR hc
      rw [cut_append_of_pass hbytes', ih hR, hnone, hsame]
      simp only [Option.map_map, Function.comp_def, encode_cons]

end Cut

end LayoutShell.Text
