import LayoutShell.Text.Utf8
import Mathlib.Tactic.SplitIfs

/-!
# UTF-8 there and back

* `decode_encodeChar_append` takes one character off a text of bytes.
* `decode_encode`: the bytes of a text decode to the text.
* `encodeChar_of_ascii` and `mem_encodeChar` say which bytes a character is written with.
-/

namespace LayoutShell.Text

/-! ## Bytes -/

theorem toNat_toUInt8 {n : Nat} (h : n < 256) : n.toUInt8.toNat = n := by
  simp [Nat.mod_eq_of_lt h]

/-- Comparisons of a byte with another are comparisons of their numbers. -/
theorem toUInt8_lt_iff {n : Nat} (h : n < 256) (b : UInt8) : n.toUInt8 < b ↔ n < b.toNat := by
  rw [UInt8.lt_iff_toNat_lt, toNat_toUInt8 h]

theorem le_toUInt8_iff {n : Nat} (h : n < 256) (b : UInt8) : b ≤ n.toUInt8 ↔ b.toNat ≤ n := by
  rw [UInt8.le_iff_toNat_le, toNat_toUInt8 h]

theorem toUInt8_mem_range {n : Nat} (h : n < 256) {low high : UInt8}
    (hn : low.toNat ≤ n ∧ n < high.toNat) : low ≤ n.toUInt8 ∧ n.toUInt8 < high :=
  ⟨(le_toUInt8_iff h low).2 hn.1, (toUInt8_lt_iff h high).2 hn.2⟩

theorem continuation_toUInt8 {n : Nat} (h : n < 64) : continuation (0x80 + n).toUInt8 = some n := by
  have hn : 0x80 + n < 256 := by omega
  have hrange : 0x80 ≤ (0x80 + n).toUInt8 ∧ (0x80 + n).toUInt8 < 0xC0 :=
    toUInt8_mem_range hn ⟨Nat.le_add_right _ _, Nat.add_lt_add_left h 0x80⟩
  rw [continuation, if_pos hrange, toNat_toUInt8 hn, Nat.add_sub_cancel_left]

theorem charAtLeast_toNat {c : Char} {least : Nat} (h : least ≤ c.toNat) :
    charAtLeast least c.toNat = some c := by
  rw [charAtLeast, if_pos ⟨h, c.valid⟩, Char.ofNat_toNat]

/-! ## Characters -/

theorem toNat_lt (c : Char) : c.toNat < 0x110000 := by
  rcases c.valid with h | h
  · exact Nat.lt_trans h (by decide)
  · exact h.2

theorem encodeChar_of_ascii {c : Char} (h : c.toNat < 0x80) : encodeChar c = [c.toNat.toUInt8] :=
  if_pos h

/-- Only ASCII characters are written with ASCII bytes. -/
theorem mem_encodeChar {c : Char} {b : UInt8} (hb : b ∈ encodeChar c) :
    c.toNat < 0x80 ∧ b = c.toNat.toUInt8 ∨ 0x80 ≤ b := by
  have hhigh : ∀ {n : Nat}, n < 256 → 0x80 ≤ n → b = n.toUInt8 → 0x80 ≤ b := by
    rintro n h hn rfl
    exact (le_toUInt8_iff h 0x80).2 hn
  have hmax : c.toNat < 0x110000 := toNat_lt c
  unfold encodeChar at hb
  dsimp only at hb
  split_ifs at hb with h₁ h₂ h₃
  · exact .inl ⟨h₁, List.mem_singleton.1 hb⟩
  all_goals
    simp only [List.mem_cons, List.not_mem_nil, or_false] at hb
    refine .inr ?_
  · rcases hb with hb | hb <;> exact hhigh (by omega) (by omega) hb
  · rcases hb with hb | hb | hb <;> exact hhigh (by omega) (by omega) hb
  · rcases hb with hb | hb | hb | hb <;> exact hhigh (by omega) (by omega) hb

section

variable {b b₁ b₂ b₃ : UInt8} {x₁ x₂ x₃ : Nat} {c : Char} {rest : List UInt8}

theorem decode_one (h : b < 0x80) :
    decode (b :: rest) = (decode rest).map (Char.ofNat b.toNat :: ·) := by
  rw [decode.eq_def]
  exact if_pos h

theorem decode_two (hb : 0xC0 ≤ b ∧ b < 0xE0) (h₁ : continuation b₁ = some x₁)
    (hc : charAtLeast 0x80 ((b.toNat - 0xC0) * 64 + x₁) = some c) :
    decode (b :: b₁ :: rest) = (decode rest).map (c :: ·) := by
  have hno : ¬b < 0x80 := UInt8.not_lt.2 (UInt8.le_trans (by decide) hb.1)
  rw [decode.eq_def]
  dsimp only
  rw [if_neg hno, if_pos hb, h₁, Option.bind_eq_bind, Option.bind_some, hc]
  cases decode rest <;> rfl

theorem decode_three (hb : 0xE0 ≤ b ∧ b < 0xF0) (h₁ : continuation b₁ = some x₁)
    (h₂ : continuation b₂ = some x₂)
    (hc : charAtLeast 0x800 ((b.toNat - 0xE0) * 4096 + x₁ * 64 + x₂) = some c) :
    decode (b :: b₁ :: b₂ :: rest) = (decode rest).map (c :: ·) := by
  have hno₁ : ¬b < 0x80 := UInt8.not_lt.2 (UInt8.le_trans (by decide) hb.1)
  have hno₂ : ¬(0xC0 ≤ b ∧ b < 0xE0) := fun h => UInt8.not_lt.2 hb.1 h.2
  rw [decode.eq_def]
  dsimp only
  rw [if_neg hno₁, if_neg hno₂, if_pos hb, h₁, Option.bind_eq_bind, Option.bind_some, h₂,
    Option.bind_eq_bind, Option.bind_some, hc]
  cases decode rest <;> rfl

theorem decode_four (hb : 0xF0 ≤ b ∧ b < 0xF8) (h₁ : continuation b₁ = some x₁)
    (h₂ : continuation b₂ = some x₂) (h₃ : continuation b₃ = some x₃)
    (hc : charAtLeast 0x10000
      ((b.toNat - 0xF0) * 262144 + x₁ * 4096 + x₂ * 64 + x₃) = some c) :
    decode (b :: b₁ :: b₂ :: b₃ :: rest) = (decode rest).map (c :: ·) := by
  have hno₁ : ¬b < 0x80 := UInt8.not_lt.2 (UInt8.le_trans (by decide) hb.1)
  have hno₂ : ¬(0xC0 ≤ b ∧ b < 0xE0) := fun h =>
    UInt8.not_lt.2 (UInt8.le_trans (by decide) hb.1) h.2
  have hno₃ : ¬(0xE0 ≤ b ∧ b < 0xF0) := fun h => UInt8.not_lt.2 hb.1 h.2
  rw [decode.eq_def]
  dsimp only
  -- the numbers are too large to be compared by reduction, so each result is put in by name
  rw [if_neg hno₁, if_neg hno₂, if_neg hno₃, if_pos hb, h₁, Option.bind_eq_bind, Option.bind_some,
    h₂, Option.bind_eq_bind, Option.bind_some, h₃, Option.bind_eq_bind, Option.bind_some, hc]
  cases decode rest <;> rfl

end

theorem decode_encodeChar_append (c : Char) (rest : List UInt8) :
    decode (encodeChar c ++ rest) = (decode rest).map (c :: ·) := by
  have hmax : c.toNat < 0x110000 := toNat_lt c
  have hmod : ∀ n : Nat, n % 64 < 64 := fun n => Nat.mod_lt n (by decide)
  unfold encodeChar
  dsimp only
  split_ifs with h₁ h₂ h₃
  · rw [List.singleton_append, decode_one ((toUInt8_lt_iff (by omega) _).2 h₁),
      toNat_toUInt8 (by omega), Char.ofNat_toNat]
  · have hn : 0xC0 + c.toNat / 64 < 256 := by omega
    have hsum : (0xC0 + c.toNat / 64 - 0xC0) * 64 + c.toNat % 64 = c.toNat := by omega
    refine decode_two (toUInt8_mem_range hn ⟨?_, ?_⟩) (continuation_toUInt8 (hmod _)) ?_
    · exact Nat.le_add_right _ _
    · show 0xC0 + c.toNat / 64 < 0xE0
      omega
    · rw [toNat_toUInt8 hn, hsum]
      exact charAtLeast_toNat (Nat.not_lt.1 h₁)
  · have hn : 0xE0 + c.toNat / 4096 < 256 := by omega
    have hsum : (0xE0 + c.toNat / 4096 - 0xE0) * 4096 + c.toNat / 64 % 64 * 64 + c.toNat % 64 =
      c.toNat := by omega
    refine decode_three (toUInt8_mem_range hn ⟨?_, ?_⟩) (continuation_toUInt8 (hmod _))
      (continuation_toUInt8 (hmod _)) ?_
    · exact Nat.le_add_right _ _
    · show 0xE0 + c.toNat / 4096 < 0xF0
      omega
    · rw [toNat_toUInt8 hn, hsum]
      exact charAtLeast_toNat (Nat.not_lt.1 h₂)
  · have hn : 0xF0 + c.toNat / 262144 < 256 := by omega
    have hsum : (0xF0 + c.toNat / 262144 - 0xF0) * 262144 + c.toNat / 4096 % 64 * 4096 +
      c.toNat / 64 % 64 * 64 + c.toNat % 64 = c.toNat := by omega
    refine decode_four (toUInt8_mem_range hn ⟨?_, ?_⟩) (continuation_toUInt8 (hmod _))
      (continuation_toUInt8 (hmod _)) (continuation_toUInt8 (hmod _)) ?_
    · exact Nat.le_add_right _ _
    · show 0xF0 + c.toNat / 262144 < 0xF8
      omega
    · rw [toNat_toUInt8 hn, hsum]
      exact charAtLeast_toNat (Nat.not_lt.1 h₃)

/-! ## Texts -/

@[simp]
theorem encode_nil : encode [] = [] := rfl

@[simp]
theorem encode_cons (c : Char) (s : List Char) : encode (c :: s) = encodeChar c ++ encode s :=
  List.flatMap_cons

@[simp]
theorem encode_append (s t : List Char) : encode (s ++ t) = encode s ++ encode t :=
  List.flatMap_append

/-- **The bytes of a text decode to the text.** -/
theorem decode_encode (s : List Char) : decode (encode s) = some s := by
  induction s with
  | nil => rfl
  | cons c s ih => rw [encode_cons, decode_encodeChar_append, ih, Option.map_some]

end LayoutShell.Text
