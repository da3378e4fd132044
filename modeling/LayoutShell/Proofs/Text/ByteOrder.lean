import LayoutShell.Proofs.Text.Utf8
import Mathlib.Data.List.Lex

/-!
# The order of UTF-8 bytes

Texts are compared character by character. Their bytes are in the same order: a larger character
begins with a larger byte, or with the same bytes up to a larger one.

* `lex_lastByte`, `lex_lastTwoBytes` and `lex_lastThreeBytes` compare the continuation bytes of two
  characters that begin alike.
* `lex_encodeChar_append` compares two texts at their first characters.
* `lex_encode`: the bytes of a smaller text are smaller.
-/

namespace LayoutShell.Text

section

variable {m n : Nat}

/-- Bytes are compared from the left. -/
theorem lex_toUInt8_cons (hm : m < 256) (hn : n < 256) {s t : List UInt8}
    (h : m < n ∨ m = n ∧ List.Lex (· < ·) s t) :
    List.Lex (· < ·) (m.toUInt8 :: s) (n.toUInt8 :: t) := by
  rcases h with h | ⟨rfl, h⟩
  · refine .rel ?_
    rw [toUInt8_lt_iff hm, toNat_toUInt8 hn]
    exact h
  · exact .cons h

variable (h : m < n) (s t : List UInt8)

include h

theorem lex_lastByte (hlead : m / 64 = n / 64) :
    List.Lex (· < ·) ((0x80 + m % 64).toUInt8 :: s) ((0x80 + n % 64).toUInt8 :: t) :=
  lex_toUInt8_cons (by omega) (by omega) (.inl (by omega))

theorem lex_lastTwoBytes (hlead : m / 4096 = n / 4096) :
    List.Lex (· < ·) ((0x80 + m / 64 % 64).toUInt8 :: (0x80 + m % 64).toUInt8 :: s)
      ((0x80 + n / 64 % 64).toUInt8 :: (0x80 + n % 64).toUInt8 :: t) := by
  refine lex_toUInt8_cons (by omega) (by omega) ?_
  rcases Nat.lt_or_ge (m / 64) (n / 64) with hlt | hge
  · exact .inl (by omega)
  · exact .inr ⟨by omega, lex_lastByte h s t (by omega)⟩

theorem lex_lastThreeBytes (hlead : m / 262144 = n / 262144) :
    List.Lex (· < ·)
      ((0x80 + m / 4096 % 64).toUInt8 :: (0x80 + m / 64 % 64).toUInt8 ::
        (0x80 + m % 64).toUInt8 :: s)
      ((0x80 + n / 4096 % 64).toUInt8 :: (0x80 + n / 64 % 64).toUInt8 ::
        (0x80 + n % 64).toUInt8 :: t) := by
  refine lex_toUInt8_cons (by omega) (by omega) ?_
  rcases Nat.lt_or_ge (m / 4096) (n / 4096) with hlt | hge
  · exact .inl (by omega)
  · exact .inr ⟨by omega, lex_lastTwoBytes h s t (by omega)⟩

end

theorem lex_encodeChar_append {c d : Char} (h : c < d) (s t : List UInt8) :
    List.Lex (· < ·) (encodeChar c ++ s) (encodeChar d ++ t) := by
  have hlt : c.toNat < d.toNat := h
  have hmax : d.toNat < 0x110000 := toNat_lt d
  unfold encodeChar
  dsimp only
  -- a character of more bytes begins with a larger one, whatever the bytes after it
  split_ifs <;> first
    | omega
    | exact lex_toUInt8_cons (by omega) (by omega) (.inl (by omega))
    | refine lex_toUInt8_cons (by omega) (by omega) ?_
  · rcases Nat.lt_or_ge (c.toNat / 64) (d.toNat / 64) with hlead | hlead
    · exact .inl (by omega)
    · exact .inr ⟨by omega, lex_lastByte hlt s t (by omega)⟩
  · rcases Nat.lt_or_ge (c.toNat / 4096) (d.toNat / 4096) with hlead | hlead
    · exact .inl (by omega)
    · exact .inr ⟨by omega, lex_lastTwoBytes hlt s t (by omega)⟩
  · rcases Nat.lt_or_ge (c.toNat / 262144) (d.toNat / 262144) with hlead | hlead
    · exact .inl (by omega)
    · exact .inr ⟨by omega, lex_lastThreeBytes hlt s t (by omega)⟩

theorem encodeChar_ne_nil (c : Char) : encodeChar c ≠ [] := by
  unfold encodeChar
  dsimp only
  split_ifs <;> exact List.cons_ne_nil _ _

/-- **The bytes of a smaller text are smaller.** -/
theorem lex_encode {s t : List Char} (h : List.Lex (· < ·) s t) :
    List.Lex (· < ·) (encode s) (encode t) := by
  induction h with
  | @nil c t =>
    obtain ⟨b, bs, hbytes⟩ := List.exists_cons_of_ne_nil (encodeChar_ne_nil c)
    rw [encode_cons, hbytes]
    exact .nil
  | @cons c s t _ ih =>
    rw [encode_cons, encode_cons]
    exact ih.append_left _ _
  | @rel c s d t h =>
    rw [encode_cons, encode_cons]
    exact lex_encodeChar_append h _ _

end LayoutShell.Text
