import LayoutShell.Proofs.Text.Utf8

/-!
# Decoding with replacements

Bytes that are not UTF-8 can be decoded all the same: what begins like a character and does not go
on like one is replaced by U+FFFD, and so is a byte that begins no character. On the bytes of a text
nothing is replaced.

* `takeContinuing` takes the bytes that go on like a character.
* `decodeLossy` decodes any bytes, and `decodeLossy_encode` says that it gives back a text.
-/

namespace LayoutShell.Text

/-- The ranges in which the bytes after the first byte of a character lie, the first range being
narrower where the character would be overlong, a surrogate or too large. -/
def continuing (b : UInt8) : List (Nat × Nat) :=
  let n := b.toNat
  if n < 0xC2 then []
  else if n < 0xE0 then [(0x80, 0xBF)]
  else if n < 0xF0 then
    [(if n = 0xE0 then 0xA0 else 0x80, if n = 0xED then 0x9F else 0xBF), (0x80, 0xBF)]
  else if n < 0xF5 then
    [(if n = 0xF0 then 0x90 else 0x80, if n = 0xF4 then 0x8F else 0xBF), (0x80, 0xBF), (0x80, 0xBF)]
  else []

/-- The leading bytes that lie in the given ranges, each in its own. -/
def takeContinuing : List (Nat × Nat) → List UInt8 → List UInt8
  | (low, high) :: ranges, b :: rest =>
    if low ≤ b.toNat ∧ b.toNat ≤ high then b :: takeContinuing ranges rest else []
  | _, _ => []

/-- The text of any bytes. The longest beginning of a character that stands at the front is decoded
if it is a character, and replaced otherwise. -/
def decodeLossy : List UInt8 → List Char
  | [] => []
  | b :: rest =>
    let tail := takeContinuing (continuing b) rest
    (decode (b :: tail)).getD ['\uFFFD'] ++ decodeLossy (rest.drop tail.length)
termination_by bytes => bytes.length

section

variable {low high n : Nat} {ranges : List (Nat × Nat)} {tail rest : List UInt8}

theorem takeContinuing_cons (hn : n < 256) (h : low ≤ n ∧ n ≤ high)
    (htail : takeContinuing ranges (tail ++ rest) = tail) :
    takeContinuing ((low, high) :: ranges) (n.toUInt8 :: tail ++ rest) = n.toUInt8 :: tail := by
  have hrange : low ≤ n.toUInt8.toNat ∧ n.toUInt8.toNat ≤ high := by
    rw [toNat_toUInt8 hn]
    exact h
  rw [List.cons_append, takeContinuing, if_pos hrange, htail]

theorem takeContinuing_nil (rest : List UInt8) : takeContinuing [] ([] ++ rest) = [] := rfl

end

/-- After the first byte of a character its other bytes are taken. -/
theorem takeContinuing_encodeChar {c : Char} {b : UInt8} {tail : List UInt8}
    (h : encodeChar c = b :: tail) (rest : List UInt8) :
    takeContinuing (continuing b) (tail ++ rest) = tail := by
  have hvalid : c.toNat < 0xD800 ∨ 0xDFFF < c.toNat ∧ c.toNat < 0x110000 := c.valid
  have hlast : 0x80 ≤ 0x80 + c.toNat % 64 ∧ 0x80 + c.toNat % 64 ≤ 0xBF := by omega
  have hmiddle : 0x80 ≤ 0x80 + c.toNat / 64 % 64 ∧ 0x80 + c.toNat / 64 % 64 ≤ 0xBF := by omega
  unfold encodeChar at h
  dsimp only at h
  split_ifs at h with h₁ h₂ h₃
  · cases h
    rw [continuing, toNat_toUInt8 (by omega), if_pos (by omega)]
    rfl
  · cases h
    rw [continuing, toNat_toUInt8 (by omega), if_neg (by omega), if_pos (by omega)]
    exact takeContinuing_cons (by omega) hlast (takeContinuing_nil rest)
  · cases h
    rw [continuing, toNat_toUInt8 (by omega), if_neg (by omega), if_neg (by omega),
      if_pos (by omega)]
    refine takeContinuing_cons (by omega) ?_
      (takeContinuing_cons (by omega) hlast (takeContinuing_nil rest))
    -- no three bytes are overlong or a surrogate
    constructor <;> split_ifs <;> omega
  · cases h
    rw [continuing, toNat_toUInt8 (by omega), if_neg (by omega), if_neg (by omega),
      if_neg (by omega), if_pos (by omega)]
    refine takeContinuing_cons (by omega) ?_ (takeContinuing_cons (by omega) hmiddle
      (takeContinuing_cons (by omega) hlast (takeContinuing_nil rest)))
    -- no four bytes are overlong or too large
    constructor <;> split_ifs <;> omega

/-- **Nothing is replaced in the bytes of a text.** -/
theorem decodeLossy_encode (s : List Char) : decodeLossy (encode s) = s := by
  induction s with
  | nil => rw [encode_nil, decodeLossy]
  | cons c s ih =>
    rw [encode_cons]
    cases hbytes : encodeChar c with
    | nil =>
      have hdecode := decode_encodeChar_append c []
      rw [hbytes] at hdecode
      cases hdecode
    | cons b tail =>
      have hchar : decode (b :: tail) = some [c] := by
        rw [← hbytes, ← List.append_nil (encodeChar c), decode_encodeChar_append]
        rfl
      rw [List.cons_append, decodeLossy, takeContinuing_encodeChar hbytes, hchar, List.drop_left,
        ih]
      rfl

/-- A character that ends too early is replaced once, and the bytes of a surrogate one by one. -/
example : decodeLossy [0x61, 0xE2, 0x82, 0x62, 0xED, 0xA0, 0x80] =
    ['a', '\uFFFD', 'b', '\uFFFD', '\uFFFD', '\uFFFD'] := by
  cbv

end LayoutShell.Text
