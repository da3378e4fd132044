/-!
# UTF-8

The bytes of a text and the text of bytes.

* `encode` writes each character in one to four bytes.
* `decode` reads bytes back and refuses truncated, overlong and surrogate forms.
* `size` counts the bytes of a text without writing them.
-/

namespace LayoutShell.Text

/-- The UTF-8 bytes of a character. -/
def encodeChar (c : Char) : List UInt8 :=
  let n := c.toNat
  if n < 0x80 then [n.toUInt8]
  else if n < 0x800 then [(0xC0 + n / 64).toUInt8, (0x80 + n % 64).toUInt8]
  else if n < 0x10000 then
    [(0xE0 + n / 4096).toUInt8, (0x80 + n / 64 % 64).toUInt8, (0x80 + n % 64).toUInt8]
  else
    [(0xF0 + n / 262144).toUInt8, (0x80 + n / 4096 % 64).toUInt8, (0x80 + n / 64 % 64).toUInt8,
      (0x80 + n % 64).toUInt8]

/-- The UTF-8 bytes of a text. -/
def encode (s : List Char) : List UInt8 := s.flatMap encodeChar

/-- The payload of a continuation byte. -/
def continuation (b : UInt8) : Option Nat :=
  if 0x80 ≤ b ∧ b < 0xC0 then some (b.toNat - 0x80) else none

/-- The character with number `n`, if `n` is at least `least` and no surrogate. -/
def charAtLeast (least n : Nat) : Option Char :=
  if least ≤ n ∧ n.isValidChar then some (Char.ofNat n) else none

/-- The text of UTF-8 bytes, if they are UTF-8. -/
def decode : List UInt8 → Option (List Char)
  | [] => some []
  | b :: rest =>
    if b < 0x80 then
      (decode rest).map (Char.ofNat b.toNat :: ·)
    else if 0xC0 ≤ b ∧ b < 0xE0 then
      match rest with
      | b₁ :: rest => do
        let c ← charAtLeast 0x80 ((b.toNat - 0xC0) * 64 + (← continuation b₁))
        return c :: (← decode rest)
      | _ => none
    else if 0xE0 ≤ b ∧ b < 0xF0 then
      match rest with
      | b₁ :: b₂ :: rest => do
        let c ← charAtLeast 0x800
          ((b.toNat - 0xE0) * 4096 + (← continuation b₁) * 64 + (← continuation b₂))
        return c :: (← decode rest)
      | _ => none
    else if 0xF0 ≤ b ∧ b < 0xF8 then
      match rest with
      | b₁ :: b₂ :: b₃ :: rest => do
        let c ← charAtLeast 0x10000
          ((b.toNat - 0xF0) * 262144 + (← continuation b₁) * 4096 + (← continuation b₂) * 64 +
            (← continuation b₃))
        return c :: (← decode rest)
      | _ => none
    else none

/-- The number of UTF-8 bytes of a text. -/
def size : List Char → Nat
  | [] => 0
  | c :: rest => c.utf8Size + size rest

/-- The first UTF-8 byte of a character, read as the character with that number. -/
def leadingByte (c : Char) : Char :=
  Char.ofNat ((encodeChar c).headD 0).toNat

end LayoutShell.Text
