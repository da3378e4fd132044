import LayoutShell.Json.Scan
import LayoutShell.Json.Value
import LayoutShell.Proofs.Results
import LayoutShell.Proofs.Text.Utf8

/-!
# JSON strings there and back

* `escapeChar_cases` says how a character is written inside a string.
* `readBytes_escapeChar` reads one character back.
* `readText_flatMap_escapeChar`: the text of a string is read back as it was, whatever follows.
-/

namespace LayoutShell.Json

open Text

/-! ## Bytes of ASCII characters -/

theorem encodeChar_eq_byte {c : Char} (h : c.toNat < 0x80) : encodeChar c = [byte c] :=
  encodeChar_of_ascii h

/-- The bytes that stand for themselves inside a string. -/
def IsPlain (b : UInt8) : Prop := b ≠ byte '"' ∧ b ≠ byte '\\' ∧ ¬b < 0x20

theorem isPlain_of_mem_encodeChar {c : Char} (h₁ : 0x20 ≤ c.toNat) (h₂ : c ≠ '"') (h₃ : c ≠ '\\')
    {b : UInt8} (hb : b ∈ encodeChar c) : IsPlain b := by
  rcases mem_encodeChar hb with ⟨hc, rfl⟩ | hb
  · have hlt : c.toNat < 256 := by omega
    have hne : ∀ d : Char, d.toNat < 256 → c ≠ d → c.toNat.toUInt8 ≠ byte d := by
      intro d hd hcd h
      have := congrArg UInt8.toNat h
      rw [byte, toNat_toUInt8 hlt, toNat_toUInt8 hd] at this
      exact hcd (Char.toNat_inj.1 this)
    refine ⟨hne _ (by decide) h₂, hne _ (by decide) h₃, ?_⟩
    rw [toUInt8_lt_iff hlt]
    exact Nat.not_lt.2 h₁
  · refine ⟨?_, ?_, ?_⟩
    · rintro rfl
      exact absurd hb (by decide)
    · rintro rfl
      exact absurd hb (by decide)
    · exact UInt8.not_lt.2 (UInt8.le_trans (by decide) hb)

/-! ## Reading characters -/

theorem readBytes_append {bs : List UInt8} (hbs : ∀ b ∈ bs, IsPlain b) (s : List UInt8) :
    readBytes (bs ++ s) = (readBytes s).map fun (bytes, rest) => (bs ++ bytes, rest) := by
  induction bs with
  | nil =>
    rw [List.nil_append]
    cases readBytes s <;> rfl
  | cons b bs ih =>
    rw [List.forall_mem_cons] at hbs
    obtain ⟨⟨h₁, h₂, h₃⟩, hbs⟩ := hbs
    rw [List.cons_append, readBytes, if_neg h₁, if_neg h₂, if_neg h₃, ih hbs]
    cases readBytes s <;> rfl

theorem readBytes_escape {s rest : List UInt8} {c : Char} (h : readEscape s = .ok (c, rest)) :
    readBytes (byte '\\' :: s) =
      (readBytes rest).map fun (bytes, rest) => (encodeChar c ++ bytes, rest) := by
  rw [readBytes, if_neg (by decide), if_pos rfl]
  split
  · next h' => rw [h] at h'; cases h'
  · next h' => rw [h] at h'; cases h'; rfl

theorem readBytes_quote (s : List UInt8) : readBytes (byte '"' :: s) = .ok ([], s) := by
  rw [readBytes, if_pos rfl]

/-! ## Writing characters -/

/-- A character is written with a short escape, by its number, or as it is. -/
theorem escapeChar_cases (c : Char) :
    (∃ x : Char, x.toNat < 0x80 ∧ escapeChar c = ['\\', x] ∧ shortEscape? (byte x) = some c) ∨
      (c.toNat < 0x20 ∧ escapeChar c = ['\\', 'u', '0', '0'] ++ hexPair c.toNat) ∨
        escapeChar c = [c] ∧ 0x20 ≤ c.toNat ∧ c ≠ '"' ∧ c ≠ '\\' := by
  by_cases h₁ : c = '"'
  · exact .inl ⟨'"', by decide, by rw [h₁]; rfl, by rw [h₁]; rfl⟩
  by_cases h₂ : c = '\\'
  · exact .inl ⟨'\\', by decide, by rw [h₂]; rfl, by rw [h₂]; rfl⟩
  by_cases h₃ : c = '\n'
  · exact .inl ⟨'n', by decide, by rw [h₃]; rfl, by rw [h₃]; rfl⟩
  by_cases h₄ : c = '\r'
  · exact .inl ⟨'r', by decide, by rw [h₄]; rfl, by rw [h₄]; rfl⟩
  by_cases h₅ : c = '\t'
  · exact .inl ⟨'t', by decide, by rw [h₅]; rfl, by rw [h₅]; rfl⟩
  by_cases h₆ : c = '\x08'
  · exact .inl ⟨'b', by decide, by rw [h₆]; rfl, by rw [h₆]; rfl⟩
  by_cases h₇ : c = '\x0c'
  · exact .inl ⟨'f', by decide, by rw [h₇]; rfl, by rw [h₇]; rfl⟩
  have he : escapeChar c =
      if c.toNat < 0x20 then ['\\', 'u', '0', '0'] ++ hexPair c.toNat else [c] := by
    rw [escapeChar, if_neg h₁, if_neg h₂, if_neg h₃, if_neg h₄, if_neg h₅, if_neg h₆, if_neg h₇]
  by_cases h : c.toNat < 0x20
  · exact .inr (.inl ⟨h, he.trans (if_pos h)⟩)
  · exact .inr (.inr ⟨he.trans (if_neg h), Nat.not_lt.1 h, h₁, h₂⟩)

theorem hexValue?_digitChar {d : Nat} (h : d < 16) :
    hexValue? (byte (Nat.digitChar d)) = some d ∧ (Nat.digitChar d).toNat < 0x80 := by
  revert d
  decide

/-- A character that is written by its number. -/
theorem readEscape_hexPair {c : Char} (h : c.toNat < 0x20) (s : List UInt8) :
    readEscape (encode ('u' :: '0' :: '0' :: hexPair c.toNat) ++ s) = .ok (c, s) := by
  obtain ⟨hhigh, hhigh'⟩ := hexValue?_digitChar (d := c.toNat / 16) (by omega)
  obtain ⟨hlow, hlow'⟩ := hexValue?_digitChar (d := c.toNat % 16) (by omega)
  have hbytes : encode ('u' :: '0' :: '0' :: hexPair c.toNat) ++ s =
      byte 'u' :: byte '0' :: byte '0' :: byte (Nat.digitChar (c.toNat / 16)) ::
        byte (Nat.digitChar (c.toNat % 16)) :: s := by
    simp [hexPair, encodeChar_eq_byte, hhigh', hlow']
  have hhex : readHex4 (byte '0' :: byte '0' :: byte (Nat.digitChar (c.toNat / 16)) ::
      byte (Nat.digitChar (c.toNat % 16)) :: s) = .ok (c.toNat, s) := by
    have hvalue : ((0 * 16 + 0) * 16 + c.toNat / 16) * 16 + c.toNat % 16 = c.toNat := by omega
    rw [readHex4, hhigh, hlow, show hexValue? (byte '0') = some 0 from rfl]
    dsimp only
    rw [hvalue]
  have hunicode : readUnicode (byte '0' :: byte '0' :: byte (Nat.digitChar (c.toNat / 16)) ::
      byte (Nat.digitChar (c.toNat % 16)) :: s) = .ok (c, s) := by
    rw [readUnicode, hhex]
    show (if _ then _ else _) = _
    rw [if_neg (by omega), if_pos (.inl (by omega)), Char.ofNat_toNat]
  rw [hbytes, readEscape, show shortEscape? (byte 'u') = none from rfl]
  exact (if_pos rfl).trans hunicode

/-- One character of a string is read back. -/
theorem readBytes_escapeChar (c : Char) (s : List UInt8) :
    readBytes (encode (escapeChar c) ++ s) =
      (readBytes s).map fun (bytes, rest) => (encodeChar c ++ bytes, rest) := by
  rcases escapeChar_cases c with ⟨x, hx, he, hshort⟩ | ⟨hc, he⟩ | ⟨he, h₁, h₂, h₃⟩
  · have hread : readEscape (byte x :: s) = .ok (c, s) := by
      rw [readEscape, hshort]
    rw [he, encode_cons, encode_cons, encode_nil, List.append_nil, encodeChar_eq_byte (by decide),
      encodeChar_eq_byte hx]
    exact readBytes_escape hread
  · rw [he, List.cons_append, encode_cons, encodeChar_eq_byte (by decide)]
    exact readBytes_escape (readEscape_hexPair hc s)
  · rw [he, encode_cons, encode_nil, List.append_nil]
    exact readBytes_append (fun b hb => isPlain_of_mem_encodeChar h₁ h₂ h₃ hb) s

/-! ## Whole strings -/

theorem readBytes_flatMap_escapeChar (s : List Char) (rest : List UInt8) :
    readBytes (encode (s.flatMap escapeChar) ++ byte '"' :: rest) = .ok (encode s, rest) := by
  induction s with
  | nil => exact readBytes_quote rest
  | cons c s ih =>
    rw [List.flatMap_cons, encode_append, List.append_assoc, readBytes_escapeChar, ih, encode_cons]
    rfl

/-- **A written string is read back as it was, whatever follows.** -/
theorem readText_flatMap_escapeChar (s : List Char) (rest : List UInt8) :
    readText (encode (s.flatMap escapeChar) ++ byte '"' :: rest) = .ok (s, rest) := by
  rw [readText, readBytes_flatMap_escapeChar]
  simp only [bind, Except.bind, decode_encode]

/-- The bytes of a string, its quotes apart. -/
theorem encode_renderString (s : String) :
    encode (renderString s) = byte '"' :: (encode (s.toList.flatMap escapeChar) ++ [byte '"']) := by
  rw [renderString, encode_append, encode_cons, encodeChar_eq_byte (by decide), encode_cons,
    encodeChar_eq_byte (by decide), encode_nil, List.append_nil, List.singleton_append,
    List.cons_append]

/-- The first byte of a string is its quote. -/
theorem encode_renderString_append (name : String) (rest : List UInt8) :
    encode (renderString name) ++ rest =
      byte '"' :: (encode (name.toList.flatMap escapeChar) ++ byte '"' :: rest) := by
  rw [encode_renderString, List.cons_append, List.append_assoc, List.singleton_append]

end LayoutShell.Json
