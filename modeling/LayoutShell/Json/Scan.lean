import LayoutShell.Text.Utf8

/-!
# Scanning JSON text

JSON is read from bytes, one construct after another. What cannot be read is either cut short
(`Failure.truncated`) or wrong in itself (`Failure.malformed`), whichever shows first.

* `readText` reads a string, and `skipText` passes over one without decoding it.
* `skipNumber`, `skipWord` and `skipValue` pass over other constructs; arrays and objects may be
  nested to any depth.
* `refusal` is the failure of a value of the wrong type.
-/

namespace LayoutShell.Json

open Text

/-- Why a JSON text cannot be read. -/
inductive Failure
  /-- The text ends too early. -/
  | truncated
  /-- The text is not what it should be. -/
  | malformed
  deriving DecidableEq, Repr

/-- The byte of an ASCII character. -/
def byte (c : Char) : UInt8 := c.toNat.toUInt8

/-- The white space of JSON. -/
def isBlankByte (b : UInt8) : Bool := b == 0x20 || b == 0x0A || b == 0x0D || b == 0x09

def skipBlank (s : List UInt8) : List UInt8 := s.dropWhile isBlankByte

def isDigitByte (b : UInt8) : Bool := 0x30 ≤ b && b ≤ 0x39

/-! ## Strings -/

/-- The value of a hexadecimal digit. -/
def hexValue? (b : UInt8) : Option Nat :=
  if 0x30 ≤ b ∧ b ≤ 0x39 then some (b.toNat - 0x30)
  else if 0x41 ≤ b ∧ b ≤ 0x46 then some (b.toNat - 0x41 + 10)
  else if 0x61 ≤ b ∧ b ≤ 0x66 then some (b.toNat - 0x61 + 10)
  else none

/-- The value of four hexadecimal digits. -/
def readHex4 : List UInt8 → Except Failure (Nat × List UInt8)
  | a :: b :: c :: d :: rest =>
    match hexValue? a, hexValue? b, hexValue? c, hexValue? d with
    | some a, some b, some c, some d => .ok (((a * 16 + b) * 16 + c) * 16 + d, rest)
    | _, _, _, _ => .error .malformed
  | _ => .error .truncated

/-- Expects the byte `b`. -/
def expect (b : UInt8) : List UInt8 → Except Failure (List UInt8)
  | [] => .error .truncated
  | b' :: rest => if b' = b then .ok rest else .error .malformed

/-- The character after `\u`; a leading surrogate must be followed by an escaped trailing one. -/
def readUnicode (s : List UInt8) : Except Failure (Char × List UInt8) := do
  let (high, s) ← readHex4 s
  if 0xDC00 ≤ high ∧ high ≤ 0xDFFF then .error .malformed
  else if high < 0xD800 ∨ 0xDBFF < high then .ok (Char.ofNat high, s)
  else
    let s ← expect (byte '\\') s
    let s ← expect (byte 'u') s
    let (low, s) ← readHex4 s
    if 0xDC00 ≤ low ∧ low ≤ 0xDFFF then
      .ok (Char.ofNat (0x10000 + (high - 0xD800) * 0x400 + (low - 0xDC00)), s)
    else .error .malformed

/-- The character that a letter after a backslash stands for. -/
def shortEscape? (b : UInt8) : Option Char :=
  if b = byte '"' then some '"'
  else if b = byte '\\' then some '\\'
  else if b = byte '/' then some '/'
  else if b = byte 'b' then some '\x08'
  else if b = byte 'f' then some '\x0c'
  else if b = byte 'n' then some '\n'
  else if b = byte 'r' then some '\r'
  else if b = byte 't' then some '\t'
  else none

/-- The character after a backslash. -/
def readEscape : List UInt8 → Except Failure (Char × List UInt8)
  | [] => .error .truncated
  | b :: rest =>
    match shortEscape? b with
    | some c => .ok (c, rest)
    | none => if b = byte 'u' then readUnicode rest else .error .malformed

/-- Passes over what follows a backslash; any four digits make a character number. -/
def skipEscape : List UInt8 → Except Failure (List UInt8)
  | [] => .error .truncated
  | b :: rest =>
    if (shortEscape? b).isSome then .ok rest
    else if b = byte 'u' then (readHex4 rest).map (·.2)
    else .error .malformed

theorem length_of_readHex4 {s rest : List UInt8} {n : Nat} (h : readHex4 s = .ok (n, rest)) :
    rest.length < s.length := by
  unfold readHex4 at h
  split at h
  · split at h
    · cases h; simp; omega
    · cases h
  · cases h

theorem length_of_expect {b : UInt8} {s rest : List UInt8} (h : expect b s = .ok rest) :
    rest.length < s.length := by
  unfold expect at h
  split at h
  · cases h
  · split at h
    · cases h; simp
    · cases h

/-- A computation that succeeds in two steps. -/
theorem bind_eq_ok {ε α β : Type} {x : Except ε α} {f : α → Except ε β} {b : β}
    (h : x >>= f = .ok b) : ∃ a, x = .ok a ∧ f a = .ok b := by
  cases x with
  | error e => cases h
  | ok a => exact ⟨a, rfl, h⟩

theorem length_of_readUnicode {s rest : List UInt8} {c : Char} (h : readUnicode s = .ok (c, rest)) :
    rest.length < s.length := by
  obtain ⟨⟨n, s₁⟩, h₁, h⟩ := bind_eq_ok h
  have l₁ := length_of_readHex4 h₁
  dsimp only at h
  split at h
  · cases h
  · split at h
    · cases h; exact l₁
    · obtain ⟨s₂, h₂, h⟩ := bind_eq_ok h
      obtain ⟨s₃, h₃, h⟩ := bind_eq_ok h
      obtain ⟨⟨m, s₄⟩, h₄, h⟩ := bind_eq_ok h
      have l₂ := length_of_expect h₂
      have l₃ := length_of_expect h₃
      have l₄ := length_of_readHex4 h₄
      dsimp only at h
      split at h
      · rw [Except.ok.injEq, Prod.mk.injEq] at h
        rw [← h.2]
        omega
      · cases h

theorem length_of_readEscape {s rest : List UInt8} {c : Char} (h : readEscape s = .ok (c, rest)) :
    rest.length < s.length := by
  unfold readEscape at h
  split at h
  · cases h
  · split at h
    · cases h; simp
    · split at h
      · have := length_of_readUnicode h; simp; omega
      · cases h

theorem length_of_skipEscape {s rest : List UInt8} (h : skipEscape s = .ok rest) :
    rest.length < s.length := by
  unfold skipEscape at h
  split at h
  · cases h
  · split at h
    · cases h; simp
    · split at h
      · next t _ _ =>
        cases hr : readHex4 t with
        | error e => rw [hr] at h; cases h
        | ok p =>
          obtain ⟨n, u⟩ := p
          rw [hr] at h
          cases h
          have := length_of_readHex4 hr
          simp; omega
      · cases h

/-- The bytes of a string after its opening quote, escapes replaced. -/
def readBytes : List UInt8 → Except Failure (List UInt8 × List UInt8)
  | [] => .error .truncated
  | b :: s =>
    if b = byte '"' then .ok ([], s)
    else if b = byte '\\' then
      match _h : readEscape s with
      | .error f => .error f
      | .ok (c, rest) => (readBytes rest).map fun (bytes, rest) => (encodeChar c ++ bytes, rest)
    else if b < 0x20 then .error .malformed
    else (readBytes s).map fun (bytes, rest) => (b :: bytes, rest)
termination_by s => s.length
decreasing_by
  · have := length_of_readEscape _h; simp; omega
  · simp

/-- The text of a string after its opening quote. -/
def readText (s : List UInt8) : Except Failure (List Char × List UInt8) := do
  let (bytes, rest) ← readBytes s
  match decode bytes with
  | some text => .ok (text, rest)
  | none => .error .malformed

/-- Passes over a string after its opening quote. -/
def skipText : List UInt8 → Except Failure (List UInt8)
  | [] => .error .truncated
  | b :: s =>
    if b = byte '"' then .ok s
    else if b = byte '\\' then
      match _h : skipEscape s with
      | .error f => .error f
      | .ok rest => skipText rest
    else if b < 0x20 then .error .malformed
    else skipText s
termination_by s => s.length
decreasing_by
  · have := length_of_skipEscape _h; simp; omega
  · simp

theorem length_of_skipText {s rest : List UInt8} (h : skipText s = .ok rest) :
    rest.length < s.length := by
  fun_induction skipText s with
  | case1 => cases h
  | case2 => cases h; simp
  | case3 => cases h
  | case4 s t ht _ ih =>
    have := ih h
    have := length_of_skipEscape ht
    simp; omega
  | case5 => cases h
  | case6 b s _ _ _ ih => have := ih h; simp; omega

/-! ## Words and numbers -/

/-- Passes over the rest of a word such as `true`. -/
def skipWord : List Char → List UInt8 → Except Failure (List UInt8)
  | [], s => .ok s
  | c :: word, s => do skipWord word (← expect (byte c) s)

/-- Passes over digits, of which there must be one; at the end of the text the failure is
`atEnd`. -/
def skipDigits (atEnd : Failure) : List UInt8 → Except Failure (List UInt8)
  | [] => .error atEnd
  | b :: s => if isDigitByte b then .ok (s.dropWhile isDigitByte) else .error .malformed

/-- Passes over an exponent, if there is one. -/
def skipExponent (atEnd : Failure) : List UInt8 → Except Failure (List UInt8)
  | [] => .ok []
  | b :: s =>
    if b = byte 'e' ∨ b = byte 'E' then
      match s with
      | sign :: rest =>
        if sign = byte '+' ∨ sign = byte '-' then skipDigits atEnd rest
        else skipDigits atEnd s
      | [] => .error atEnd
    else .ok (b :: s)

/-- Passes over a fraction and an exponent, if there are any. -/
def skipFraction (atEnd : Failure) : List UInt8 → Except Failure (List UInt8)
  | [] => .ok []
  | b :: s =>
    if b = byte '.' then do skipExponent atEnd (← skipDigits atEnd s)
    else skipExponent atEnd (b :: s)

/-- Passes over the digits of an integer, which has no leading zeros. -/
def skipInteger (atEnd : Failure) : List UInt8 → Except Failure (List UInt8)
  | [] => .error atEnd
  | b :: s =>
    if b = byte '0' then
      match s with
      | d :: _ => if isDigitByte d then .error .malformed else .ok s
      | [] => .ok s
    else if isDigitByte b then .ok (s.dropWhile isDigitByte)
    else .error .malformed

/-- Passes over a number; at the end of the text the failure is `atEnd`. -/
def skipNumber (atEnd : Failure) : List UInt8 → Except Failure (List UInt8)
  | [] => .error atEnd
  | b :: s => do
    let rest ← skipInteger atEnd (if b = byte '-' then s else b :: s)
    skipFraction atEnd rest

/-! ## The rest is shorter -/

theorem length_skipBlank (s : List UInt8) : (skipBlank s).length ≤ s.length :=
  (List.dropWhile_sublist _).length_le

theorem length_dropDigits (s : List UInt8) : (s.dropWhile isDigitByte).length ≤ s.length :=
  (List.dropWhile_sublist _).length_le

theorem length_of_skipWord {word : List Char} {s rest : List UInt8}
    (h : skipWord word s = .ok rest) : rest.length ≤ s.length := by
  induction word generalizing s with
  | nil => cases h; exact Nat.le_refl _
  | cons c word ih =>
    obtain ⟨t, ht, h⟩ := bind_eq_ok h
    have := length_of_expect ht
    have := ih h
    omega

theorem length_of_skipDigits {e : Failure} {s rest : List UInt8} (h : skipDigits e s = .ok rest) :
    rest.length < s.length := by
  unfold skipDigits at h
  split at h
  · cases h
  · split at h
    · cases h; exact Nat.lt_succ_of_le (length_dropDigits _)
    · cases h

theorem length_of_skipExponent {e : Failure} {s rest : List UInt8}
    (h : skipExponent e s = .ok rest) : rest.length ≤ s.length := by
  unfold skipExponent at h
  split at h
  · cases h; simp
  · split at h
    · split at h
      · split at h <;> have := length_of_skipDigits h <;> simp at this ⊢ <;> omega
      · cases h
    · cases h; simp

theorem length_of_skipFraction {e : Failure} {s rest : List UInt8}
    (h : skipFraction e s = .ok rest) : rest.length ≤ s.length := by
  unfold skipFraction at h
  split at h
  · cases h; simp
  · split at h
    · obtain ⟨t, ht, h⟩ := bind_eq_ok h
      have := length_of_skipDigits ht
      have := length_of_skipExponent h
      simp; omega
    · exact length_of_skipExponent h

theorem length_of_skipInteger {e : Failure} {s rest : List UInt8}
    (h : skipInteger e s = .ok rest) : rest.length < s.length := by
  unfold skipInteger at h
  split at h
  · cases h
  · split at h
    · split at h
      · split at h
        · cases h
        · cases h; simp
      · cases h; simp
    · split at h
      · cases h; exact Nat.lt_succ_of_le (length_dropDigits _)
      · cases h

theorem length_of_skipNumber {e : Failure} {s rest : List UInt8} (h : skipNumber e s = .ok rest) :
    rest.length < s.length := by
  unfold skipNumber at h
  split at h
  · cases h
  · obtain ⟨t, ht, h⟩ := bind_eq_ok h
    have := length_of_skipFraction h
    have := length_of_skipInteger ht
    split at this <;> simp at this ⊢ <;> omega

/-! ## Values -/

/-- An array or an object that is still open. -/
inductive Bracket
  | array
  | object
  deriving DecidableEq, Repr

def Bracket.closing : Bracket → UInt8
  | array => byte ']'
  | object => byte '\x7d'

/-- Passes over a key and its colon. -/
def skipKey (s : List UInt8) : Except Failure (List UInt8) := do
  let s ← expect (byte '"') (skipBlank s)
  let s ← skipText s
  expect (byte ':') (skipBlank s)

/-- Passes over what comes before the value of an item: nothing in an array, a key in an object. -/
def skipLabel (inside : Bracket) (s : List UInt8) : Except Failure (List UInt8) :=
  match inside with
  | .array => .ok s
  | .object => skipKey s

/-- Passes over a string, a word or a number. -/
def skipScalar : List UInt8 → Except Failure (List UInt8)
  | [] => .error .truncated
  | b :: s =>
    if b = byte '"' then skipText s
    else if b = byte 'n' then skipWord "ull".toList s
    else if b = byte 't' then skipWord "rue".toList s
    else if b = byte 'f' then skipWord "alse".toList s
    else if b = byte '-' ∨ isDigitByte b then skipNumber .malformed (b :: s)
    else .error .malformed

theorem length_of_skipKey {s rest : List UInt8} (h : skipKey s = .ok rest) :
    rest.length < s.length := by
  obtain ⟨s₁, h₁, h⟩ := bind_eq_ok h
  obtain ⟨s₂, h₂, h⟩ := bind_eq_ok h
  have := length_skipBlank s
  have := length_of_expect h₁
  have := length_of_skipText h₂
  have := length_skipBlank s₂
  have := length_of_expect h
  omega

theorem length_of_skipLabel {inside : Bracket} {s rest : List UInt8}
    (h : skipLabel inside s = .ok rest) : rest.length ≤ s.length := by
  cases inside with
  | array => cases h; exact Nat.le_refl _
  | object => exact Nat.le_of_lt (length_of_skipKey h)

theorem length_of_skipScalar {s rest : List UInt8} (h : skipScalar s = .ok rest) :
    rest.length < s.length := by
  unfold skipScalar at h
  split at h
  · cases h
  · split at h
    · have := length_of_skipText h; simp; omega
    · split at h
      · have := length_of_skipWord h; simp; omega
      · split at h
        · have := length_of_skipWord h; simp; omega
        · split at h
          · have := length_of_skipWord h; simp; omega
          · split at h
            · exact length_of_skipNumber h
            · cases h

mutual

/-- Passes over a value and over what is still open around it. -/
def skipNested (outer : List Bracket) (s : List UInt8) : Except Failure (List UInt8) :=
  match _h : skipBlank s with
  | [] => .error .truncated
  | b :: rest =>
    if b = byte '[' then skipOpened outer .array rest
    else if b = byte '\x7b' then skipOpened outer .object rest
    else
      match _h' : skipScalar (b :: rest) with
      | .error f => .error f
      | .ok rest => skipAfter outer rest
termination_by (s.length, 0)
decreasing_by
  all_goals
    have := length_skipBlank s
    rw [_h] at this
    simp only [List.length_cons] at this
  · exact Prod.Lex.left _ _ (by omega)
  · exact Prod.Lex.left _ _ (by omega)
  · have := length_of_skipScalar _h'
    simp only [List.length_cons] at this
    exact Prod.Lex.left _ _ (by omega)

/-- Passes over an array or an object after its opening bracket. -/
def skipOpened (outer : List Bracket) (inside : Bracket) (s : List UInt8) :
    Except Failure (List UInt8) :=
  match _h : skipBlank s with
  | [] => .error .truncated
  | b :: rest =>
    if b = inside.closing then skipAfter outer rest
    else
      match _h' : skipLabel inside (b :: rest) with
      | .error f => .error f
      | .ok rest => skipNested (inside :: outer) rest
termination_by (s.length, 1)
decreasing_by
  all_goals
    have := length_skipBlank s
    rw [_h] at this
    simp only [List.length_cons] at this
  · exact Prod.Lex.left _ _ (by omega)
  · have := length_of_skipLabel _h'
    simp only [List.length_cons] at this
    rcases Nat.lt_or_eq_of_le (show ‹List UInt8›.length ≤ s.length by omega) with h | h
    · exact Prod.Lex.left _ _ h
    · rw [h]; exact Prod.Lex.right _ (by decide)

/-- Passes over what follows a value inside open brackets. -/
def skipAfter (outer : List Bracket) (s : List UInt8) : Except Failure (List UInt8) :=
  match outer with
  | [] => .ok s
  | inside :: outer =>
    match _h : skipBlank s with
    | [] => .error .truncated
    | b :: rest =>
      if b = byte ',' then
        match _h' : skipLabel inside rest with
        | .error f => .error f
        | .ok rest => skipNested (inside :: outer) rest
      else if b = inside.closing then skipAfter outer rest
      else .error .malformed
termination_by (s.length, 0)
decreasing_by
  all_goals
    have := length_skipBlank s
    rw [_h] at this
    simp only [List.length_cons] at this
  · have := length_of_skipLabel _h'
    exact Prod.Lex.left _ _ (by omega)
  · exact Prod.Lex.left _ _ (by omega)

end

/-- Passes over a value of any kind. -/
def skipValue (s : List UInt8) : Except Failure (List UInt8) := skipNested [] s

/-- Why a value at the start of a text is refused where another type is expected: the value itself
may be cut short. -/
def refusal : List UInt8 → Failure
  | [] => .truncated
  | b :: s =>
    let verdict : Except Failure Unit :=
      if b = byte '"' then (readText s).map fun _ => ()
      else if b = byte 'n' then (skipWord "ull".toList s).map fun _ => ()
      else if b = byte 't' then (skipWord "rue".toList s).map fun _ => ()
      else if b = byte 'f' then (skipWord "alse".toList s).map fun _ => ()
      else if b = byte '-' ∨ isDigitByte b then
        (skipNumber .truncated (b :: s)).map fun _ => ()
      else .ok ()
    match verdict with
    | .error f => f
    | .ok () => .malformed

end LayoutShell.Json
