import LayoutShell.Proofs.Json.Strings

/-!
# The syntax of JSON

A grammar of JSON texts, stated on bytes and without any reader, and the scanner on the texts of the
grammar.

* `IsBlank`, `IsNumber`, `IsText` and `IsValue` are white space, numbers, what stands between the
  quotes of a string, and values.
* `Delimited` is said of what may follow a number: its digits have no end of their own.
* `skipNumber_append` and `skipText_append` pass over numbers and strings, whatever follows.
* `skipValue_append` passes over a value of any depth.
-/

namespace LayoutShell.Json

open Text

/-! ## White space -/

/-- Nothing but white space. -/
def IsBlank (ws : List UInt8) : Prop := ∀ b ∈ ws, isBlankByte b = true

theorem skipBlank_append {ws : List UInt8} (h : IsBlank ws) (s : List UInt8) :
    skipBlank (ws ++ s) = skipBlank s :=
  List.dropWhile_append_of_pos h

theorem skipBlank_cons {b : UInt8} (h : isBlankByte b = false) (s : List UInt8) :
    skipBlank (b :: s) = b :: s :=
  List.dropWhile_cons_of_neg (by simp [h])

theorem skipBlank_append_cons {ws : List UInt8} (hws : IsBlank ws) {b : UInt8}
    (hb : isBlankByte b = false) (s : List UInt8) : skipBlank (ws ++ b :: s) = b :: s := by
  rw [skipBlank_append hws, skipBlank_cons hb]

theorem isBlank_nil : IsBlank [] := by simp [IsBlank]

theorem isBlank_space : IsBlank [byte ' '] := by
  intro b hb
  rw [List.mem_singleton] at hb
  subst hb
  decide

theorem isBlank_newline (width depth : Nat) : IsBlank (encode (Value.newline width depth)) := by
  intro b hb
  obtain ⟨c, hc, hb⟩ := List.mem_flatMap.1 hb
  rw [Value.newline, List.mem_cons, List.mem_replicate] at hc
  rcases hc with rfl | ⟨-, rfl⟩ <;>
  · rw [encodeChar_eq_byte (by decide), List.mem_singleton] at hb
    subst hb
    decide

/-- Something that does not go on with a number. -/
def Delimited (rest : List UInt8) : Prop :=
  ∀ b ∈ rest.head?, isDigitByte b = false ∧ b ≠ byte '.' ∧ b ≠ byte 'e' ∧ b ≠ byte 'E'

theorem delimited_nil : Delimited [] := by simp [Delimited]

theorem Delimited.append_left {ws rest : List UInt8} (hrest : Delimited rest) (hws : IsBlank ws) :
    Delimited (ws ++ rest) := by
  cases ws with
  | nil => exact hrest
  | cons b ws =>
    intro c hc
    obtain rfl : b = c := by simpa using hc
    have hb := hws b List.mem_cons_self
    simp only [isBlankByte, Bool.or_eq_true, beq_iff_eq] at hb
    rcases hb with ((rfl | rfl) | rfl) | rfl <;> decide

theorem delimited_comma (rest : List UInt8) : Delimited (byte ',' :: rest) := by
  intro b hb
  obtain rfl : byte ',' = b := by simpa using hb
  decide

theorem delimited_closing (inside : Bracket) (rest : List UInt8) :
    Delimited (inside.closing :: rest) := by
  intro b hb
  obtain rfl : inside.closing = b := by simpa using hb
  cases inside <;> decide

/-! ## Numbers -/

/-- One digit or more. -/
structure IsDigits (ds : List UInt8) : Prop where
  ne_nil : ds ≠ []
  digits : ∀ d ∈ ds, isDigitByte d = true

/-- A zero, or digits that do not begin with a zero. -/
inductive IsWhole : List UInt8 → Prop
  | zero : IsWhole [byte '0']
  | digits {ds : List UInt8} (h : IsDigits ds) (hzero : ds.head? ≠ some (byte '0')) : IsWhole ds

inductive IsFraction : List UInt8 → Prop
  | none : IsFraction []
  | some {ds : List UInt8} (h : IsDigits ds) : IsFraction (byte '.' :: ds)

inductive IsExponent : List UInt8 → Prop
  | none : IsExponent []
  | some {e : UInt8} {sign ds : List UInt8} (he : e = byte 'e' ∨ e = byte 'E')
      (hsign : sign = [] ∨ sign = [byte '+'] ∨ sign = [byte '-']) (h : IsDigits ds) :
      IsExponent (e :: (sign ++ ds))

/-- A number, with a sign if it is negative. -/
inductive IsNumber : List UInt8 → Prop
  | intro {sign whole fraction exponent : List UInt8} (hsign : sign = [] ∨ sign = [byte '-'])
      (hwhole : IsWhole whole) (hfraction : IsFraction fraction) (hexponent : IsExponent exponent) :
      IsNumber (sign ++ (whole ++ (fraction ++ exponent)))

section

variable {ds rest : List UInt8} {atEnd : Failure}

theorem dropDigits_append (hds : ∀ d ∈ ds, isDigitByte d = true)
    (hrest : ∀ b ∈ rest.head?, isDigitByte b = false) :
    (ds ++ rest).dropWhile isDigitByte = rest := by
  rw [List.dropWhile_append_of_pos hds]
  cases rest with
  | nil => rfl
  | cons b rest => exact List.dropWhile_cons_of_neg (by simp [hrest b rfl])

theorem skipDigits_append (h : IsDigits ds) (hrest : ∀ b ∈ rest.head?, isDigitByte b = false) :
    skipDigits atEnd (ds ++ rest) = .ok rest := by
  obtain ⟨hne, hds⟩ := h
  cases ds with
  | nil => exact absurd rfl hne
  | cons d ds =>
    rw [List.forall_mem_cons] at hds
    rw [List.cons_append, skipDigits, if_pos hds.1, dropDigits_append hds.2 hrest]

theorem skipInteger_append (h : IsWhole ds) (hrest : ∀ b ∈ rest.head?, isDigitByte b = false) :
    skipInteger atEnd (ds ++ rest) = .ok rest := by
  cases h with
  | zero =>
    cases rest with
    | nil => rfl
    | cons b rest => simp [skipInteger, hrest b rfl]
  | digits h hzero =>
    obtain ⟨hne, hds⟩ := h
    cases ds with
    | nil => exact absurd rfl hne
    | cons d ds =>
      rw [List.forall_mem_cons] at hds
      have hd : d ≠ byte '0' := fun hd => hzero (congrArg some hd)
      refine (if_neg hd).trans ((if_pos hds.1).trans ?_)
      exact congrArg _ (dropDigits_append hds.2 hrest)

/-- A sign is no digit, so digits are never taken for one. -/
theorem ne_sign_of_isDigitByte {d : UInt8} (h : isDigitByte d = true) :
    ¬(d = byte '+' ∨ d = byte '-') := by
  rintro (rfl | rfl) <;> exact absurd h (by decide)

theorem IsWhole.exists_cons (h : IsWhole ds) :
    ∃ d ds', ds = d :: ds' ∧ isDigitByte d = true := by
  cases h with
  | zero => exact ⟨_, _, rfl, by decide⟩
  | digits h _ =>
    obtain ⟨hne, hds⟩ := h
    obtain ⟨d, ds', rfl⟩ := List.exists_cons_of_ne_nil hne
    exact ⟨d, ds', rfl, hds d List.mem_cons_self⟩

theorem skipExponent_append {s : List UInt8} (h : IsExponent s) (hrest : Delimited rest) :
    skipExponent atEnd (s ++ rest) = .ok rest := by
  cases h with
  | none =>
    cases rest with
    | nil => rfl
    | cons b rest =>
      obtain ⟨-, -, he, hE⟩ := hrest b rfl
      exact if_neg (by simp [he, hE])
  | @some e sign ds he hsign h =>
    have hskip : skipDigits atEnd (ds ++ rest) = .ok rest :=
      skipDigits_append h fun b hb => (hrest b hb).1
    obtain ⟨hne, hds⟩ := h
    cases ds with
    | nil => exact absurd rfl hne
    | cons d ds =>
      rcases hsign with rfl | rfl | rfl <;> refine (if_pos he).trans ?_
      · exact (if_neg (ne_sign_of_isDigitByte (hds d List.mem_cons_self))).trans hskip
      · exact (if_pos (.inl rfl)).trans hskip
      · exact (if_pos (.inr rfl)).trans hskip

theorem head_exponent_append {s : List UInt8} (h : IsExponent s) (hrest : Delimited rest) :
    ∀ b ∈ (s ++ rest).head?, isDigitByte b = false ∧ b ≠ byte '.' := by
  cases h with
  | none => exact fun b hb => ⟨(hrest b hb).1, (hrest b hb).2.1⟩
  | some he _ _ =>
    intro b hb
    obtain rfl := Option.some.inj hb
    rcases he with rfl | rfl <;> decide

theorem skipFraction_append {s s' : List UInt8} (h : IsFraction s) (h' : IsExponent s')
    (hrest : Delimited rest) : skipFraction atEnd (s ++ (s' ++ rest)) = .ok rest := by
  have hhead := head_exponent_append h' hrest
  have hskip : skipExponent atEnd (s' ++ rest) = .ok rest := skipExponent_append h' hrest
  cases h with
  | none =>
    rw [List.nil_append]
    cases hs : s' ++ rest with
    | nil => rwa [hs] at hskip
    | cons b t =>
      rw [hs] at hhead hskip
      rw [skipFraction.eq_2, if_neg (hhead b rfl).2, hskip]
  | some h =>
    rw [List.cons_append, skipFraction.eq_2, if_pos rfl,
      skipDigits_append h fun b hb => (hhead b hb).1]
    exact hskip

/-- **A number is passed over as far as it goes.** -/
theorem skipNumber_append {s : List UInt8} (h : IsNumber s) (hrest : Delimited rest) :
    skipNumber atEnd (s ++ rest) = .ok rest := by
  cases h with
  | @intro sign whole fraction exponent hsign hwhole hfraction hexponent =>
    have hfollow : ∀ b ∈ (fraction ++ (exponent ++ rest)).head?, isDigitByte b = false := by
      cases hfraction with
      | none => exact fun b hb => (head_exponent_append hexponent hrest b hb).1
      | some _ =>
        intro b hb
        obtain rfl := Option.some.inj hb
        decide
    have hskip : (do skipFraction atEnd (← skipInteger atEnd
        (whole ++ (fraction ++ (exponent ++ rest))))) = .ok rest := by
      rw [skipInteger_append hwhole hfollow]
      exact skipFraction_append hfraction hexponent hrest
    simp only [List.append_assoc]
    rcases hsign with rfl | rfl
    · obtain ⟨d, ds, hds, hd⟩ := hwhole.exists_cons
      rw [hds] at hskip ⊢
      rw [List.nil_append, List.cons_append, skipNumber, if_neg (ne_sign_of_isDigitByte hd ∘ .inr)]
      exact hskip
    · rw [List.singleton_append, skipNumber, if_pos rfl]
      exact hskip

end

/-! ## Strings -/

/-- A hexadecimal digit in lower or upper case. -/
def IsHexDigit (d : Nat) (b : UInt8) : Prop :=
  d < 16 ∧ (b = byte (Nat.digitChar d) ∨ b = byte (Nat.digitChar d).toUpper)

/-- Four hexadecimal digits of a number. -/
inductive IsHex4 : Nat → List UInt8 → Prop
  | intro {d₁ d₂ d₃ d₄ : Nat} {b₁ b₂ b₃ b₄ : UInt8} (h₁ : IsHexDigit d₁ b₁)
      (h₂ : IsHexDigit d₂ b₂) (h₃ : IsHexDigit d₃ b₃) (h₄ : IsHexDigit d₄ b₄) :
      IsHex4 (((d₁ * 16 + d₂) * 16 + d₃) * 16 + d₄) [b₁, b₂, b₃, b₄]

/-- The letters after a backslash and the characters that they stand for. -/
def shortEscapes : List (Char × Char) :=
  [('"', '"'), ('\\', '\\'), ('/', '/'), ('b', '\x08'), ('f', '\x0c'), ('n', '\n'), ('r', '\r'),
    ('t', '\t')]

/-- What may stand between the quotes of a string. -/
inductive IsText : List UInt8 → Prop
  | nil : IsText []
  | plain {b : UInt8} {s : List UInt8} (hb : IsPlain b) (h : IsText s) : IsText (b :: s)
  | short {x c : Char} {s : List UInt8} (hx : (x, c) ∈ shortEscapes) (h : IsText s) :
      IsText (byte '\\' :: byte x :: s)
  | number {n : Nat} {ds s : List UInt8} (hds : IsHex4 n ds) (h : IsText s) :
      IsText (byte '\\' :: byte 'u' :: (ds ++ s))

theorem hexValue?_of_isHexDigit {d : Nat} {b : UInt8} (h : IsHexDigit d b) :
    hexValue? b = some d := by
  have hdigits : ∀ d < 16, hexValue? (byte (Nat.digitChar d)) = some d ∧
      hexValue? (byte (Nat.digitChar d).toUpper) = some d := by decide
  obtain ⟨hd, rfl | rfl⟩ := h
  · exact (hdigits d hd).1
  · exact (hdigits d hd).2

theorem readHex4_append {n : Nat} {ds : List UInt8} (h : IsHex4 n ds) (s : List UInt8) :
    readHex4 (ds ++ s) = .ok (n, s) := by
  cases h with
  | intro h₁ h₂ h₃ h₄ =>
    simp only [List.cons_append, List.nil_append, readHex4, hexValue?_of_isHexDigit h₁,
      hexValue?_of_isHexDigit h₂, hexValue?_of_isHexDigit h₃, hexValue?_of_isHexDigit h₄]

theorem shortEscape?_of_mem {x c : Char} (h : (x, c) ∈ shortEscapes) :
    shortEscape? (byte x) = some c := by
  have hall : ∀ p ∈ shortEscapes, shortEscape? (byte p.1) = some p.2 := by decide
  exact hall _ h

theorem skipText_escape {s rest : List UInt8} (h : skipEscape s = .ok rest) :
    skipText (byte '\\' :: s) = skipText rest := by
  rw [skipText, if_neg (by decide), if_pos rfl]
  split
  · next h' => rw [h] at h'; cases h'
  · next h' => rw [h] at h'; cases h'; rfl

/-- **A string is passed over up to its closing quote.** -/
theorem skipText_append {s : List UInt8} (h : IsText s) (rest : List UInt8) :
    skipText (s ++ byte '"' :: rest) = .ok rest := by
  induction h with
  | nil => rw [List.nil_append, skipText, if_pos rfl]
  | plain hb _ ih =>
    obtain ⟨h₁, h₂, h₃⟩ := hb
    rw [List.cons_append, skipText, if_neg h₁, if_neg h₂, if_neg h₃, ih]
  | @short x c s hx _ ih =>
    have hskip : skipEscape (byte x :: (s ++ byte '"' :: rest)) = .ok (s ++ byte '"' :: rest) := by
      rw [skipEscape, shortEscape?_of_mem hx]
      rfl
    exact (skipText_escape hskip).trans ih
  | @number n ds s hds _ ih =>
    have hskip : skipEscape (byte 'u' :: (ds ++ (s ++ byte '"' :: rest))) =
        .ok (s ++ byte '"' :: rest) := by
      rw [skipEscape, if_neg (by decide), if_pos rfl, readHex4_append hds]
      rfl
    rw [List.cons_append, List.cons_append, List.append_assoc, skipText_escape hskip, ih]

/-! ## Values -/

/-- A word, a number or a string. -/
inductive IsScalar : List UInt8 → Prop
  | word {w : List Char} (h : w ∈ ["null".toList, "true".toList, "false".toList]) :
      IsScalar (w.map byte)
  | number {s : List UInt8} (h : IsNumber s) : IsScalar s
  | string {s : List UInt8} (h : IsText s) : IsScalar (byte '"' :: (s ++ [byte '"']))

def Bracket.opening : Bracket → UInt8
  | array => byte '['
  | object => byte '\x7b'

/-- What stands before the value of an item: nothing in an array, a key and a colon in an object. -/
inductive IsLabel : Bracket → List UInt8 → Prop
  | array : IsLabel .array []
  | object {ws key ws' : List UInt8} (hws : IsBlank ws) (hkey : IsText key) (hws' : IsBlank ws') :
      IsLabel .object (ws ++ byte '"' :: (key ++ byte '"' :: (ws' ++ [byte ':'])))

/-- The parts of JSON texts that are nested in each other: values, and what stands between the
brackets of an array or an object. -/
inductive Part
  | value
  | items (inside : Bracket)

/-- The syntax of each part. -/
inductive IsPart : Part → List UInt8 → Prop
  | scalar {s : List UInt8} (h : IsScalar s) : IsPart .value s
  | empty {inside : Bracket} {ws : List UInt8} (hws : IsBlank ws) :
      IsPart .value (inside.opening :: (ws ++ [inside.closing]))
  | nested {inside : Bracket} {s : List UInt8} (h : IsPart (.items inside) s) :
      IsPart .value (inside.opening :: (s ++ [inside.closing]))
  | last {inside : Bracket} {label ws s ws' : List UInt8} (hlabel : IsLabel inside label)
      (hws : IsBlank ws) (h : IsPart .value s) (hws' : IsBlank ws') :
      IsPart (.items inside) (label ++ (ws ++ (s ++ ws')))
  | more {inside : Bracket} {label ws s ws' t : List UInt8} (hlabel : IsLabel inside label)
      (hws : IsBlank ws) (h : IsPart .value s) (hws' : IsBlank ws')
      (hmore : IsPart (.items inside) t) :
      IsPart (.items inside) (label ++ (ws ++ (s ++ (ws' ++ byte ',' :: t))))

/-- A JSON value of any kind and depth, without white space around it. -/
def IsValue (s : List UInt8) : Prop := IsPart .value s

/-! ### Words, numbers and strings -/

theorem skipWord_append (word : List Char) (rest : List UInt8) :
    skipWord word (word.map byte ++ rest) = .ok rest := by
  induction word with
  | nil => rfl
  | cons c word ih =>
    rw [List.map_cons, List.cons_append, skipWord, expect, if_pos rfl]
    exact ih

theorem isBlankByte_of_isDigitByte {b : UInt8} (h : isDigitByte b = true) :
    isBlankByte b = false := by
  rw [Bool.eq_false_iff]
  intro hb
  simp only [isBlankByte, Bool.or_eq_true, beq_iff_eq] at hb
  rcases hb with ((rfl | rfl) | rfl) | rfl <;> exact absurd h (by decide)

theorem ne_of_isDigitByte {b c : UInt8} (h : isDigitByte b = true) (hc : isDigitByte c = false) :
    b ≠ c := by
  rintro rfl
  exact absurd (h.symm.trans hc) (by decide)

/-- A number begins with its sign or with a digit. -/
theorem IsNumber.exists_cons {s : List UInt8} (h : IsNumber s) :
    ∃ b t, s = b :: t ∧ (b = byte '-' ∨ isDigitByte b = true) := by
  cases h with
  | intro hsign hwhole _ _ =>
    rcases hsign with rfl | rfl
    · obtain ⟨d, ds, rfl, hd⟩ := hwhole.exists_cons
      exact ⟨d, _, rfl, .inr hd⟩
    · exact ⟨byte '-', _, rfl, .inl rfl⟩

/-- No number is taken for a string or a word. -/
theorem ne_of_beginsNumber {b : UInt8} (hb : b = byte '-' ∨ isDigitByte b = true) :
    b ≠ byte '"' ∧ b ≠ byte 'n' ∧ b ≠ byte 't' ∧ b ≠ byte 'f' := by
  rcases hb with rfl | hb
  · decide
  · exact ⟨ne_of_isDigitByte hb (by decide), ne_of_isDigitByte hb (by decide),
      ne_of_isDigitByte hb (by decide), ne_of_isDigitByte hb (by decide)⟩

/-- Bytes with which a value begins. -/
structure Begins (b : UInt8) : Prop where
  notBlank : isBlankByte b = false
  notClosing : b ≠ byte ']'

structure BeginsScalar (b : UInt8) : Prop extends Begins b where
  notOpening : ∀ inside : Bracket, b ≠ inside.opening

theorem IsScalar.exists_cons {s : List UInt8} (h : IsScalar s) :
    ∃ b t, s = b :: t ∧ BeginsScalar b := by
  cases h with
  | word h =>
    simp only [List.mem_cons, List.not_mem_nil, or_false] at h
    rcases h with rfl | rfl | rfl <;>
    · refine ⟨_, _, rfl, ⟨by decide, by decide⟩, ?_⟩
      rintro (_ | _) <;> decide
  | number h =>
    obtain ⟨b, t, rfl, rfl | hb⟩ := h.exists_cons
    · refine ⟨_, _, rfl, ⟨by decide, by decide⟩, ?_⟩
      rintro (_ | _) <;> decide
    · refine ⟨b, t, rfl, ⟨isBlankByte_of_isDigitByte hb, ne_of_isDigitByte hb (by decide)⟩, ?_⟩
      rintro (_ | _) <;> exact ne_of_isDigitByte hb (by decide)
  | string h =>
    refine ⟨_, _, rfl, ⟨by decide, by decide⟩, ?_⟩
    rintro (_ | _) <;> decide

theorem skipScalar_append {s rest : List UInt8} (h : IsScalar s) (hrest : Delimited rest) :
    skipScalar (s ++ rest) = .ok rest := by
  cases h with
  | word h =>
    simp only [List.mem_cons, List.not_mem_nil, or_false] at h
    rcases h with rfl | rfl | rfl
    · exact skipWord_append "ull".toList rest
    · exact skipWord_append "rue".toList rest
    · exact skipWord_append "alse".toList rest
  | number h =>
    have hskip : skipNumber .malformed (s ++ rest) = .ok rest := skipNumber_append h hrest
    obtain ⟨b, t, rfl, hb⟩ := h.exists_cons
    obtain ⟨h₁, h₂, h₃, h₄⟩ := ne_of_beginsNumber hb
    rw [List.cons_append, skipScalar, if_neg h₁, if_neg h₂, if_neg h₃, if_neg h₄, if_pos hb]
    exact hskip
  | string h =>
    rw [List.cons_append, List.append_assoc, skipScalar, if_pos rfl]
    exact skipText_append h rest

/-! ### Arrays and objects -/

section

variable {outer : List Bracket} {inside : Bracket} {s t : List UInt8} {b : UInt8}

theorem skipNested_opening (h : skipBlank s = inside.opening :: t) :
    skipNested outer s = skipOpened outer inside t := by
  rw [skipNested]
  split
  · next h' => cases h.symm.trans h'
  · next h' =>
    cases h.symm.trans h'
    cases inside <;> rfl

theorem skipNested_scalar {r : List UInt8} (h : skipBlank s = b :: t) (hb : BeginsScalar b)
    (hscalar : skipScalar (b :: t) = .ok r) : skipNested outer s = skipAfter outer r := by
  rw [skipNested]
  split
  · next h' => cases h.symm.trans h'
  · next h' =>
    cases h.symm.trans h'
    rw [if_neg (show b ≠ byte '[' from hb.notOpening .array),
      if_neg (show b ≠ byte '\x7b' from hb.notOpening .object)]
    split
    · next h' => cases hscalar.symm.trans h'
    · next h' => cases hscalar.symm.trans h'; rfl

theorem skipOpened_closing (h : skipBlank s = inside.closing :: t) :
    skipOpened outer inside s = skipAfter outer t := by
  rw [skipOpened]
  split
  · next h' => cases h.symm.trans h'
  · next h' =>
    cases h.symm.trans h'
    rw [if_pos rfl]

theorem skipOpened_item {r : List UInt8} (h : skipBlank s = b :: t) (hb : b ≠ inside.closing)
    (hlabel : skipLabel inside (b :: t) = .ok r) :
    skipOpened outer inside s = skipNested (inside :: outer) r := by
  rw [skipOpened]
  split
  · next h' => cases h.symm.trans h'
  · next h' =>
    cases h.symm.trans h'
    rw [if_neg hb]
    split
    · next h' => cases hlabel.symm.trans h'
    · next h' => cases hlabel.symm.trans h'; rfl

theorem skipAfter_comma {r : List UInt8} (h : skipBlank s = byte ',' :: t)
    (hlabel : skipLabel inside t = .ok r) :
    skipAfter (inside :: outer) s = skipNested (inside :: outer) r := by
  rw [skipAfter]
  split
  · next h' => cases h.symm.trans h'
  · next h' =>
    cases h.symm.trans h'
    rw [if_pos rfl]
    split
    · next h' => cases hlabel.symm.trans h'
    · next h' => cases hlabel.symm.trans h'; rfl

theorem skipAfter_closing (h : skipBlank s = inside.closing :: t) :
    skipAfter (inside :: outer) s = skipAfter outer t := by
  rw [skipAfter]
  split
  · next h' => cases h.symm.trans h'
  · next h' =>
    cases h.symm.trans h'
    rw [if_neg (by cases inside <;> decide), if_pos rfl]

theorem skipLabel_append {label : List UInt8} (h : IsLabel inside label) (s : List UInt8) :
    skipLabel inside (label ++ s) = .ok s := by
  cases h with
  | array => rfl
  | @object ws key ws' hws hkey hws' =>
    simp only [List.append_assoc, List.cons_append, List.nil_append]
    rw [skipLabel, skipKey, skipBlank_append_cons hws (by decide), expect, if_pos rfl]
    show (skipText _ >>= _) = _
    rw [skipText_append hkey]
    show expect _ (skipBlank _) = _
    rw [skipBlank_append_cons hws' (by decide), expect, if_pos rfl]

theorem skipOpened_append (outer : List Bracket) {label ws : List UInt8}
    (hlabel : IsLabel inside label) (hws : IsBlank ws) (hb : Begins b) (t : List UInt8) :
    ∃ ws', IsBlank ws' ∧ skipOpened outer inside (label ++ (ws ++ b :: t)) =
      skipNested (inside :: outer) (ws' ++ b :: t) := by
  have hskip := skipLabel_append hlabel (ws ++ b :: t)
  cases hlabel with
  | array =>
    exact ⟨[], isBlank_nil, skipOpened_item (skipBlank_append_cons hws hb.notBlank t)
      hb.notClosing rfl⟩
  | @object ws₁ key ws₂ hws₁ hkey hws₂ =>
    simp only [List.append_assoc, List.cons_append, List.nil_append] at hskip ⊢
    refine ⟨ws, hws, skipOpened_item (skipBlank_append_cons hws₁ (by decide) _) (by decide) ?_⟩
    rw [skipLabel, skipKey, skipBlank_append_cons hws₁ (by decide)] at hskip
    rw [skipLabel, skipKey, skipBlank_cons (by decide), hskip]

end

/-- The scanner passes over a part wherever it stands. The items of an array or an object may follow
the opening bracket, or other items and a comma. -/
def Skips (s : List UInt8) : Part → Prop
  | .value => ∀ outer ws rest, IsBlank ws → Delimited rest →
      skipNested outer (ws ++ (s ++ rest)) = skipAfter outer rest
  | .items inside => ∀ outer rest,
      skipOpened outer inside (s ++ inside.closing :: rest) = skipAfter outer rest ∧
        ∀ ws, IsBlank ws →
          skipAfter (inside :: outer) (ws ++ byte ',' :: (s ++ inside.closing :: rest)) =
            skipAfter outer rest

theorem isBlankByte_closing (inside : Bracket) : isBlankByte inside.closing = false := by
  cases inside <;> decide

theorem isBlankByte_opening (inside : Bracket) : isBlankByte inside.opening = false := by
  cases inside <;> decide

theorem IsValue.exists_cons {s : List UInt8} (h : IsValue s) : ∃ b t, s = b :: t ∧ Begins b := by
  cases h with
  | scalar h =>
    obtain ⟨b, t, rfl, hb⟩ := h.exists_cons
    exact ⟨b, t, rfl, hb.toBegins⟩
  | @empty inside ws hws =>
    exact ⟨_, _, rfl, isBlankByte_opening inside, by cases inside <;> decide⟩
  | @nested inside s h =>
    exact ⟨_, _, rfl, isBlankByte_opening inside, by cases inside <;> decide⟩

theorem IsValue.begins {b : UInt8} {t : List UInt8} (h : IsValue (b :: t)) : Begins b := by
  obtain ⟨b, t, heq, hb⟩ := h.exists_cons
  obtain ⟨rfl, rfl⟩ := List.cons.inj heq
  exact hb

/-- One item, in either place. -/
theorem skip_item (outer : List Bracket) {inside : Bracket} {label ws s tail : List UInt8}
    (hlabel : IsLabel inside label) (hws : IsBlank ws) (h : IsValue s) (hs : Skips s .value)
    (htail : Delimited tail) :
    skipOpened outer inside (label ++ (ws ++ (s ++ tail))) = skipAfter (inside :: outer) tail ∧
      ∀ ws', IsBlank ws' →
        skipAfter (inside :: outer) (ws' ++ byte ',' :: (label ++ (ws ++ (s ++ tail)))) =
          skipAfter (inside :: outer) tail := by
  constructor
  · obtain ⟨b, t, rfl, hb⟩ := h.exists_cons
    obtain ⟨ws', hws', hopened⟩ := skipOpened_append outer hlabel hws hb (t ++ tail)
    exact hopened.trans (hs _ ws' tail hws' htail)
  · intro ws' hws'
    rw [skipAfter_comma (skipBlank_append_cons hws' (by decide) _)
      (skipLabel_append hlabel (ws ++ (s ++ tail)))]
    exact hs _ ws tail hws htail

/-- The scanner passes over every part. -/
theorem skips_of_isPart {part : Part} {s : List UInt8} (h : IsPart part s) : Skips s part := by
  induction h with
  | scalar h =>
    intro outer ws rest hws hrest
    have hskip := skipScalar_append h hrest
    obtain ⟨b, t, rfl, hb⟩ := h.exists_cons
    exact skipNested_scalar (skipBlank_append_cons hws hb.notBlank _) hb hskip
  | @empty inside ws' hws' =>
    intro outer ws rest hws _
    rw [List.cons_append, List.append_assoc,
      skipNested_opening (skipBlank_append_cons hws (isBlankByte_opening inside) _)]
    exact skipOpened_closing (skipBlank_append_cons hws' (isBlankByte_closing inside) rest)
  | @nested inside s _ ih =>
    intro outer ws rest hws _
    rw [List.cons_append, List.append_assoc,
      skipNested_opening (skipBlank_append_cons hws (isBlankByte_opening inside) _)]
    exact (ih outer rest).1
  | @last inside label ws s ws' hlabel hws h hws' ih =>
    intro outer rest
    have hend : skipAfter (inside :: outer) (ws' ++ inside.closing :: rest) =
        skipAfter outer rest :=
      skipAfter_closing (skipBlank_append_cons hws' (isBlankByte_closing inside) rest)
    have hitem := skip_item outer hlabel hws h ih
      ((delimited_closing inside rest).append_left hws')
    simp only [List.append_assoc] at hitem ⊢
    rwa [hend] at hitem
  | @more inside label ws s ws' t hlabel hws h hws' _ ih ihmore =>
    intro outer rest
    have hitem := skip_item outer hlabel hws h ih
      ((delimited_comma (t ++ inside.closing :: rest)).append_left hws')
    simp only [List.append_assoc, List.cons_append] at hitem ⊢
    rwa [(ihmore outer rest).2 ws' hws'] at hitem

/-- **A value is passed over, however deep it is.** -/
theorem skipValue_append {ws s rest : List UInt8} (hws : IsBlank ws) (h : IsValue s)
    (hrest : Delimited rest) : skipValue (ws ++ (s ++ rest)) = .ok rest := by
  rw [skipValue, skips_of_isPart h [] ws rest hws hrest, skipAfter]

end LayoutShell.Json
