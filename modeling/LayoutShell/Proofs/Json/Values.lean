import LayoutShell.Json.Read
import LayoutShell.Proofs.Json.Syntax
import Mathlib.Data.List.TakeWhile

/-!
# JSON values there and back

A value without floating-point numbers is given back by its text on indented lines.

* `readNumber_render` reads an integer back from its digits.
* `Exact` is said of the values that their texts determine: integers are in range and the members of
  objects are in the order of their keys.
* `readsBack_prettyAt` reads a value back, whatever follows, and `read_prettyAt` a whole text.
* `membersIn_prettyAt`: the members of an object stand in the text in the order of the object.
-/

namespace LayoutShell.Json

open Text Value

/-! ## Integers -/

theorem encode_of_ascii {cs : List Char} (h : ∀ c ∈ cs, c.toNat < 0x80) :
    encode cs = cs.map byte := by
  induction cs with
  | nil => rfl
  | cons c cs ih =>
    rw [List.forall_mem_cons] at h
    rw [encode_cons, encodeChar_eq_byte h.1, ih h.2, List.map_cons, List.singleton_append]

theorem toNat_byte_of_isDigit {c : Char} (h : c.isDigit = true) : (byte c).toNat = c.toNat := by
  rw [Char.isDigit_iff_toNat] at h
  have hc : c.toNat ≤ 57 := h.2
  exact toNat_toUInt8 (by omega)

theorem isDigitByte_byte {c : Char} (h : c.isDigit = true) : isDigitByte (byte c) = true := by
  have hbyte := toNat_byte_of_isDigit h
  rw [Char.isDigit_iff_toNat] at h
  have hc : 48 ≤ c.toNat ∧ c.toNat ≤ 57 := h
  simp only [isDigitByte, Bool.and_eq_true, decide_eq_true_eq, UInt8.le_iff_toNat_le, hbyte]
  exact hc

theorem digitsValue_map_byte {cs : List Char} (h : ∀ c ∈ cs, c.isDigit = true) (n : Nat) :
    digitsValue n (cs.map byte) = Nat.ofDigitChars 10 cs n := by
  induction cs generalizing n with
  | nil => rfl
  | cons c cs ih =>
    rw [List.forall_mem_cons] at h
    have hstep : n * 10 + ((byte c).toNat - 0x30) = 10 * n + (c.toNat - '0'.toNat) := by
      rw [toNat_byte_of_isDigit h.1, Nat.mul_comm]
      rfl
    have htail := ih h.2 (n * 10 + ((byte c).toNat - 0x30))
    rw [hstep] at htail
    rw [digitsValue, List.map_cons, List.foldl_cons, hstep]
    exact htail

/-- Only zero begins with a zero. -/
theorem head?_toDigits_ne {n : Nat} (h : 0 < n) : (Nat.toDigits 10 n).head? ≠ some '0' := by
  induction n using Nat.strongRecOn with
  | ind n ih =>
    rw [Nat.toDigits_eq_if (by omega)]
    split
    · next hlt =>
      intro hzero
      have hdigit : Nat.digitChar n = '0' := Option.some.inj hzero
      have hne : ∀ d < 10, 0 < d → Nat.digitChar d ≠ '0' := by decide
      exact hne n hlt h hdigit
    · rw [List.head?_append]
      have hhead := ih (n / 10) (by omega) (by omega)
      cases hdigits : Nat.toDigits 10 (n / 10) with
      | nil => exact absurd hdigits Nat.toDigits_ne_nil
      | cons c cs => rwa [hdigits] at hhead

/-- The digits of a number as bytes. -/
def digitBytes (n : Nat) : List UInt8 := (Nat.toDigits 10 n).map byte

theorem isDigit_of_mem_toDigits {n : Nat} : ∀ c ∈ Nat.toDigits 10 n, c.isDigit = true :=
  fun _ hc => Nat.isDigit_of_mem_toDigits (by omega) (by omega) hc

theorem isDigits_digitBytes (n : Nat) : IsDigits (digitBytes n) := by
  refine ⟨by simp [digitBytes, Nat.toDigits_ne_nil], fun b hb => ?_⟩
  obtain ⟨c, hc, rfl⟩ := List.mem_map.1 hb
  exact isDigitByte_byte (isDigit_of_mem_toDigits c hc)

theorem isWhole_digitBytes (n : Nat) : IsWhole (digitBytes n) := by
  rcases Nat.eq_zero_or_pos n with rfl | hn
  · exact .zero
  · refine .digits (isDigits_digitBytes n) ?_
    intro hzero
    rw [digitBytes, List.head?_map, Option.map_eq_some_iff] at hzero
    obtain ⟨c, hc, hbyte⟩ := hzero
    have hdigit := isDigit_of_mem_toDigits c (List.mem_of_mem_head? hc)
    have hnat := congrArg UInt8.toNat hbyte
    rw [toNat_byte_of_isDigit hdigit] at hnat
    exact head?_toDigits_ne hn (hc.trans (congrArg some (Char.toNat_inj.1 hnat)))

theorem digitsValue_digitBytes (n : Nat) : digitsValue 0 (digitBytes n) = n := by
  rw [digitBytes, digitsValue_map_byte isDigit_of_mem_toDigits, Nat.ofDigitChars_ten_toDigits]

/-- The sign of an integer. -/
def signBytes (n : Int) : List UInt8 := if n < 0 then [byte '-'] else []

theorem encode_render_int (n : Int) :
    encode (Number.int n).render = signBytes n ++ digitBytes n.natAbs := by
  have hdigits : encode (Nat.toDigits 10 n.natAbs) = digitBytes n.natAbs := by
    refine encode_of_ascii fun c hc => ?_
    have hdigit := isDigit_of_mem_toDigits c hc
    rw [Char.isDigit_iff_toNat] at hdigit
    have : c.toNat ≤ 57 := hdigit.2
    omega
  rw [Number.render, signBytes]
  split
  · rw [encode_cons, encodeChar_eq_byte (by decide), hdigits]
  · rw [hdigits, List.nil_append]

theorem isNumber_render_int (n : Int) : IsNumber (encode (Number.int n).render) := by
  have hnumber : IsNumber (signBytes n ++ (digitBytes n.natAbs ++ ([] ++ []))) := by
    refine .intro ?_ (isWhole_digitBytes _) .none .none
    unfold signBytes
    split
    · exact .inr rfl
    · exact .inl rfl
  rwa [List.append_nil, List.append_nil, ← encode_render_int] at hnumber

/-- The integers that are kept exactly: those of 64 bits, with a sign or without one. -/
def InRange (n : Int) : Prop := -0x8000000000000000 ≤ n ∧ n < 0x10000000000000000

theorem ofParts_digitBytes {n : Int} (h : InRange n) :
    Number.ofParts (decide (n < 0)) (digitBytes n.natAbs) [] [] = some (.int n) := by
  obtain ⟨hlow, hhigh⟩ := h
  rw [Number.ofParts, if_pos (by simp), digitsValue_digitBytes]
  by_cases hn : n < 0
  · have hbound : n.natAbs ≤ 2 ^ 63 := by omega
    have hvalue : -(n.natAbs : Int) = n := by omega
    rw [if_neg (by simp [hn]), if_pos ⟨by simp [hn], by omega, hbound⟩, hvalue]
  · have hbound : n.natAbs < 2 ^ 64 := by omega
    have hvalue : (n.natAbs : Int) = n := by omega
    rw [if_pos ⟨by simp [hn], hbound⟩, hvalue]

theorem ofText_render_int {n : Int} (h : InRange n) :
    Number.ofText (encode (Number.int n).render) = some (.int n) := by
  have hdigits := (isDigits_digitBytes n.natAbs).digits
  obtain ⟨d, ds, hcons, hd⟩ := (isWhole_digitBytes n.natAbs).exists_cons
  have hnegative : (signBytes n ++ digitBytes n.natAbs).head? = some (byte '-') ↔ n < 0 := by
    unfold signBytes
    split
    · next hn => simp [hn]
    · next hn => simp [hn, hcons, ne_of_isDigitByte hd (c := byte '-') (by decide)]
  have hrest : (if n < 0 then (signBytes n ++ digitBytes n.natAbs).drop 1
      else signBytes n ++ digitBytes n.natAbs) = digitBytes n.natAbs := by
    unfold signBytes
    split <;> rfl
  have hplain : ∀ b ∈ digitBytes n.natAbs, (!(b == byte 'e' || b == byte 'E')) = true := by
    intro b hb
    simp [ne_of_isDigitByte (hdigits b hb) (c := byte 'e') (by decide),
      ne_of_isDigitByte (hdigits b hb) (c := byte 'E') (by decide)]
  rw [encode_render_int, Number.ofText]
  simp only [hnegative, hrest, List.takeWhile_eq_self_iff.2 hdigits,
    List.dropWhile_eq_nil_iff.2 hdigits, List.dropWhile_eq_nil_iff.2 hplain, List.takeWhile_nil]
  exact ofParts_digitBytes h

/-- **An integer is read back from its digits.** -/
theorem readNumber_render {n : Int} (h : InRange n) {rest : List UInt8} (hrest : Delimited rest) :
    readNumber (encode (Number.int n).render ++ rest) = .ok (.int n, rest) := by
  have htext : (encode (Number.int n).render ++ rest).take
      ((encode (Number.int n).render ++ rest).length - rest.length) =
        encode (Number.int n).render := by simp
  rw [readNumber, skipNumber_append (isNumber_render_int n) hrest]
  simp only [bind, Except.bind, htext, ofText_render_int h]

/-! ## Values -/

/-- Values that their texts determine: there are no floating-point numbers, integers are in range,
and the members of objects are in the order of their keys. -/
inductive Exact : Value → Prop
  | null : Exact .null
  | bool (b : Bool) : Exact (.bool b)
  | int {n : Int} (h : InRange n) : Exact (.number (.int n))
  | string (s : String) : Exact (.string s)
  | array {items : List Value} (h : ∀ v ∈ items, Exact v) : Exact (.array items)
  | object {members : List (String × Value)} (hsorted : members.Pairwise fun a b => a.1 < b.1)
      (h : ∀ m ∈ members, Exact m.2) : Exact (.object members)

/-- A text that is read back as `v` wherever it stands, if the reader has fuel for its length. -/
structure ReadsBack (v : Value) (text : List Char) : Prop where
  begins : ∃ b t, encode text = b :: t ∧ Begins b
  read : ∀ (fuel : Nat) (ws rest : List UInt8), 2 * (encode text).length ≤ fuel → IsBlank ws →
    Delimited rest → readValue fuel (ws ++ (encode text ++ rest)) = .ok (v, rest)

/-! ### Words, numbers and strings -/

theorem readValue_scalar {fuel : Nat} {s t : List UInt8} {b : UInt8} (h : skipBlank s = b :: t)
    (hb : BeginsScalar b) : readValue (fuel + 1) s = readScalar (b :: t) := by
  rw [readValue, h]
  exact (if_neg (hb.notOpening .array)).trans (if_neg (hb.notOpening .object))

theorem readsBack_of_scalar {v : Value} {text : List Char}
    (hbegins : ∃ b t, encode text = b :: t ∧ BeginsScalar b)
    (hread : ∀ rest, Delimited rest → readScalar (encode text ++ rest) = .ok (v, rest)) :
    ReadsBack v text := by
  obtain ⟨b, t, htext, hb⟩ := hbegins
  refine ⟨⟨b, t, htext, hb.toBegins⟩, fun fuel ws rest hfuel hws hrest => ?_⟩
  obtain ⟨fuel, rfl⟩ : ∃ n, fuel = n + 1 := by
    rw [htext, List.length_cons] at hfuel
    exact ⟨fuel - 1, by omega⟩
  have hscalar := hread rest hrest
  rw [htext, List.cons_append] at hscalar ⊢
  rw [readValue_scalar (skipBlank_append_cons hws hb.notBlank _) hb]
  exact hscalar

theorem readsBack_null : ReadsBack .null "null".toList := by
  refine readsBack_of_scalar (IsScalar.word (w := "null".toList) (by simp)).exists_cons ?_
  intro rest _
  exact congrArg (Except.map _) (skipWord_append "ull".toList rest)

theorem readsBack_bool (b : Bool) :
    ReadsBack (.bool b) (if b then "true".toList else "false".toList) := by
  cases b with
  | true =>
    refine readsBack_of_scalar (IsScalar.word (w := "true".toList) (by simp)).exists_cons ?_
    intro rest _
    exact congrArg (Except.map _) (skipWord_append "rue".toList rest)
  | false =>
    refine readsBack_of_scalar (IsScalar.word (w := "false".toList) (by simp)).exists_cons ?_
    intro rest _
    exact congrArg (Except.map _) (skipWord_append "alse".toList rest)

theorem readsBack_int {n : Int} (h : InRange n) :
    ReadsBack (.number (.int n)) (Number.int n).render := by
  have hnumber := isNumber_render_int n
  refine readsBack_of_scalar (IsScalar.number hnumber).exists_cons fun rest hrest => ?_
  have hread := readNumber_render h hrest
  obtain ⟨b, t, htext, hb⟩ := hnumber.exists_cons
  obtain ⟨h₁, h₂, h₃, h₄⟩ := ne_of_beginsNumber hb
  rw [htext, List.cons_append] at hread ⊢
  rw [readScalar, if_neg h₁, if_neg h₂, if_neg h₃, if_neg h₄, if_pos hb, hread]
  rfl

theorem readsBack_string (s : String) : ReadsBack (.string s) (renderString s) := by
  have hquote : BeginsScalar (byte '"') := ⟨⟨by decide, by decide⟩, by rintro (_ | _) <;> decide⟩
  refine readsBack_of_scalar ⟨_, _, encode_renderString s, hquote⟩ fun rest _ => ?_
  rw [encode_renderString_append, readScalar, if_pos rfl, readText_flatMap_escapeChar]
  simp [Except.map]

/-! ### Arrays -/

section

variable {fuel : Nat} {v : Value} {s s' t rest : List UInt8}

theorem readItems_last (hvalue : readValue fuel s = .ok (v, s'))
    (hend : skipBlank s' = byte ']' :: rest) : readItems (fuel + 1) s = .ok ([v], rest) := by
  rw [readItems, hvalue]
  simp only [bind, Except.bind, hend]
  rfl

theorem readItems_more {items : List Value} (hvalue : readValue fuel s = .ok (v, s'))
    (hcomma : skipBlank s' = byte ',' :: t) (hitems : readItems fuel t = .ok (items, rest)) :
    readItems (fuel + 1) s = .ok (v :: items, rest) := by
  rw [readItems, hvalue]
  simp only [bind, Except.bind, hcomma, if_true, hitems]
  rfl

theorem readValue_items {items : List Value} {b : UInt8} {s' : List UInt8}
    (hs : skipBlank s = byte '[' :: t) (ht : skipBlank t = b :: s') (hb : b ≠ byte ']')
    (hitems : readItems fuel t = .ok (items, rest)) :
    readValue (fuel + 1) s = .ok (.array items, rest) := by
  rw [readValue, hs]
  refine (if_pos rfl).trans ?_
  simp only [ht, if_neg hb, hitems, bind, Except.bind]
  rfl

end

theorem one_le_length_newline (width depth : Nat) : 1 ≤ (encode (newline width depth)).length := by
  simp [newline, encode_cons, encodeChar_eq_byte]

theorem encode_lines_singleton (width depth : Nat) (t : List Char) :
    encode (lines width depth [t]) = encode (newline width depth) ++ encode t := by
  rw [lines, encode_append]

theorem encode_lines_cons (width depth : Nat) (t u : List Char) (ts : List (List Char)) :
    encode (lines width depth (t :: u :: ts)) = encode (newline width depth) ++
      (encode t ++ byte ',' :: encode (lines width depth (u :: ts))) := by
  rw [lines, encode_append, encode_append, encode_cons, encodeChar_eq_byte (by decide),
    List.append_assoc, List.singleton_append]
  simp

/-- **What is read on lines of its own is read back**, be it the items of an array or the members of
an object. -/
theorem read_lines {α : Type} {Back : α → List Char → Prop} (inside : Bracket)
    {read : Nat → List UInt8 → Except Failure (List α × List UInt8)}
    (hlast : ∀ {fuel a t ws ws' rest}, Back a t → 2 * (encode t).length ≤ fuel → IsBlank ws →
      IsBlank ws' →
        read (fuel + 1) (ws ++ (encode t ++ (ws' ++ inside.closing :: rest))) = .ok ([a], rest))
    (hmore : ∀ {fuel a as t ws s rest}, Back a t → 2 * (encode t).length ≤ fuel → IsBlank ws →
      read fuel s = .ok (as, rest) →
        read (fuel + 1) (ws ++ (encode t ++ byte ',' :: s)) = .ok (a :: as, rest))
    {as : List α} {texts : List (List Char)} (h : List.Forall₂ Back as texts) (hne : as ≠ [])
    (width depth : Nat) {fuel : Nat} {ws : List UInt8} (hws : IsBlank ws) (rest : List UInt8)
    (hfuel : 2 * (encode (lines width depth texts)).length ≤ fuel) :
    read fuel (encode (lines width depth texts) ++ (ws ++ inside.closing :: rest)) =
      .ok (as, rest) := by
  have hnewline := one_le_length_newline width depth
  induction h generalizing fuel with
  | nil => exact absurd rfl hne
  | @cons a t as texts ha h ih =>
    cases h with
    | nil =>
      rw [encode_lines_singleton, List.length_append] at hfuel
      obtain ⟨fuel, rfl⟩ : ∃ n, fuel = n + 1 := ⟨fuel - 1, by omega⟩
      rw [encode_lines_singleton, List.append_assoc]
      exact hlast ha (by omega) (isBlank_newline width depth) hws
    | @cons a' u as texts ha' h =>
      rw [encode_lines_cons, List.length_append, List.length_append, List.length_cons] at hfuel
      obtain ⟨fuel, rfl⟩ : ∃ n, fuel = n + 1 := ⟨fuel - 1, by omega⟩
      rw [encode_lines_cons, List.append_assoc, List.append_assoc, List.cons_append]
      exact hmore ha (by omega) (isBlank_newline width depth)
        (ih (List.cons_ne_nil _ _) (by omega))

theorem readItems_lines {items : List Value} {texts : List (List Char)}
    (h : List.Forall₂ ReadsBack items texts) (hne : items ≠ []) (width depth : Nat) {fuel : Nat}
    {ws : List UInt8} (hws : IsBlank ws) (rest : List UInt8)
    (hfuel : 2 * (encode (lines width depth texts)).length ≤ fuel) :
    readItems fuel (encode (lines width depth texts) ++ (ws ++ byte ']' :: rest)) =
      .ok (items, rest) := by
  refine read_lines .array ?_ ?_ h hne width depth hws rest hfuel
  · intro fuel v t ws ws' rest hv hfuel hws hws'
    exact readItems_last
      (hv.read _ _ _ hfuel hws ((delimited_closing .array rest).append_left hws'))
      (skipBlank_append_cons hws' (by decide) rest)
  · intro fuel v items t ws s rest hv hfuel hws hitems
    exact readItems_more (hv.read _ _ _ hfuel hws (delimited_comma s))
      (skipBlank_cons (by decide) s) hitems

theorem prettyItems_eq_map (width depth : Nat) (items : List Value) :
    prettyItems width depth items = items.map (prettyAt width depth) := by
  induction items with
  | nil => rfl
  | cons v items ih => rw [prettyItems, ih, List.map_cons]

/-- A text that begins with a bracket. -/
theorem readsBack_of_opening {inside : Bracket} {v : Value} {text : List Char} {body : List UInt8}
    (htext : encode text = inside.opening :: body)
    (hread : ∀ {fuel : Nat} {s rest : List UInt8}, 2 * body.length ≤ fuel →
      skipBlank s = inside.opening :: (body ++ rest) → readValue (fuel + 1) s = .ok (v, rest)) :
    ReadsBack v text := by
  have hblank := isBlankByte_opening inside
  refine ⟨⟨_, _, htext, hblank, by cases inside <;> decide⟩, fun fuel ws rest hfuel hws _ => ?_⟩
  rw [htext, List.length_cons] at hfuel
  obtain ⟨fuel, rfl⟩ : ∃ n, fuel = n + 1 := ⟨fuel - 1, by omega⟩
  refine hread (by omega) ?_
  rw [htext, List.cons_append, skipBlank_append_cons hws hblank]

/-- The bytes of texts between brackets, if there are any. -/
theorem encode_bracketed (inside : Bracket) {opening closing : Char}
    (hopening : encodeChar opening = [inside.opening])
    (hclosing : encodeChar closing = [inside.closing]) (width depth : Nat) (t : List Char)
    (ts : List (List Char)) :
    encode (bracketed width depth opening closing (t :: ts)) =
      inside.opening :: (encode (lines width (depth + 1) (t :: ts)) ++
        (encode (newline width depth) ++ [inside.closing])) := by
  rw [bracketed, if_neg (by simp)]
  simp only [encode_append, encode_cons, encode_nil, hopening, hclosing, List.cons_append,
    List.append_assoc, List.nil_append, List.append_nil]

theorem encode_bracketed_array (width depth : Nat) (t : List Char) (ts : List (List Char)) :
    encode (bracketed width depth '[' ']' (t :: ts)) =
      Bracket.array.opening :: (encode (lines width (depth + 1) (t :: ts)) ++
        (encode (newline width depth) ++ [Bracket.array.closing])) :=
  encode_bracketed .array (encodeChar_eq_byte (by decide)) (encodeChar_eq_byte (by decide)) ..

theorem encode_bracketed_object (width depth : Nat) (t : List Char) (ts : List (List Char)) :
    encode (bracketed width depth '\x7b' '\x7d' (t :: ts)) =
      Bracket.object.opening :: (encode (lines width (depth + 1) (t :: ts)) ++
        (encode (newline width depth) ++ [Bracket.object.closing])) :=
  encode_bracketed .object (encodeChar_eq_byte (by decide)) (encodeChar_eq_byte (by decide)) ..

/-- Beyond white space, lines begin as the first text does. -/
theorem exists_skipBlank_lines {t : List Char} {b : UInt8} {s : List UInt8}
    (ht : encode t = b :: s) (hb : isBlankByte b = false) (width depth : Nat)
    (ts : List (List Char)) (rest : List UInt8) :
    ∃ s', skipBlank (encode (lines width depth (t :: ts)) ++ rest) = b :: s' := by
  have hskip := skipBlank_append_cons (isBlank_newline width depth) hb
  cases ts with
  | nil =>
    rw [encode_lines_singleton, ht, List.append_assoc, List.cons_append]
    exact ⟨_, hskip _⟩
  | cons u ts =>
    rw [encode_lines_cons, ht, List.append_assoc, List.cons_append, List.cons_append]
    exact ⟨_, hskip _⟩

theorem readsBack_array {items : List Value} {texts : List (List Char)}
    (h : List.Forall₂ ReadsBack items texts) (width depth : Nat) :
    ReadsBack (.array items) (bracketed width depth '[' ']' texts) := by
  cases h with
  | nil =>
    have htext : encode ['[', ']'] = Bracket.array.opening :: [byte ']'] := rfl
    refine readsBack_of_opening htext fun {fuel s rest} _ hs => ?_
    rw [readValue, hs]
    rfl
  | @cons v t items texts hv h =>
    refine readsBack_of_opening (encode_bracketed_array width depth t texts) ?_
    intro fuel s rest hfuel hs
    simp only [List.length_append] at hfuel
    simp only [List.append_assoc, List.singleton_append] at hs
    obtain ⟨b, t', ht, hb⟩ := hv.begins
    obtain ⟨s', hfirst⟩ := exists_skipBlank_lines ht hb.notBlank width (depth + 1) texts _
    exact readValue_items hs hfirst hb.notClosing (readItems_lines (.cons hv h)
      (List.cons_ne_nil _ _) width (depth + 1) (isBlank_newline width depth) rest (by omega))

/-! ### Objects -/

theorem readKey_append {ws : List UInt8} (hws : IsBlank ws) (key : String) (rest : List UInt8) :
    readKey (ws ++ (encode (renderString key) ++ byte ':' :: rest)) = .ok (key, rest) := by
  rw [encode_renderString_append, readKey, skipBlank_append_cons hws (by decide), expect,
    if_pos rfl]
  show (readText _ >>= _) = _
  have hcolon : expect (byte ':') (skipBlank (byte ':' :: rest)) = .ok rest := by
    rw [skipBlank_cons (by decide), expect, if_pos rfl]
  rw [readText_flatMap_escapeChar]
  simp only [bind, Except.bind, hcolon, String.ofList_toList]
  rfl

section

variable {fuel : Nat} {key : String} {v : Value} {s s' t rest : List UInt8}

theorem readMembers_last (hkey : readKey s = .ok (key, t)) (hvalue : readValue fuel t = .ok (v, s'))
    (hend : skipBlank s' = byte '\x7d' :: rest) :
    readMembers (fuel + 1) s = .ok ([(key, v)], rest) := by
  rw [readMembers, hkey]
  simp only [bind, Except.bind, hvalue, hend]
  rfl

theorem readMembers_more {u : List UInt8} {members : List (String × Value)}
    (hkey : readKey s = .ok (key, t)) (hvalue : readValue fuel t = .ok (v, s'))
    (hcomma : skipBlank s' = byte ',' :: u) (hmembers : readMembers fuel u = .ok (members, rest)) :
    readMembers (fuel + 1) s = .ok ((key, v) :: members, rest) := by
  rw [readMembers, hkey]
  simp only [bind, Except.bind, hvalue, hcomma, if_true, hmembers]
  rfl

theorem readValue_members {members : List (String × Value)} {b : UInt8}
    (hs : skipBlank s = byte '\x7b' :: t) (ht : skipBlank t = b :: s') (hb : b ≠ byte '\x7d')
    (hmembers : readMembers fuel t = .ok (members, rest)) :
    readValue (fuel + 1) s = .ok (.object (sortMembers members), rest) := by
  rw [readValue, hs]
  refine (if_neg (by decide)).trans ((if_pos rfl).trans ?_)
  simp only [ht, if_neg hb, hmembers, bind, Except.bind]
  rfl

end

/-- The text of a member that is read back. -/
inductive MemberReadsBack : String × Value → List Char → Prop
  | intro {key : String} {v : Value} {text : List Char} (h : ReadsBack v text) :
      MemberReadsBack (key, v) (renderString key ++ ':' :: ' ' :: text)

/-- The bytes of a member up to its value. -/
theorem encode_member (key : String) (text : List Char) :
    encode (renderString key ++ ':' :: ' ' :: text) =
      encode (renderString key) ++ byte ':' :: byte ' ' :: encode text := by
  rw [encode_append, encode_cons, encode_cons, encodeChar_eq_byte (by decide),
    encodeChar_eq_byte (by decide)]
  rfl

theorem MemberReadsBack.exists_cons {m : String × Value} {t : List Char}
    (h : MemberReadsBack m t) : ∃ t', encode t = byte '"' :: t' := by
  obtain @⟨key, v, text, hv⟩ := h
  rw [encode_member, encode_renderString_append]
  exact ⟨_, rfl⟩

theorem readMembers_lines {members : List (String × Value)} {texts : List (List Char)}
    (h : List.Forall₂ MemberReadsBack members texts) (hne : members ≠ []) (width depth : Nat)
    {fuel : Nat} {ws : List UInt8} (hws : IsBlank ws) (rest : List UInt8)
    (hfuel : 2 * (encode (lines width depth texts)).length ≤ fuel) :
    readMembers fuel (encode (lines width depth texts) ++ (ws ++ byte '\x7d' :: rest)) =
      .ok (members, rest) := by
  refine read_lines .object ?_ ?_ h hne width depth hws rest hfuel
  · rintro fuel _ _ ws ws' rest @⟨key, v, text, hv⟩ hfuel hws hws'
    simp only [encode_member, List.length_append, List.length_cons] at hfuel
    simp only [encode_member, List.append_assoc, List.cons_append]
    exact readMembers_last (readKey_append hws key _)
      (hv.read _ [byte ' '] _ (by omega) isBlank_space
        ((delimited_closing .object rest).append_left hws'))
      (skipBlank_append_cons hws' (by decide) rest)
  · rintro fuel _ members _ ws s rest @⟨key, v, text, hv⟩ hfuel hws hmembers
    simp only [encode_member, List.length_append, List.length_cons] at hfuel
    simp only [encode_member, List.append_assoc, List.cons_append]
    exact readMembers_more (readKey_append hws key _)
      (hv.read _ [byte ' '] _ (by omega) isBlank_space (delimited_comma s))
      (skipBlank_cons (by decide) s) hmembers

theorem prettyMembers_eq_map (width depth : Nat) (members : List (String × Value)) :
    prettyMembers width depth members = members.map fun m =>
      renderString m.1 ++ ':' :: ' ' :: m.2.prettyAt width depth := by
  induction members with
  | nil => rfl
  | cons m members ih => rw [prettyMembers, ih, List.map_cons]

theorem insertEntry_of_forall_lt {key : String} {v : Value} {members : List (String × Value)}
    (h : ∀ m ∈ members, m.1 < key) : Dict.insertEntry key v members = members ++ [(key, v)] := by
  induction members with
  | nil => rfl
  | cons m members ih =>
    rw [List.forall_mem_cons] at h
    rw [Dict.insertEntry, if_neg (String.lt_asymm h.1), if_pos h.1, ih h.2, List.cons_append]

/-- Members in the order of their keys stay in it. -/
theorem sortMembers_of_sorted {members : List (String × Value)}
    (h : members.Pairwise fun a b => a.1 < b.1) : sortMembers members = members := by
  -- what has been taken in comes before what has not
  have hfold : ∀ taken, (taken ++ members).Pairwise (fun a b => a.1 < b.1) →
      members.foldl (fun sorted m => setMember m.1 m.2 sorted) taken = taken ++ members := by
    clear h
    induction members with
    | nil => simp
    | cons m members ih =>
      intro taken htaken
      have hlt : ∀ a ∈ taken, a.1 < m.1 := fun a ha =>
        (List.pairwise_append.1 htaken).2.2 a ha m List.mem_cons_self
      rw [List.append_cons] at htaken
      rw [List.foldl_cons, setMember, insertEntry_of_forall_lt hlt, ih _ htaken,
        List.append_assoc, List.singleton_append]
  exact hfold [] h

theorem readsBack_object {members : List (String × Value)} {texts : List (List Char)}
    (h : List.Forall₂ MemberReadsBack members texts)
    (hsorted : members.Pairwise fun a b => a.1 < b.1) (width depth : Nat) :
    ReadsBack (.object members) (bracketed width depth '\x7b' '\x7d' texts) := by
  cases h with
  | nil =>
    have htext : encode ['\x7b', '\x7d'] = Bracket.object.opening :: [byte '\x7d'] := rfl
    refine readsBack_of_opening htext fun {fuel s rest} _ hs => ?_
    rw [readValue, hs]
    rfl
  | @cons m t members texts hm h =>
    refine readsBack_of_opening (encode_bracketed_object width depth t texts) ?_
    intro fuel s rest hfuel hs
    simp only [List.length_append] at hfuel
    simp only [List.append_assoc, List.singleton_append] at hs
    obtain ⟨t', ht⟩ := hm.exists_cons
    obtain ⟨s', hfirst⟩ := exists_skipBlank_lines ht (by decide) width (depth + 1) texts _
    rw [← sortMembers_of_sorted hsorted]
    exact readValue_members hs hfirst (by decide) (readMembers_lines (.cons hm h)
      (List.cons_ne_nil _ _) width (depth + 1) (isBlank_newline width depth) rest (by omega))

/-- The texts of the members of an object are read back. -/
theorem forall₂_prettyMembers {members : List (String × Value)} {width depth : Nat}
    (h : ∀ m ∈ members, ReadsBack m.2 (m.2.prettyAt width depth)) :
    List.Forall₂ MemberReadsBack members (prettyMembers width depth members) := by
  rw [prettyMembers_eq_map, List.forall₂_map_right_iff, List.forall₂_same]
  exact fun m hm => .intro (h m hm)

/-- **A value is read back from its text, whatever follows.** -/
theorem readsBack_prettyAt {v : Value} (h : Exact v) (width depth : Nat) :
    ReadsBack v (v.prettyAt width depth) := by
  induction h generalizing depth with
  | null => exact readsBack_null
  | bool b => exact readsBack_bool b
  | int h => exact readsBack_int h
  | string s => exact readsBack_string s
  | array _ ih =>
    rw [prettyAt, prettyItems_eq_map]
    refine readsBack_array ?_ width depth
    rw [List.forall₂_map_right_iff, List.forall₂_same]
    exact fun v hv => ih v hv (depth + 1)
  | object hsorted _ ih =>
    rw [prettyAt]
    exact readsBack_object (forall₂_prettyMembers fun m hm => ih m hm (depth + 1)) hsorted width
      depth

/-- The text of a value is a JSON text of this value and of nothing else. -/
theorem read_prettyAt {v : Value} (h : Exact v) (width : Nat) :
    Value.read (encode (v.prettyAt width 0)) = .ok v := by
  have hread := (readsBack_prettyAt h width 0).read
    (2 * (encode (v.prettyAt width 0)).length + 2) [] [] (by omega) isBlank_nil delimited_nil
  rw [List.nil_append, List.append_nil] at hread
  rw [Value.read, hread]
  rfl

/-- The members of the object in a JSON text in the order in which they stand there, which is not
changed as it is in the value of the text. -/
def membersIn (text : List UInt8) : Except Failure (List (String × Value)) := do
  let s ← expect (byte '\x7b') (skipBlank text)
  if (skipBlank s).head? = some (byte '\x7d') then .ok []
  else (readMembers (2 * s.length) s).map (·.1)

theorem membersIn_prettyAt {members : List (String × Value)} (h : ∀ m ∈ members, Exact m.2)
    (width : Nat) :
    membersIn (encode ((Value.object members).prettyAt width 0)) = .ok members := by
  have hmembers : List.Forall₂ MemberReadsBack members (prettyMembers width 1 members) :=
    forall₂_prettyMembers fun m hm => readsBack_prettyAt (h m hm) width 1
  rw [prettyAt]
  generalize prettyMembers width 1 members = texts at hmembers
  cases hmembers with
  | nil => rfl
  | @cons m t members texts hm hrest =>
    obtain ⟨t', ht⟩ := hm.exists_cons
    obtain ⟨s', hfirst⟩ := exists_skipBlank_lines ht (by decide) width 1 texts
      (encode (newline width 0) ++ [Bracket.object.closing])
    have hfuel : 2 * (encode (lines width 1 (t :: texts))).length ≤
        2 * (encode (lines width 1 (t :: texts)) ++
          (encode (newline width 0) ++ [Bracket.object.closing])).length := by
      simp only [List.length_append]
      omega
    have hread := readMembers_lines (.cons hm hrest) (List.cons_ne_nil _ _) width 1
      (isBlank_newline width 0) [] hfuel
    rw [encode_bracketed_object, membersIn,
      skipBlank_cons (isBlankByte_opening .object)]
    show (if (skipBlank (encode (lines width 1 (t :: texts)) ++
      (encode (newline width 0) ++ [Bracket.object.closing]))).head? = _ then _ else _) = _
    rw [hfirst, List.head?_cons, if_neg (by decide)]
    exact congrArg _ hread

end LayoutShell.Json
