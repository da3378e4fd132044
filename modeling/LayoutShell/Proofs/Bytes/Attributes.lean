import LayoutShell.Proofs.Bytes.Lexemes
import LayoutShell.Proofs.Markup.Attributes

/-!
# Attributes of a tag of bytes

The attributes of a tag are read byte by byte. A key begins with any byte and ends at the byte of
`=` or of a space, and a value stands between two equal quotes. In the bytes of a text these are the
bytes of its attributes, at the same places.

* `Bytes.Attribute.scan` and `Bytes.Attribute.distinct` read the attributes of a tag.
* `Bytes.Attribute.read_encode` compares one attribute, `Bytes.Attribute.scan_encode` and
  `Bytes.Attribute.distinct_encode` all of them.
-/

namespace LayoutShell.Markup

open Text

namespace Bytes

/-- An attribute with the byte at which its key begins. -/
structure Attribute where
  place : Nat
  key : Slice
  value : Slice
  deriving DecidableEq

namespace Attribute

/-! ## The reader -/

/-- What stands at the start of the attributes of a tag. -/
inductive Reading
  | done
  | noKey (e : AttributeError)
  | noValue (place : Nat) (key : Slice) (e : AttributeError)
  | found (a : Attribute) (next : Nat) (rest : Slice)
  deriving DecidableEq

/-- The value after `=`: space, then bytes in single or double quotes. -/
def readValue (keyPlace : Nat) (key : Slice) (place : Nat) (s : Slice) : Reading :=
  let place := place + (s.takeWhile isSpace).length
  match s.dropWhile isSpace with
  | [] => .noValue keyPlace key (.missingValue place)
  | quote :: s =>
    if quote = '"'.toUInt8 ∨ quote = '\''.toUInt8 then
      let value := s.takeWhile (· != quote)
      let stop := place + 1 + value.length
      match s.dropWhile (· != quote) with
      | [] => .noValue keyPlace key (.missingQuote stop (Char.ofNat quote.toNat))
      | _ :: rest => .found ⟨keyPlace, key, value⟩ (stop + 1) rest
    else .noValue keyPlace key (.unquoted place)

/-- The bytes that continue a key. -/
def isKeyByte (b : UInt8) : Bool := b != '='.toUInt8 && !isSpace b

/-- The attribute at the start of `s`, which begins at byte `place`. -/
def read (place : Nat) (s : Slice) : Reading :=
  let place := place + (s.takeWhile isSpace).length
  match s.dropWhile isSpace with
  | [] => .done
  | b :: s =>
    let key := b :: s.takeWhile isKeyByte
    let s := s.dropWhile isKeyByte
    let stop := place + key.length + (s.takeWhile isSpace).length
    match s.dropWhile isSpace with
    | [] => .noKey (.missingEquals stop)
    | sign :: s =>
      if sign = '='.toUInt8 then readValue place key (stop + 1) s
      else .noKey (.missingEquals stop)

theorem length_dropWhile_le (p : UInt8 → Bool) (s : Slice) : (s.dropWhile p).length ≤ s.length :=
  (List.dropWhile_sublist p).length_le

theorem length_readValue {keyPlace place next : Nat} {key s rest : Slice} {a : Attribute}
    (h : readValue keyPlace key place s = .found a next rest) : rest.length < s.length := by
  have hspace := length_dropWhile_le isSpace s
  simp only [readValue] at h
  split at h
  · cases h
  · next quote t ht =>
    have hvalue := length_dropWhile_le (· != quote) t
    rw [ht, List.length_cons] at hspace
    split at h
    · split at h
      · cases h
      · next hrest =>
        rw [hrest, List.length_cons] at hvalue
        cases h
        omega
    · cases h

/-- Reading an attribute shortens the bytes. -/
theorem length_of_read {place next : Nat} {s rest : Slice} {a : Attribute}
    (h : read place s = .found a next rest) : rest.length < s.length := by
  have hspace := length_dropWhile_le isSpace s
  simp only [read] at h
  split at h
  · cases h
  · next b t ht =>
    have hkey := length_dropWhile_le isKeyByte t
    have hspace' := length_dropWhile_le isSpace (t.dropWhile isKeyByte)
    rw [ht, List.length_cons] at hspace
    split at h
    · cases h
    · next sign u hu =>
      rw [hu, List.length_cons] at hspace'
      split at h
      · have hvalue := length_readValue h
        omega
      · cases h

/-- The attributes in bytes that begin at byte `place`, up to the first malformed one. -/
def readings (place : Nat) (s : Slice) : List Reading :=
  match _h : read place s with
  | .done => []
  | .found a next rest => .found a next rest :: readings next rest
  | .noKey e => [.noKey e]
  | .noValue keyPlace key e => [.noValue keyPlace key e]
termination_by s.length
decreasing_by exact length_of_read _h

/-- The attribute that was read, if it is well formed. -/
def Reading.attribute? : Reading → Option Attribute
  | found a _ _ => some a
  | _ => none

/-- The well-formed attributes before the first malformed one. -/
def scan (place : Nat) (s : Slice) : List Attribute :=
  (readings place s).filterMap Reading.attribute?

/-- The attributes of a tag, refusing a key already among `seen`. -/
def distinctFrom (seen : List (Slice × Nat)) :
    List Reading → List (Except AttributeError Attribute)
  | [] => []
  | .done :: _ => []
  | .noKey e :: _ => [.error e]
  | .noValue place key e :: _ =>
    match seen.lookup key with
    | some previous => [.error (.duplicate place previous)]
    | none => [.error e]
  | .found a _ _ :: rest =>
    match seen.lookup a.key with
    | some previous => [.error (.duplicate a.place previous)]
    | none => .ok a :: distinctFrom ((a.key, a.place) :: seen) rest

/-- The attributes of a tag in order, up to the first error. -/
def distinct (place : Nat) (s : Slice) : List (Except AttributeError Attribute) :=
  distinctFrom [] (readings place s)

end Attribute

end Bytes

/-! ## Bytes of attributes -/

/-- The attribute with its bytes in place of its characters. -/
def Attribute.bytes (a : Attribute) : Bytes.Attribute := ⟨a.place, encode a.key, encode a.value⟩

/-- What was read, with bytes in place of characters. -/
def Attribute.Reading.bytes : Attribute.Reading → Bytes.Attribute.Reading
  | .done => .done
  | .noKey e => .noKey e
  | .noValue place key e => .noValue place (encode key) e
  | .found a next rest => .found a.bytes next (encode rest)

namespace Bytes.Attribute

/-! ## One attribute -/

theorem readValue_encode (keyPlace place : Nat) (key s : List Char) :
    readValue keyPlace (encode key) place (encode s) =
      (Markup.Attribute.readValue keyPlace key place s).bytes := by
  simp only [readValue, Markup.Attribute.readValue, Markup.Attribute.spanOf,
    takeWhile_encode agree_isSpace, dropWhile_encode agree_isSpace, length_encode]
  cases s.dropWhile isMarkupSpace with
  | nil => rfl
  | cons quote t =>
    by_cases hquote : quote = '"' ∨ quote = '\''
    · have hascii : quote.toNat < 0x80 := by rcases hquote with rfl | rfl <;> decide
      have hbyte : quote.toUInt8 = '"'.toUInt8 ∨ quote.toUInt8 = '\''.toUInt8 := by
        rcases hquote with rfl | rfl <;> simp
      simp only [encode_cons_of_ascii hascii, hbyte, hquote, if_true,
        takeWhile_encode (Agree.ascii_ne hascii), dropWhile_encode (Agree.ascii_ne hascii),
        length_encode, ofNat_toUInt8 hascii]
      cases hrest : t.dropWhile fun c => decide (c ≠ quote) with
      | nil => rfl
      | cons c rest =>
        rw [eq_of_dropWhile_eq_cons hrest, encode_cons_of_ascii hascii]
        rfl
    · obtain ⟨b, tail, hbytes, -⟩ := exists_encodeChar_eq quote
      have hb : ¬(b = '"'.toUInt8 ∨ b = '\''.toUInt8) := by
        rwa [head_eq_toUInt8_iff hbytes (by decide), head_eq_toUInt8_iff hbytes (by decide)]
      simp only [encode_cons, hbytes, List.cons_append, hb, hquote, if_false]
      rfl

theorem agree_isKeyByte : Agree isKeyByte Markup.Attribute.isKeyChar :=
  (Agree.ascii (by decide)).not.and agree_isSpace.not

theorem isKeyByte_of_high {b : UInt8} (hb : 0x80 ≤ b) : isKeyByte b = true := by
  have hne : ∀ d : Char, d.toNat < 0x80 → (b == d.toUInt8) = false := fun d hd =>
    beq_false_of_ne (ne_toUInt8_of_high hb hd)
  simp [isKeyByte, isSpace, bne, hne '=' (by decide), hne ' ' (by decide), hne '\t' (by decide),
    hne '\r' (by decide), hne '\n' (by decide)]

/-- An attribute begins and ends at the same bytes in both readings. -/
theorem read_encode (place : Nat) (s : List Char) :
    read place (encode s) = (Markup.Attribute.read place s).bytes := by
  simp only [read, Markup.Attribute.read, Markup.Attribute.spanOf, takeWhile_encode agree_isSpace,
    dropWhile_encode agree_isSpace, length_encode]
  cases s.dropWhile isMarkupSpace with
  | nil => rfl
  | cons c t =>
    -- a key takes all bytes of its first character, since only the first can be ASCII
    obtain ⟨b, tail, hbytes, htail⟩ := exists_encodeChar_eq c
    have hkeyTail : ∀ d ∈ tail, isKeyByte d = true := fun d hd => isKeyByte_of_high (htail d hd)
    have hkey : b :: (tail ++ encode t).takeWhile isKeyByte =
        encode (c :: t.takeWhile Markup.Attribute.isKeyChar) := by
      rw [List.takeWhile_append_of_pos hkeyTail, takeWhile_encode agree_isKeyByte, encode_cons,
        hbytes, List.cons_append]
    have hrest : (tail ++ encode t).dropWhile isKeyByte =
        encode (t.dropWhile Markup.Attribute.isKeyChar) := by
      rw [List.dropWhile_append_of_pos hkeyTail, dropWhile_encode agree_isKeyByte]
    simp only [encode_cons c t, hbytes, List.cons_append, hkey, hrest,
      takeWhile_encode agree_isSpace, dropWhile_encode agree_isSpace, length_encode]
    cases (t.dropWhile Markup.Attribute.isKeyChar).dropWhile isMarkupSpace with
    | nil => rfl
    | cons sign u =>
      by_cases hsign : sign = '='
      · subst hsign
        simp only [encode_cons_of_ascii (c := '=') (by decide), if_true, readValue_encode]
      · obtain ⟨b', tail', hbytes', -⟩ := exists_encodeChar_eq sign
        have hb' : b' ≠ '='.toUInt8 := by
          rwa [Ne, head_eq_toUInt8_iff hbytes' (by decide)]
        simp only [encode_cons, hbytes', List.cons_append, hb', if_false]
        split
        · next h => exact absurd (List.cons.inj h).1 hsign
        · rfl

/-! ## All attributes -/

theorem readings_eq (place : Nat) (s : Slice) :
    readings place s = match read place s with
      | .done => []
      | .found a next rest => .found a next rest :: readings next rest
      | .noKey e => [.noKey e]
      | .noValue keyPlace key e => [.noValue keyPlace key e] := by
  rw [readings]
  cases read place s <;> rfl

theorem readings_encode (place : Nat) (s : List Char) :
    readings place (encode s) =
      (Markup.Attribute.readings place s).map Markup.Attribute.Reading.bytes := by
  fun_induction Markup.Attribute.readings place s with
  | case1 place s h => rw [readings_eq, read_encode, h]; rfl
  | case2 place s a next rest h ih =>
    rw [readings_eq, read_encode, h, List.map_cons, ← ih]
    rfl
  | case3 place s hdone hfound =>
    rw [readings_eq, read_encode]
    cases h : Markup.Attribute.read place s with
    | done => exact absurd h hdone
    | found a next rest => exact absurd h (hfound a next rest)
    | noKey | noValue => rfl

/-- **The well-formed attributes of the bytes of a tag are those of the tag.** -/
theorem scan_encode (place : Nat) (s : List Char) :
    scan place (encode s) = (Markup.Attribute.scan place s).map Markup.Attribute.bytes := by
  rw [scan, readings_encode, Markup.Attribute.scan_eq, List.filterMap_map, List.map_filterMap]
  congr 1
  funext r
  cases r <;> rfl

/-- Keys are the same if their bytes are. -/
theorem lookup_encode (key : List Char) (seen : List (List Char × Nat)) :
    (seen.map fun (k, place) => (encode k, place)).lookup (encode key) = seen.lookup key := by
  induction seen with
  | nil => rfl
  | cons entry seen ih =>
    obtain ⟨k, place⟩ := entry
    have hbeq : (encode key == encode k) = (key == k) := by
      rw [Bool.eq_iff_iff, beq_iff_eq, beq_iff_eq, encode_eq_iff]
    rw [List.map_cons, List.lookup_cons, List.lookup_cons, hbeq, ih]

theorem distinctFrom_encode (seen : List (List Char × Nat)) (rs : List Markup.Attribute.Reading) :
    distinctFrom (seen.map fun (k, place) => (encode k, place))
        (rs.map Markup.Attribute.Reading.bytes) =
      (Markup.Attribute.distinctFrom seen rs).map (Except.map Markup.Attribute.bytes) := by
  induction rs generalizing seen with
  | nil => rfl
  | cons r rs ih =>
    cases r with
    | done => rfl
    | noKey e => rfl
    | noValue place key e =>
      simp only [List.map_cons, Markup.Attribute.Reading.bytes, distinctFrom,
        Markup.Attribute.distinctFrom, lookup_encode]
      cases seen.lookup key <;> rfl
    | found a next rest =>
      simp only [List.map_cons, Markup.Attribute.Reading.bytes, distinctFrom,
        Markup.Attribute.distinctFrom, Markup.Attribute.bytes, lookup_encode]
      cases seen.lookup a.key with
      | some previous => rfl
      | none => exact congrArg (Except.ok _ :: ·) (ih ((a.key, a.place) :: seen))

/-- **So are the attributes up to the first error, and that error.** -/
theorem distinct_encode (place : Nat) (s : List Char) :
    distinct place (encode s) =
      (Markup.Attribute.distinct place s).map (Except.map Markup.Attribute.bytes) := by
  rw [distinct, readings_encode, Markup.Attribute.distinct]
  exact distinctFrom_encode [] _

end Bytes.Attribute

end LayoutShell.Markup
