import LayoutShell.Markup.Lexeme
import LayoutShell.Proofs.Markup.Events
import LayoutShell.Proofs.Text.Bytewise

/-!
# Lexemes of a document of bytes

The reader of a document can do without characters: it compares single bytes with the bytes of ASCII
characters and takes what stands between them as it is. This is such a reader for lexemes. On the
bytes of a text it finds the bytes of the lexemes of the text.

* `Bytes.read` and `Bytes.scan` read the lexemes of a document of bytes.
* `Bytes.cutTag_encode`, `Bytes.cutAtWord_encode` and `Bytes.cutNested_encode` compare the places
  where bytes and characters are cut.
* `Bytes.read_encode` and `Bytes.scan_encode` compare the lexemes.
-/

namespace LayoutShell.Markup

open Text

namespace Bytes

/-- Bytes that stand together in a document. -/
abbrev Slice := List UInt8

/-! ## The reader -/

/-- The space characters of markup. -/
def isSpace (b : UInt8) : Bool :=
  b == ' '.toUInt8 || b == '\t'.toUInt8 || b == '\r'.toUInt8 || b == '\n'.toUInt8

/-- A piece of a document. -/
inductive Lexeme
  | text (content : Slice)
  | startTag (content : Slice)
  | emptyTag (content : Slice)
  | endTag (content : Slice)
  /-- A comment, character data section, document type declaration or instruction. -/
  | aside
  deriving DecidableEq

/-- What stands at the start of a document. -/
inductive Reading
  | done
  | fault (message : String)
  | found (lexeme : Lexeme) (rest : Slice)
  deriving DecidableEq

/-- The bytes before the first `stop` and those after it. -/
def cutAt (stop : Char) (s : Slice) : Slice × Slice :=
  (s.takeWhile (· != stop.toUInt8), (s.dropWhile (· != stop.toUInt8)).tail)

/-- Stops behind `a` in a state that allows it. -/
def stopAt {α σ : Type} [DecidableEq α] (a : α) (allowed : σ → Bool) :
    σ → List α → Option (List α)
  | state, b :: rest => if b = a ∧ allowed state then some rest else none
  | _, [] => none

/-- The quote that is open after `b`, given the one open before it. -/
def nextQuote (quote : Option UInt8) (b : UInt8) : Option UInt8 :=
  match quote with
  | none => if b = '"'.toUInt8 ∨ b = '\''.toUInt8 then some b else none
  | some q => if b = q then none else some q

/-- The content of a tag, up to the first `>` outside quotes, and the bytes after that `>`. -/
def cutTag (s : Slice) : Slice × Slice :=
  (cut (stopAt '>'.toUInt8 Option.isNone) nextQuote none s).getD (s, [])

/-- The number of `<` that are not matched by a `>` after `b`. -/
def nextDepth (depth : Nat) (b : UInt8) : Nat :=
  if b = '<'.toUInt8 then depth + 1 else if b = '>'.toUInt8 then depth - 1 else depth

/-- The content of a declaration, up to the first `>` not matched by a `<`, and what follows. -/
def cutNested (s : Slice) : Option (Slice × Slice) :=
  cut (stopAt '>'.toUInt8 (· == 0)) nextDepth 0 s

/-- Stops behind the bytes of a word. -/
def stopBehind (word : List Char) (_ : Unit) (s : Slice) : Option Slice :=
  if (word.map Char.toUInt8).isPrefixOf s then some (s.drop word.length) else none

/-- The bytes before the first occurrence of a word and those after it. -/
def cutAtWord (word : List Char) (s : Slice) : Option (Slice × Slice) :=
  cut (stopBehind word) (fun _ _ => ()) () s

/-- An ASCII letter in upper case. -/
def toUpper (b : UInt8) : UInt8 := if 'a'.toUInt8 ≤ b ∧ b ≤ 'z'.toUInt8 then b - 32 else b

/-- What follows a word at the start of a document, the case of ASCII letters aside. -/
def afterWord : List Char → Slice → Option Slice
  | [], s => some s
  | _ :: _, [] => none
  | w :: word, b :: s => if toUpper b = w.toUInt8 then afterWord word s else none

/-- The message about a byte after `<!` that begins no known construct. -/
def strangeBang (b : UInt8) : String :=
  "Only Comment (`--`), CDATA (`[CDATA[`) and DOCTYPE (`DOCTYPE`) nodes can start with a '!', " ++
    "but symbol `" ++ (Char.ofNat b.toNat).toString ++ "` found"

/-- The lexeme that begins with `<!`. -/
def readBang : Slice → Reading
  | [] => .fault Fault.bareBang.message
  | b :: rest =>
    if b = '-'.toUInt8 then
      if rest.head? = some '-'.toUInt8 then
        match cutAtWord ['-', '-', '>'] rest.tail with
        | some (_, rest) => .found .aside rest
        | none => .fault Fault.comment.message
      else .fault Fault.comment.message
    else if b = '['.toUInt8 then
      match (afterWord "CDATA[".toList rest).bind (cutAtWord [']', ']', '>']) with
      | some (_, rest) => .found .aside rest
      | none => .fault Fault.cdata.message
    else if b = 'D'.toUInt8 ∨ b = 'd'.toUInt8 then
      match cutNested (b :: rest) with
      | some (declaration, rest) =>
        match afterWord "DOCTYPE".toList declaration with
        | some content =>
          if content.all isSpace then .fault Fault.emptyDoctype.message else .found .aside rest
        | none => .fault Fault.doctype.message
      | none => .fault Fault.doctype.message
    else .fault (strangeBang b)

/-- The lexeme that begins with `<?`. -/
def readInstruction (s : Slice) : Reading :=
  let (body, rest) := cutAt '>' s
  if 2 ≤ body.length ∧ body.getLast? = some '?'.toUInt8 then .found .aside rest
  else .fault Fault.instruction.message

/-- The lexeme that begins with `</`. -/
def readEndTag (s : Slice) : Reading :=
  let (content, rest) := cutAt '>' s
  .found (.endTag content) rest

/-- The lexeme that begins with `<` and a name. -/
def readTag (s : Slice) : Reading :=
  let (content, rest) := cutTag s
  if content.getLast? = some '/'.toUInt8 then .found (.emptyTag content.dropLast) rest
  else .found (.startTag content) rest

/-- The bytes up to the next `<`. -/
def readText (s : Slice) : Reading :=
  .found (.text ((s.takeWhile (· != '<'.toUInt8)).rdropWhile isSpace))
    (s.dropWhile (· != '<'.toUInt8))

/-- The lexeme that begins with `<`. -/
def readMarkup : Slice → Reading
  | [] => .done
  | b :: rest =>
    if b = '!'.toUInt8 then readBang rest
    else if b = '?'.toUInt8 then readInstruction rest
    else if b = '/'.toUInt8 then readEndTag rest
    else readTag (b :: rest)

/-- The lexeme at the start of a document without leading space. -/
def readTrimmed : Slice → Reading
  | [] => .done
  | b :: rest => if b = '<'.toUInt8 then readMarkup rest else readText (b :: rest)

/-- The first lexeme of a document. -/
def read (s : Slice) : Reading := readTrimmed (s.dropWhile isSpace)

/-! ## The rest is shorter -/

theorem length_stopAt {α σ : Type} [DecidableEq α] {a : α} {allowed : σ → Bool} (state : σ)
    (s after : List α) (h : stopAt a allowed state s = some after) : after.length ≤ s.length := by
  unfold stopAt at h
  split at h
  · split at h <;> cases h
    simp
  · cases h

theorem length_cutAt (stop : Char) (s : Slice) : (cutAt stop s).2.length ≤ s.length := by
  have hdrop := (List.dropWhile_sublist (l := s) (· != stop.toUInt8)).length_le
  simp only [cutAt, List.length_tail]
  omega

theorem length_cutTag (s : Slice) : (cutTag s).2.length ≤ s.length := by
  unfold cutTag
  cases h : cut (stopAt '>'.toUInt8 Option.isNone) nextQuote none s with
  | none => simp
  | some parts => exact length_cut length_stopAt h

theorem length_cutAtWord {word : List Char} {s before after : Slice}
    (h : cutAtWord word s = some (before, after)) : after.length ≤ s.length := by
  refine length_cut (fun _ t rest hstop => ?_) h
  unfold stopBehind at hstop
  split at hstop <;> cases hstop
  simp

theorem length_afterWord {word : List Char} {s rest : Slice} (h : afterWord word s = some rest) :
    rest.length ≤ s.length := by
  induction word generalizing s with
  | nil =>
    cases h
    exact Nat.le_refl _
  | cons w word ih =>
    cases s with
    | nil => cases h
    | cons b s =>
      rw [afterWord] at h
      split at h
      · exact Nat.le_succ_of_le (ih h)
      · cases h

theorem length_readBang {s rest : Slice} {l : Lexeme} (h : readBang s = .found l rest) :
    rest.length ≤ s.length := by
  cases s with
  | nil => cases h
  | cons b s =>
    simp only [readBang] at h
    rw [List.length_cons]
    split at h
    · split at h
      · split at h
        · next hcut =>
          cases h
          have hlength := length_cutAtWord hcut
          rw [List.length_tail] at hlength
          omega
        · cases h
      · cases h
    · split at h
      · split at h
        · next hcut =>
          cases h
          obtain ⟨body, hword, hcut⟩ := Option.bind_eq_some_iff.1 hcut
          have hbody := length_afterWord hword
          have hlength := length_cutAtWord hcut
          omega
        · cases h
      · split at h
        · split at h
          · next hcut =>
            have hlength := length_cut length_stopAt hcut
            split at h
            · split at h <;> cases h
              exact hlength
            · cases h
          · cases h
        · cases h

theorem length_readMarkup {s rest : Slice} {l : Lexeme} (h : readMarkup s = .found l rest) :
    rest.length ≤ s.length := by
  cases s with
  | nil => cases h
  | cons b s =>
    simp only [readMarkup] at h
    split at h
    · exact Nat.le_succ_of_le (length_readBang h)
    · split at h
      · simp only [readInstruction] at h
        split at h <;> cases h
        exact Nat.le_succ_of_le (length_cutAt '>' s)
      · split at h
        · cases h
          exact Nat.le_succ_of_le (length_cutAt '>' s)
        · simp only [readTag] at h
          split at h <;> cases h <;> exact length_cutTag (b :: s)

/-- Reading a lexeme shortens the document. -/
theorem length_of_read {s rest : Slice} {l : Lexeme} (h : read s = .found l rest) :
    rest.length < s.length := by
  have hdrop := (List.dropWhile_sublist (l := s) isSpace).length_le
  unfold read at h
  cases ht : s.dropWhile isSpace with
  | nil =>
    rw [ht] at h
    cases h
  | cons b t =>
    rw [ht] at h hdrop
    rw [List.length_cons] at hdrop
    rw [readTrimmed] at h
    split at h
    · have hlength := length_readMarkup h
      omega
    · next hb =>
      cases h
      have hrest := (List.dropWhile_sublist (l := t) (· != '<'.toUInt8)).length_le
      rw [List.dropWhile_cons_of_pos (p := (· != '<'.toUInt8)) (by simpa using hb)]
      omega

/-- The lexemes of a document, up to its end or the first fault. -/
def scan (s : Slice) : List (Except String Lexeme) :=
  match _h : read s with
  | .done => []
  | .fault message => [.error message]
  | .found l rest => .ok l :: scan rest
termination_by s.length
decreasing_by exact length_of_read _h

theorem scan_eq (s : Slice) :
    scan s = match read s with
      | .done => []
      | .fault message => [.error message]
      | .found l rest => .ok l :: scan rest := by
  rw [scan]
  cases read s <;> rfl

end Bytes

/-! ## Bytes of lexemes -/

/-- The lexeme with its bytes in place of its characters. -/
def Lexeme.bytes : Lexeme → Bytes.Lexeme
  | .text content => .text (encode content)
  | .startTag content => .startTag (encode content)
  | .emptyTag content => .emptyTag (encode content)
  | .endTag content => .endTag (encode content)
  | .comment _ | .cdata _ | .doctype _ | .instruction _ => .aside

/-- What was read, with bytes in place of characters. -/
def Lexeme.Reading.bytes : Lexeme.Reading → Bytes.Reading
  | .done => .done
  | .fault f => .fault f.message
  | .found l rest => .found l.bytes (encode rest)

namespace Bytes

/-! ## Places -/

theorem agree_isSpace : Agree isSpace isMarkupSpace :=
  (((Agree.ascii (by decide)).or (Agree.ascii (by decide))).or (Agree.ascii (by decide))).or
    (Agree.ascii (by decide))

theorem cutAt_eq (stop : Char) (s : List Char) :
    Markup.cutAt stop s =
      (s.takeWhile fun c => decide (c ≠ stop), (s.dropWhile fun c => decide (c ≠ stop)).tail) := by
  induction s with
  | nil => rfl
  | cons c s ih =>
    by_cases hc : c = stop
    · simp [Markup.cutAt, hc]
    · simp [Markup.cutAt, hc, ih]

/-- Behind the first ASCII character at which bytes are dropped, both texts go on alike. -/
theorem tail_dropWhile_encode {d : Char} (hd : d.toNat < 0x80) (s : List Char) :
    ((encode s).dropWhile (· != d.toUInt8)).tail =
      encode (s.dropWhile fun c => decide (c ≠ d)).tail := by
  rw [dropWhile_encode (Agree.ascii_ne hd)]
  cases hs : s.dropWhile fun c => decide (c ≠ d) with
  | nil => rfl
  | cons c t =>
    rw [eq_of_dropWhile_eq_cons hs, encode_cons_of_ascii hd, List.tail_cons, List.tail_cons]

theorem cutAt_encode {d : Char} (hd : d.toNat < 0x80) (s : List Char) :
    cutAt d (encode s) = (encode (Markup.cutAt d s).1, encode (Markup.cutAt d s).2) := by
  rw [cutAt, cutAt_eq, takeWhile_encode (Agree.ascii_ne hd), tail_dropWhile_encode hd]

theorem stopAt_encode {σ τ : Type} {d : Char} (hd : d.toNat < 0x80) {allowed : σ → Bool}
    {allowed' : τ → Bool} {state : σ} {state' : τ} (h : allowed' state' = allowed state) {c : Char}
    (hc : c.toNat < 0x80) (s : List Char) :
    stopAt d.toUInt8 allowed' state' (c.toUInt8 :: encode s) =
      (stopAt d allowed state (c :: s)).map encode := by
  simp only [stopAt, toUInt8_inj hc hd, h]
  split <;> rfl

theorem stopAt_of_ne {α σ : Type} [DecidableEq α] {a b : α} (h : b ≠ a) (allowed : σ → Bool)
    (state : σ) (s : List α) : stopAt a allowed state (b :: s) = none :=
  if_neg fun hb => h hb.1

theorem ne_of_wide {c d : Char} (hc : 0x80 ≤ c.toNat) (hd : d.toNat < 0x80) : c ≠ d := by
  rintro rfl
  omega

/-- The quote that the reader of bytes holds open is the one that the reader of characters does. -/
def SameQuote (quote : Option Char) (quote' : Option UInt8) : Prop :=
  quote' = quote.map Char.toUInt8 ∧ ∀ q ∈ quote, q.toNat < 0x80

theorem SameQuote.next {quote : Option Char} {quote' : Option UInt8} (h : SameQuote quote quote')
    {c : Char} (hc : c.toNat < 0x80) :
    SameQuote (Markup.nextQuote quote c) (nextQuote quote' c.toUInt8) := by
  obtain ⟨rfl, hquote⟩ := h
  cases quote with
  | none =>
    have hdouble := toUInt8_inj hc (d := '"') (by decide)
    have hsingle := toUInt8_inj hc (d := '\'') (by decide)
    simp only [nextQuote, Markup.nextQuote, Option.map_none, hdouble, hsingle]
    split
    · exact ⟨rfl, by simpa using hc⟩
    · exact ⟨rfl, by simp⟩
  | some q =>
    have hq : q.toNat < 0x80 := hquote q rfl
    simp only [nextQuote, Markup.nextQuote, Option.map_some, toUInt8_inj hc hq]
    split
    · exact ⟨rfl, by simp⟩
    · exact ⟨rfl, hquote⟩

theorem SameQuote.next_of_wide {quote : Option Char} {quote' : Option UInt8}
    (h : SameQuote quote quote') {c : Char} (hc : 0x80 ≤ c.toNat) :
    Markup.nextQuote quote c = quote := by
  cases quote with
  | none =>
    exact if_neg (not_or.2 ⟨ne_of_wide hc (by decide), ne_of_wide hc (by decide)⟩)
  | some q => exact if_neg (ne_of_wide hc (h.2 q rfl))

theorem SameQuote.next_of_high {quote : Option Char} {quote' : Option UInt8}
    (h : SameQuote quote quote') {b : UInt8} (hb : 0x80 ≤ b) : nextQuote quote' b = quote' := by
  obtain ⟨rfl, hquote⟩ := h
  cases quote with
  | none =>
    exact if_neg
      (not_or.2 ⟨ne_toUInt8_of_high hb (by decide), ne_toUInt8_of_high hb (by decide)⟩)
  | some q => exact if_neg (ne_toUInt8_of_high hb (hquote q rfl))

theorem cutTag_eq (quote : Option Char) (s : List Char) :
    Markup.cutTag quote s =
      (cut (stopAt '>' Option.isNone) Markup.nextQuote quote s).getD (s, []) := by
  induction s generalizing quote with
  | nil => rfl
  | cons c s ih =>
    simp only [Markup.cutTag, cut, stopAt, Option.isNone_iff_eq_none]
    split
    · rfl
    · rw [ih]
      cases cut (stopAt '>' Option.isNone) Markup.nextQuote (Markup.nextQuote quote c) s <;> rfl

/-- A tag ends at the same place in bytes and in characters. -/
theorem cutTag_encode (s : List Char) :
    cutTag (encode s) = (encode (Markup.cutTag none s).1, encode (Markup.cutTag none s).2) := by
  have hcut : cut (stopAt '>'.toUInt8 Option.isNone) nextQuote none (encode s) =
      (cut (stopAt '>' Option.isNone) Markup.nextQuote none s).map
        fun p => (encode p.1, encode p.2) := by
    have hnone : SameQuote none none := ⟨rfl, by simp⟩
    refine cut_encode (R := SameQuote) (fun quote quote' c s hR hc => ?_)
      (fun _ _ c hR hc => hR.next hc) (fun _ _ c s hR hc => ?_) (fun _ _ b s hR hb => ?_) hnone s
    · refine stopAt_encode (by decide) ?_ hc s
      rw [hR.1, Option.isNone_map]
    · exact ⟨stopAt_of_ne (ne_of_wide hc (by decide)) _ _ s, hR.next_of_wide hc⟩
    · exact ⟨stopAt_of_ne (ne_toUInt8_of_high hb (by decide)) _ _ s, hR.next_of_high hb⟩
  rw [cutTag, hcut, cutTag_eq]
  cases cut (stopAt '>' Option.isNone) Markup.nextQuote none s <;> rfl

theorem cutNested_eq (depth : Nat) (s : List Char) :
    Markup.cutNested depth s =
      cut (stopAt '>' (· == 0))
        (fun depth c => if c = '<' then depth + 1 else if c = '>' then depth - 1 else depth)
        depth s := by
  induction s generalizing depth with
  | nil => rfl
  | cons c s ih =>
    simp only [Markup.cutNested, cut, stopAt, beq_iff_eq, ih]
    split <;> rfl

/-- A declaration ends at the same place in bytes and in characters. -/
theorem cutNested_encode (s : List Char) :
    cutNested (encode s) = (Markup.cutNested 0 s).map fun p => (encode p.1, encode p.2) := by
  rw [cutNested, cutNested_eq]
  refine cut_encode (R := Eq) (fun depth _ c s hR hc => ?_) (fun depth _ c hR hc => ?_)
    (fun _ _ c s _ hc => ?_) (fun _ _ b s _ hb => ?_) rfl s
  · exact stopAt_encode (by decide) (by rw [hR]) hc s
  · subst hR
    simp only [nextDepth, toUInt8_inj hc (d := '<') (by decide),
      toUInt8_inj hc (d := '>') (by decide)]
  · exact ⟨stopAt_of_ne (ne_of_wide hc (by decide)) _ _ s,
      by rw [if_neg (ne_of_wide hc (by decide)), if_neg (ne_of_wide hc (by decide))]⟩
  · exact ⟨stopAt_of_ne (ne_toUInt8_of_high hb (by decide)) _ _ s, by
      rw [nextDepth, if_neg (ne_toUInt8_of_high hb (by decide)),
        if_neg (ne_toUInt8_of_high hb (by decide))]⟩

theorem cutAtWord_eq (word s : List Char) :
    Markup.cutAtWord word s =
      cut (fun _ s => if word.isPrefixOf s then some (s.drop word.length) else none)
        (fun _ _ => ()) () s := by
  induction s with
  | nil => rfl
  | cons c s ih =>
    simp only [Markup.cutAtWord, cut, ih]
    split <;> rfl

/-- A word of ASCII characters stands at the same place in bytes and in characters. -/
theorem cutAtWord_encode {d : Char} {word : List Char} (hword : ∀ c ∈ d :: word, c.toNat < 0x80)
    (s : List Char) :
    cutAtWord (d :: word) (encode s) =
      (Markup.cutAtWord (d :: word) s).map fun p => (encode p.1, encode p.2) := by
  have hd : d.toNat < 0x80 := hword d List.mem_cons_self
  rw [cutAtWord, cutAtWord_eq]
  refine cut_encode (R := Eq) (fun _ _ c s _ hc => ?_) (fun _ _ _ _ _ => rfl)
    (fun _ _ c s _ hc => ⟨?_, rfl⟩) (fun _ _ b s _ hb => ⟨?_, rfl⟩) rfl s
  · rw [stopBehind, ← encode_cons_of_ascii hc, isPrefixOf_encode hword]
    split
    · next h => rw [drop_encode hword h, Option.map_some]
    · rfl
  · refine if_neg ?_
    rw [List.isPrefixOf, beq_false_of_ne (ne_of_wide hc hd).symm]
    exact Bool.false_ne_true
  · refine if_neg ?_
    rw [List.map_cons, List.isPrefixOf, beq_false_of_ne (ne_toUInt8_of_high hb hd).symm]
    exact Bool.false_ne_true

/-! ## Words -/

theorem toUpper_of_ascii {c : Char} (hc : c.toNat < 0x80) :
    toUpper c.toUInt8 = c.toUpper.toUInt8 ∧ c.toUpper.toNat < 0x80 := by
  have hall : ∀ n < 0x80, toUpper (Char.ofNat n).toUInt8 = (Char.ofNat n).toUpper.toUInt8 ∧
      (Char.ofNat n).toUpper.toNat < 0x80 := by decide
  have hthis := hall c.toNat hc
  rwa [Char.ofNat_toNat] at hthis

theorem toUpper_of_high {b : UInt8} (hb : 0x80 ≤ b) : toUpper b = b :=
  if_neg fun h => UInt8.not_lt.2 (UInt8.le_trans hb h.2) (by decide)

theorem toUpper_of_wide {c : Char} (hc : 0x80 ≤ c.toNat) : c.toUpper = c := by
  have hnot : ¬(c.val ≥ 'a'.val ∧ c.val ≤ 'z'.val) := by
    rintro ⟨-, hle⟩
    have hnat : c.toNat ≤ 'z'.toNat := UInt32.le_iff_toNat_le.1 hle
    exact absurd (Nat.le_trans hc hnat) (by decide)
  exact dif_neg hnot

theorem afterWord_encode {word : List Char} (hword : ∀ c ∈ word, c.toNat < 0x80) (s : List Char) :
    afterWord word (encode s) = (Markup.afterWord word s).map encode := by
  induction word generalizing s with
  | nil => rfl
  | cons w word ih =>
    rw [List.forall_mem_cons] at hword
    cases s with
    | nil => rfl
    | cons c s =>
      rw [encode_cons]
      rcases encodeChar_cases c with ⟨hc, hbytes⟩ | ⟨hc, hbytes⟩
      · obtain ⟨hupper, hlt⟩ := toUpper_of_ascii hc
        simp only [hbytes, List.singleton_append, afterWord, Markup.afterWord, hupper,
          toUInt8_inj hlt hword.1, ih hword.2]
        split <;> rfl
      · obtain ⟨b, tail, heq, -⟩ := exists_encodeChar_eq c
        have hb : 0x80 ≤ b := hbytes b (heq ▸ List.mem_cons_self)
        rw [heq, List.cons_append, afterWord, Markup.afterWord, toUpper_of_high hb,
          toUpper_of_wide hc, if_neg (ne_toUInt8_of_high hb hword.1),
          if_neg (ne_of_wide hc hword.1)]
        rfl

/-! ## Lexemes -/

/-- Where a document begins with an ASCII character, or does not, its bytes do the same. -/
theorem head?_encode {d : Char} (hd : d.toNat < 0x80) (s : List Char) :
    (encode s).head? = some d.toUInt8 ↔ s.head? = some d := by
  cases s with
  | nil => simp
  | cons c s =>
    obtain ⟨b, tail, hbytes, -⟩ := exists_encodeChar_eq c
    rw [encode_cons, hbytes, List.cons_append, List.head?_cons, List.head?_cons, Option.some.injEq,
      Option.some.injEq, head_eq_toUInt8_iff hbytes hd]

theorem readBang_comment (s : List Char) :
    readBang ('-'.toUInt8 :: encode s) = (Lexeme.readBang ('-' :: s)).bytes := by
  rw [readBang, if_pos rfl]
  split
  · next h =>
    obtain ⟨body, rfl⟩ := List.head?_eq_some_iff.1 ((head?_encode (by decide) s).1 h)
    rw [encode_cons_of_ascii (by decide), List.tail_cons,
      cutAtWord_encode (forall_mem_of_all (by decide))]
    cases hcut : Markup.cutAtWord ['-', '-', '>'] body <;>
      simp [Lexeme.readBang, hcut, Lexeme.Reading.bytes, Lexeme.bytes]
  · next h =>
    unfold Lexeme.readBang
    dsimp only
    rw [if_pos rfl]
    split
    · exact absurd ((head?_encode (by decide) _).2 rfl) h
    · rfl

theorem readBang_cdata (s : List Char) :
    readBang ('['.toUInt8 :: encode s) = (Lexeme.readBang ('[' :: s)).bytes := by
  unfold Lexeme.readBang
  dsimp only
  rw [readBang, if_neg (by decide), if_pos rfl, if_neg (by decide), if_pos rfl,
    afterWord_encode (forall_mem_of_all (by decide))]
  cases Markup.afterWord "CDATA[".toList s with
  | none => rfl
  | some body =>
    rw [Option.map_some, Option.bind_some, cutAtWord_encode (forall_mem_of_all (by decide))]
    dsimp only
    cases Markup.cutAtWord [']', ']', '>'] body <;> rfl

theorem readBang_doctype {c : Char} (hc : c = 'D' ∨ c = 'd') (s : List Char) :
    readBang (c.toUInt8 :: encode s) = (Lexeme.readBang (c :: s)).bytes := by
  have hascii : c.toNat < 0x80 := by rcases hc with rfl | rfl <;> decide
  have hbyte : c.toUInt8 = 'D'.toUInt8 ∨ c.toUInt8 = 'd'.toUInt8 := by
    rcases hc with rfl | rfl <;> simp
  have hdash : c.toUInt8 ≠ '-'.toUInt8 := by rcases hc with rfl | rfl <;> decide
  have hbracket : c.toUInt8 ≠ '['.toUInt8 := by rcases hc with rfl | rfl <;> decide
  have hdash' : c ≠ '-' := by rcases hc with rfl | rfl <;> decide
  have hbracket' : c ≠ '[' := by rcases hc with rfl | rfl <;> decide
  unfold Lexeme.readBang
  dsimp only
  rw [readBang, if_neg hdash, if_neg hbracket, if_pos hbyte, if_neg hdash', if_neg hbracket',
    if_pos hc, ← encode_cons_of_ascii hascii, cutNested_encode]
  cases Markup.cutNested 0 (c :: s) with
  | none => rfl
  | some parts =>
    obtain ⟨declaration, rest⟩ := parts
    have hword : ∀ d ∈ "DOCTYPE".toList, d.toNat < 0x80 := forall_mem_of_all (by decide)
    simp only [Option.map_some, afterWord_encode hword]
    cases Markup.afterWord "DOCTYPE".toList declaration with
    | none => rfl
    | some content =>
      simp only [Option.map_some, all_encode agree_isSpace]
      split <;> rfl

/-- The message about a strange character shows its first byte. -/
theorem strangeBang_eq {c : Char} {b : UInt8} {tail : Slice} (hbytes : encodeChar c = b :: tail) :
    strangeBang b = (Fault.strangeBang c).message := by
  have hlead : leadingByte c = Char.ofNat b.toNat := by
    rw [leadingByte, hbytes, List.headD_cons]
  unfold strangeBang Fault.message
  dsimp only
  rw [hlead]

theorem readBang_strange {c : Char} {b : UInt8} {tail : Slice} (hbytes : encodeChar c = b :: tail)
    (hc : c ≠ '-' ∧ c ≠ '[' ∧ c ≠ 'D' ∧ c ≠ 'd') (s : List Char) :
    readBang (b :: tail ++ encode s) = (Lexeme.readBang (c :: s)).bytes := by
  have hne : ∀ d : Char, d.toNat < 0x80 → c ≠ d → b ≠ d.toUInt8 := fun d hd hcd hb =>
    hcd ((head_eq_toUInt8_iff hbytes hd).1 hb)
  unfold Lexeme.readBang
  dsimp only
  rw [List.cons_append, readBang, if_neg (hne '-' (by decide) hc.1),
    if_neg (hne '[' (by decide) hc.2.1),
    if_neg (not_or.2 ⟨hne 'D' (by decide) hc.2.2.1, hne 'd' (by decide) hc.2.2.2⟩),
    if_neg hc.1, if_neg hc.2.1, if_neg (not_or.2 hc.2.2), Lexeme.Reading.bytes,
    strangeBang_eq hbytes]

theorem readBang_encode (s : List Char) : readBang (encode s) = (Lexeme.readBang s).bytes := by
  cases s with
  | nil => rfl
  | cons c s =>
    by_cases hdash : c = '-'
    · subst hdash
      rw [encode_cons_of_ascii (by decide), readBang_comment]
    by_cases hbracket : c = '['
    · subst hbracket
      rw [encode_cons_of_ascii (by decide), readBang_cdata]
    by_cases hd : c = 'D' ∨ c = 'd'
    · have hascii : c.toNat < 0x80 := by rcases hd with rfl | rfl <;> decide
      rw [encode_cons_of_ascii hascii, readBang_doctype hd]
    obtain ⟨b, tail, hbytes, -⟩ := exists_encodeChar_eq c
    rw [encode_cons, hbytes, readBang_strange hbytes ⟨hdash, hbracket, not_or.1 hd⟩]

theorem readInstruction_encode (s : List Char) :
    readInstruction (encode s) = (Lexeme.readInstruction s).bytes := by
  simp only [readInstruction, Lexeme.readInstruction, cutAt_encode (d := '>') (by decide),
    getLast?_encode (d := '?') (by decide)]
  have hlength : ∀ body : List Char, body.getLast? = some '?' →
      (2 ≤ (encode body).length ↔ 2 ≤ body.length) := by
    intro body hlast
    obtain ⟨t, rfl⟩ := List.getLast?_eq_some_iff.1 hlast
    have hempty : (encode t).length = 0 ↔ t.length = 0 := by
      rw [List.length_eq_zero_iff, List.length_eq_zero_iff, encode_eq_nil_iff]
    have hmark : (encode ['?']).length = 1 := by decide
    rw [encode_append, List.length_append, List.length_append, hmark, List.length_singleton]
    omega
  by_cases hlast : (Markup.cutAt '>' s).1.getLast? = some '?'
  · simp only [hlast, hlength _ hlast, and_true]
    split <;> rfl
  · simp only [hlast, and_false, if_false]
    rfl

theorem readTag_encode (s : List Char) : readTag (encode s) = (Lexeme.readTag s).bytes := by
  simp only [readTag, Lexeme.readTag, cutTag_encode, getLast?_encode (d := '/') (by decide)]
  split
  · next hlast => rw [dropLast_encode (by decide) hlast, Lexeme.Reading.bytes, Lexeme.bytes]
  · rfl

theorem readText_encode (s : List Char) : readText (encode s) = (Lexeme.readText s).bytes := by
  have hagree := Agree.ascii_ne (d := '<') (by decide)
  rw [readText, takeWhile_encode hagree, rdropWhile_encode agree_isSpace, dropWhile_encode hagree]
  rfl

theorem readMarkup_encode (s : List Char) :
    readMarkup (encode s) = (Lexeme.readTrimmed ('<' :: s)).bytes := by
  cases s with
  | nil => rfl
  | cons c s =>
    by_cases hbang : c = '!'
    · subst hbang
      rw [encode_cons_of_ascii (by decide), readMarkup, if_pos rfl, readBang_encode]
      rfl
    by_cases hmark : c = '?'
    · subst hmark
      rw [encode_cons_of_ascii (by decide), readMarkup, if_neg (by decide), if_pos rfl,
        readInstruction_encode]
      rfl
    by_cases hslash : c = '/'
    · subst hslash
      rw [encode_cons_of_ascii (by decide), readMarkup, if_neg (by decide), if_neg (by decide),
        if_pos rfl, readEndTag, cutAt_encode (by decide)]
      rfl
    have htag : Lexeme.readTrimmed ('<' :: c :: s) = Lexeme.readTag (c :: s) := by
      rw [Lexeme.readTrimmed] <;> simp [hbang, hmark, hslash]
    have hne : ∀ {d : Char}, d.toNat < 0x80 → c ≠ d → ∀ b tail, encode (c :: s) = b :: tail →
        b ≠ d.toUInt8 := by
      intro d hd hcd b tail heq hb
      have hhead := (head?_encode hd (c :: s)).1 (by rw [heq, hb]; rfl)
      exact hcd (Option.some.inj hhead)
    rw [htag, ← readTag_encode]
    cases hbytes : encode (c :: s) with
    | nil => exact absurd (encode_eq_nil_iff.1 hbytes) (List.cons_ne_nil c s)
    | cons b tail =>
      rw [readMarkup, if_neg (hne (by decide) hbang b tail hbytes),
        if_neg (hne (by decide) hmark b tail hbytes), if_neg (hne (by decide) hslash b tail hbytes)]

theorem readTrimmed_encode (s : List Char) :
    readTrimmed (encode s) = (Lexeme.readTrimmed s).bytes := by
  cases s with
  | nil => rfl
  | cons c s =>
    by_cases hc : c = '<'
    · subst hc
      rw [encode_cons_of_ascii (by decide), readTrimmed, if_pos rfl, readMarkup_encode]
    · have htext : Lexeme.readTrimmed (c :: s) = Lexeme.readText (c :: s) := by
        rw [Lexeme.readTrimmed] <;> simp [hc]
      rw [htext, ← readText_encode]
      cases hbytes : encode (c :: s) with
      | nil => exact absurd (encode_eq_nil_iff.1 hbytes) (List.cons_ne_nil c s)
      | cons b tail =>
        refine if_neg fun hb => hc ?_
        have hhead := (head?_encode (d := '<') (by decide) (c :: s)).1 (by rw [hbytes, hb]; rfl)
        exact Option.some.inj hhead

/-- The first lexeme of the bytes of a text is that of the text. -/
theorem read_encode (s : List Char) : read (encode s) = (Lexeme.read s).bytes := by
  rw [read, dropWhile_encode agree_isSpace, readTrimmed_encode, Lexeme.read]

/-- **The lexemes of the bytes of a text are those of the text.** -/
theorem scan_encode (s : List Char) :
    scan (encode s) = (Lexeme.scan s).map fun x => (x.map Lexeme.bytes).mapError Fault.message := by
  -- the induction is on the length of the text, which every lexeme shortens
  induction hn : s.length using Nat.strongRecOn generalizing s with
  | ind n ih =>
    rw [scan_eq, Lexeme.scan_eq, read_encode]
    cases hread : Lexeme.read s with
    | done => rfl
    | fault f => rfl
    | found l rest =>
      have hlt : rest.length < n := hn ▸ Lexeme.length_of_read hread
      simp only [Lexeme.Reading.bytes, List.map_cons, ih _ hlt rest rfl]
      rfl

end Bytes

end LayoutShell.Markup
