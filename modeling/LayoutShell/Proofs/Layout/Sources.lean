import LayoutShell.Proofs.Layout.OutsideData
import LayoutShell.Proofs.Layout.RecordedNames
import LayoutShell.Proofs.Markup.Substrings

/-!
# Where results come from

The names that a layout refers to, and the texts in the reason why a document is none, are cut out
of the document.

* `Entity.expand_delivers`: a text reads as characters that it holds, as the five characters with a
  name, and as characters to which it refers by number.
* `IsTagOf` and `IsValueOf` say which names a document can give, `References.Within` that references
  are such names and `LayoutError.Within` that an error quotes the document.
* An element keeps this (`addElement_delivers`), an event keeps it (`Progress.step_delivers`), and
  so all references of a layout come from its document (`References.parse_delivers`).
* `LayoutError.Within.composed`: a message holds characters of the document, and beyond them the
  first 256 characters only.
-/

namespace LayoutShell.Text

/-! ## Characters by number -/

theorem toNat_ofNat {n : Nat} (h : n.isValidChar) : (Char.ofNat n).toNat = n := by
  rw [Char.ofNat, dif_pos h]
  rfl

theorem exists_digitChar_of_mem_toDigits {b n : Nat} (hb : 1 < b) {c : Char}
    (h : c ∈ Nat.toDigits b n) : ∃ d < b, c = Nat.digitChar d := by
  induction n using Nat.strongRecOn with
  | ind n ih =>
    rw [Nat.toDigits_eq_if hb] at h
    split at h
    · next hlt => exact ⟨n, hlt, List.mem_singleton.1 h⟩
    · rcases List.mem_append.1 h with h | h
      · exact ih (n / b) (Nat.div_lt_self (by omega) hb) h
      · exact ⟨n % b, Nat.mod_lt _ (by omega), List.mem_singleton.1 h⟩

/-- The digits of a number are ASCII, in upper case as well. -/
theorem digit_lt {b n : Nat} (hb : 1 < b) (hb' : b ≤ 16) {c : Char} (h : c ∈ Nat.toDigits b n) :
    c.toNat < 128 ∧ c.toUpper.toNat < 128 := by
  have hdigits : ∀ d < 16,
      (Nat.digitChar d).toNat < 128 ∧ (Nat.digitChar d).toUpper.toNat < 128 := by decide
  obtain ⟨d, hd, rfl⟩ := exists_digitChar_of_mem_toDigits hb h
  exact hdigits d (by omega)

/-- In a quoted text a character stands for itself or is spelt in ASCII. -/
theorem quoteChar_cases (c : Char) : (∀ d ∈ quoteChar c, d.toNat < 128) ∨ quoteChar c = [c] := by
  have hnumber : ∀ d ∈ ['\\', 'u', '\x7b'] ++ hexDigits c.toNat ++ ['\x7d'], d.toNat < 128 := by
    intro d hd
    rcases List.mem_append.1 hd with hd | hd
    · rcases List.mem_append.1 hd with hd | hd
      · simp only [List.mem_cons, List.not_mem_nil, or_false] at hd
        rcases hd with rfl | rfl | rfl <;> decide
      · exact (digit_lt (by omega) (by omega) hd).1
    · obtain rfl := List.mem_singleton.1 hd
      decide
  have hshort : ∀ a : Char, a.toNat < 128 → ∀ d ∈ ['\\', a], d.toNat < 128 := fun a ha =>
    List.forall_mem_cons.2 ⟨by decide, List.forall_mem_singleton.2 ha⟩
  -- splitting the seven conditions at once is slow, so they are passed one by one
  have hite : ∀ {p : Prop} [Decidable p] {s t : List Char}, (∀ d ∈ s, d.toNat < 128) →
      ((∀ d ∈ t, d.toNat < 128) ∨ t = [c]) →
      (∀ d ∈ if p then s else t, d.toNat < 128) ∨ (if p then s else t) = [c] := by
    intro p _ s t hs ht
    by_cases hp : p
    · rw [if_pos hp]
      exact .inl hs
    · rw [if_neg hp]
      exact ht
  refine hite (hshort _ (by decide)) (hite (hshort _ (by decide)) (hite (hshort _ (by decide)) ?_))
  refine hite (hshort _ (by decide)) (hite (hshort _ (by decide)) (hite (hshort _ (by decide)) ?_))
  exact hite hnumber (.inr rfl)

end LayoutShell.Text

namespace LayoutShell.Markup

open Text

/-! ## Expanded texts -/

/-- The name in the error stands in the text. -/
def EntityError.Within (s : List Char) : EntityError → Prop
  | .unknown _ _ name => name <:+: s
  | .unterminated _ _ | .null _ _ | .longHexadecimal | .longDecimal | .badHexadecimal _
  | .badDecimal _ | .badCharacter _ => True

theorem EntityError.Within.mono {s t : List Char} (h : s <:+: t) {e : EntityError}
    (he : e.Within s) : e.Within t := by
  cases e with
  | unknown start stop name => exact List.IsInfix.trans he h
  | unterminated | null | longHexadecimal | longDecimal | badHexadecimal | badDecimal
  | badCharacter => trivial

namespace Entity

/-- The characters that have a name. -/
def namedChars : List Char := ['<', '>', '&', '\'', '"']

/-- The text holds the character, or a reference to it by number. -/
def Supplies (s : List Char) (c : Char) : Prop :=
  c ∈ s ∨ ∃ number, '&' :: '#' :: number ++ [';'] <:+: s ∧ readNumber number = .ok c.toNat

theorem Supplies.mono {s t : List Char} (h : s <:+: t) {c : Char} (hc : Supplies s c) :
    Supplies t c := by
  rcases hc with hc | ⟨number, hinfix, hnumber⟩
  · exact .inl (h.subset hc)
  · exact .inr ⟨number, hinfix.trans h, hnumber⟩

/-- The text can read as the character: it has a name, or the text supplies it. -/
def MayShow (s : List Char) (c : Char) : Prop := c ∈ namedChars ∨ Supplies s c

theorem forall_mayShow_cons {s t r : List Char} (ht : t <:+: s) {d : Char} (hd : MayShow s d)
    (hr : ∀ c ∈ r, MayShow t c) : ∀ c ∈ d :: r, MayShow s c :=
  List.forall_mem_cons.2 ⟨hd, fun c hc => (hr c hc).imp_right (Supplies.mono ht)⟩

theorem mem_namedChars_of_named? {name : List Char} {c : Char} (h : named? name = some c) :
    c ∈ namedChars := by
  unfold named? at h
  iterate 5
    split at h
    · cases h
      decide
  cases h

/-- An error in a number quotes nothing. -/
theorem readNumber_delivers (s number : List Char) :
    Delivers (fun _ => True) (EntityError.Within s) (readNumber number) := by
  unfold readNumber
  split <;> split
  · trivial
  · cases readDigits 16 hexDigit? 0 _ <;> trivial
  · trivial
  · cases readDigits 10 decimalDigit? 0 _ <;> trivial

/-- What a reference stands for. -/
theorem resolve_delivers {s name : List Char} (hname : '&' :: name ++ [';'] <:+: s)
    (start stop : Nat) :
    Delivers (MayShow s) (EntityError.Within s) (resolve start stop name) := by
  unfold resolve
  split
  · next number =>
    have hnumber := readNumber_delivers s number
    cases hcode : readNumber number with
    | error e =>
      rw [hcode] at hnumber
      exact hnumber
    | ok code =>
      simp only [bind, Except.bind]
      split_ifs with hzero hvalid
      · trivial
      · exact .inr (.inr ⟨number, hname, by rw [toNat_ofNat hvalid, hcode]⟩)
      · trivial
  · split
    · next c hc => exact .inl (mem_namedChars_of_named? hc)
    · have hinner : name <:+: '&' :: name ++ [';'] := ⟨['&'], [';'], rfl⟩
      exact hinner.trans hname

/-- The characters that a text reads as come from the text. -/
theorem expandFrom_delivers (start total : Nat) (s : List Char) :
    Delivers (fun r => ∀ c ∈ r, MayShow s c) (EntityError.Within s)
      (expandFrom start total s) := by
  induction hn : s.length using Nat.strongRecOn generalizing s start with
  | ind n ih =>
    cases s with
    | nil =>
      rw [expandFrom_eq]
      simp [Delivers]
    | cons c s =>
      by_cases hc : c = '&'
      · subst hc
        rw [expandFrom_mark]
        unfold expandMark
        split
        · next name after hcut =>
          obtain ⟨rfl, -⟩ := exists_of_cutAtMark hcut
          have hname : '&' :: name ++ [';'] <:+: '&' :: (name ++ ';' :: after) :=
            ⟨[], after, by simp⟩
          have hafter : after <:+: '&' :: (name ++ ';' :: after) :=
            ⟨'&' :: name ++ [';'], [], by simp⟩
          refine Delivers.bind (resolve_delivers hname _ _) fun d hd => Delivers.map ?_
          have hlength : after.length < n := by
            rw [← hn, List.length_cons, List.length_append, List.length_cons]
            omega
          exact (ih _ hlength _ after rfl).mono (fun r hr => forall_mayShow_cons hafter hd hr)
            fun e => EntityError.Within.mono hafter
        · trivial
      · have htail : s <:+: c :: s := (List.suffix_cons c s).isInfix
        rw [expandFrom_cons hc]
        have hself : MayShow (c :: s) c := .inr (.inl List.mem_cons_self)
        have hlength : s.length < n := by
          rw [← hn]
          exact Nat.lt_succ_self _
        exact Delivers.map ((ih _ hlength _ s rfl).mono
          (fun r hr => forall_mayShow_cons htail hself hr) fun e => EntityError.Within.mono htail)

theorem expand_delivers (s : List Char) :
    Delivers (fun r => ∀ c ∈ r, MayShow s c) (EntityError.Within s) (expand s) :=
  expandFrom_delivers 0 (size s) s

end Entity

end LayoutShell.Markup

namespace LayoutShell.Layout

open Markup Text

variable {document : List Char}

/-! ## Names -/

/-- The name of an element of the document: a local part, behind its namespace if it has one. -/
def IsTagOf (document name : List Char) : Prop :=
  ∃ uri l, name = qualified uri l ∧ l <:+: document ∧ ∀ u ∈ uri, StandsIn document u

/-- What a text of the document reads as. -/
def IsValueOf (document name : List Char) : Prop :=
  ∃ raw, raw <:+: document ∧ Entity.expand raw = .ok name

/-- The names come from the document. -/
structure References.Within (document : List Char) (r : References) : Prop where
  classes : ∀ n ∈ r.classes, IsTagOf document n.toList ∨ IsValueOf document n.toList
  handlers : ∀ n ∈ r.handlers, IsValueOf document n.toList

/-- The texts in the error come from the document. -/
def LayoutError.Within (document : List Char) : LayoutError → Prop
  | .noRoot | .unclosed | .secondRoot | .textOutsideRoot => True
  | .unboundLabel label => label <:+: document
  | .unreadable e => e.Within document
  | .badAttribute e => e.Within document
  | .badEntity e => e.Within document

namespace References.Within

variable {r : References} {name : List Char}

theorem empty (document : List Char) : References.empty.Within document :=
  ⟨fun n hn => absurd hn (NameSet.not_mem_empty n), fun n hn => absurd hn (NameSet.not_mem_empty n)⟩

theorem addClass (h : r.Within document) (hname : IsTagOf document name ∨ IsValueOf document name) :
    (r.addClass name).Within document := by
  refine ⟨fun n hn => ?_, h.handlers⟩
  rcases NameSet.mem_insert.1 hn with rfl | hn
  · rwa [String.toList_ofList]
  · exact h.classes n hn

theorem addHandler (h : r.Within document) (hname : IsValueOf document name) :
    (r.addHandler name).Within document := by
  refine ⟨h.classes, fun n hn => ?_⟩
  rcases NameSet.mem_insert.1 hn with rfl | hn
  · rwa [String.toList_ofList]
  · exact h.handlers n hn

theorem addReference (h : r.Within document) {value : List Char} (hvalue : IsValueOf document value)
    (tag l : List Char) : (Layout.addReference tag l value r).Within document := by
  unfold Layout.addReference
  split
  · exact h
  · split
    · exact h.addClass (.inr hvalue)
    · split
      · exact h.addHandler hvalue
      · exact h

end References.Within

/-! ## Elements -/

theorem elementTag_delivers {e : Element} (he : e.Within document) :
    Delivers (IsTagOf document) (LayoutError.Within document) (elementTag e) := by
  have hname := he.scope.resolveElement he.name
  unfold elementTag
  split
  · next l heq =>
    rw [heq] at hname
    exact ⟨none, l, rfl, hname.localPart, by simp⟩
  · next uri l heq =>
    rw [heq] at hname
    exact ⟨some uri, l, rfl, hname.localPart, by simpa using hname.uri uri rfl⟩
  · next label l heq =>
    rw [heq] at hname
    exact hname.label label rfl

theorem expand_within_delivers {raw : List Char} (hraw : raw <:+: document) :
    Delivers (IsValueOf document) (LayoutError.Within document)
      ((Entity.expand raw).mapError .badEntity) := by
  have hexpand := Entity.expand_delivers raw
  refine Delivers.mapError ?_
  cases h : Entity.expand raw with
  | ok value => exact ⟨raw, hraw, h⟩
  | error e =>
    rw [h] at hexpand
    exact EntityError.Within.mono hraw hexpand

theorem addAttribute_delivers {scope : Scope} (hscope : scope.Within document) {r : References}
    (hr : r.Within document) {a : Attribute} (ha : a.Within document) (tag : List Char) :
    Delivers (References.Within document) (LayoutError.Within document)
      (addAttribute scope tag r a) := by
  have hkey := hscope.resolveAttribute ha.key
  unfold addAttribute
  split
  · exact hr
  · split
    · next label l heq =>
      rw [heq] at hkey
      exact hkey.label label rfl
    · exact hr
    · split
      · exact Delivers.bind (expand_within_delivers ha.value) fun v hv => hr.addReference hv tag _
      · exact hr

theorem addAttributes_delivers {scope : Scope} (hscope : scope.Within document) (tag : List Char)
    {xs : List (Except AttributeError Attribute)}
    (hxs : ∀ x ∈ xs, Delivers (Attribute.Within document) (AttributeError.Within document) x)
    {r : References} (hr : r.Within document) :
    Delivers (References.Within document) (LayoutError.Within document)
      (addAttributes scope tag r xs) := by
  induction xs generalizing r with
  | nil => exact hr
  | cons x xs ih =>
    obtain ⟨hx, hrest⟩ := List.forall_mem_cons.1 hxs
    cases x with
    | error e => exact hx
    | ok a =>
      exact Delivers.bind (addAttribute_delivers hscope hr hx tag) fun r' hr' => ih hrest hr'

theorem addElement_delivers {e : Element} (he : e.Within document) {r : References}
    (hr : r.Within document) :
    Delivers (References.Within document) (LayoutError.Within document) (addElement r e) := by
  refine Delivers.bind (elementTag_delivers he) fun tag htag => ?_
  refine addAttributes_delivers he.scope tag he.attributes ?_
  split
  · exact hr
  · exact hr.addClass (.inl htag)

/-! ## Documents -/

namespace Progress

variable {p : Progress}

theorem visit_delivers (hp : p.found.Within document) {e : Element} (he : e.Within document) :
    Delivers (fun q : Progress => q.found.Within document) (LayoutError.Within document)
      (p.visit e) := by
  unfold visit
  split
  · trivial
  · exact Delivers.bind (addElement_delivers he hp) fun r hr => hr

theorem step_delivers (hp : p.found.Within document) {event : Event}
    (hevent : event.Within document) :
    Delivers (fun q : Progress => q.found.Within document) (LayoutError.Within document)
      (p.step event) := by
  cases event with
  | start e => exact Delivers.bind (visit_delivers hp hevent) fun q hq => hq
  | empty e => exact visit_delivers hp hevent
  | finish => exact hp
  | text content =>
    refine Delivers.bind (expand_within_delivers hevent) fun value _ => ?_
    split
    · trivial
    · exact hp
  | aside => exact hp

theorem run_delivers {xs : List (Except ReadError Event)}
    (hxs : ∀ x ∈ xs, Delivers (Event.Within document) (ReadError.Within document) x)
    (hp : p.found.Within document) :
    Delivers (fun q : Progress => q.found.Within document) (LayoutError.Within document)
      (p.run xs) := by
  induction xs generalizing p with
  | nil => exact hp
  | cons x xs ih =>
    obtain ⟨hx, hrest⟩ := List.forall_mem_cons.1 hxs
    cases x with
    | error e => exact hx
    | ok event => exact Delivers.bind (step_delivers hp hx) fun q hq => ih hrest hq

end Progress

/-- The references of a layout come from its document, and so do the texts in an error. -/
theorem References.parse_delivers (document : List Char) :
    Delivers (References.Within document) (LayoutError.Within document)
      (References.parse document) := by
  have hrun := Progress.run_delivers (p := Progress.initial)
    (Event.delivers_of_mem_scan document) (References.Within.empty document)
  refine Delivers.bind hrun fun q hq => ?_
  unfold Progress.finish
  split_ifs
  · trivial
  · trivial
  · exact hq

/-! ## Messages -/

/-- The message holds characters of the document, and beyond them the first 256 characters only. -/
def Composed (document : List Char) (message : String) : Prop :=
  ∀ c ∈ message.toList, c.toNat < 256 ∨ c ∈ document

namespace Composed

theorem append {m m' : String} (h : Composed document m) (h' : Composed document m') :
    Composed document (m ++ m') := by
  intro c hc
  rw [String.toList_append, List.mem_append] at hc
  exact hc.elim (h c) (h' c)

/-- A message that is the same for all documents. -/
theorem fixed {s : List Char} (h : (s.all fun c => decide (c.toNat < 256)) = true) :
    Composed document (String.ofList s) := by
  intro c hc
  rw [String.toList_ofList] at hc
  exact .inl (forall_mem_of_all h c hc)

theorem quotation {s : List Char} (h : s <:+: document) : Composed document (String.ofList s) := by
  intro c hc
  rw [String.toList_ofList] at hc
  exact .inr (h.subset hc)

theorem single {c : Char} (h : c.toNat < 256 ∨ c ∈ document) : Composed document c.toString := by
  intro d hd
  rw [Char.toString, String.toList_singleton, List.mem_singleton] at hd
  rwa [hd]

theorem leadingByte (c : Char) : Composed document (Text.leadingByte c).toString := by
  have hbyte := ((encodeChar c).headD 0).toNat_lt
  refine single (.inl ?_)
  rw [Text.leadingByte, toNat_ofNat (.inl (by omega))]
  exact hbyte

theorem number (n : Nat) : Composed document (toString n) := by
  intro c hc
  have hdigit : c ∈ Nat.toDigits 10 n := by rwa [← String.toList_ofList (l := Nat.toDigits 10 n)]
  have hlt := (digit_lt (by omega) (by omega) hdigit).1
  exact .inl (by omega)

theorem quoted {s : List Char} (h : s <:+: document) :
    Composed document (String.ofList (Text.quoted s)) := by
  intro c hc
  simp only [String.toList_ofList, Text.quoted, List.cons_append, List.mem_cons, List.mem_append,
    List.mem_flatMap, List.not_mem_nil, or_false] at hc
  rcases hc with rfl | ⟨d, hd, hc⟩ | rfl
  · exact .inl (by decide)
  · rcases quoteChar_cases d with hascii | hself
    · have hlt := hascii c hc
      exact .inl (by omega)
    · rw [hself, List.mem_singleton] at hc
      exact .inr (hc ▸ h.subset hd)
  · exact .inl (by decide)

/-- Bytes are shown in ASCII. -/
theorem showBytes (s : List Char) : Composed document (BindingError.showBytes s) := by
  have hbyte : ∀ b, Composed document (BindingError.showByte b) := by
    intro b
    have hb := b.toNat_lt
    unfold BindingError.showByte
    split_ifs
    · exact fixed (by decide)
    · refine single (.inl ?_)
      rwa [toNat_ofNat (.inl (by omega))]
    · refine append (fixed (by decide)) fun c hc => ?_
      rw [String.toList_ofList, List.mem_map] at hc
      obtain ⟨d, hd, rfl⟩ := hc
      have hlt := (digit_lt (by omega) (by omega) hd).2
      exact .inl (by omega)
  refine append (append (fixed (by decide)) fun c hc => ?_) (fixed (by decide))
  rw [String.toList_join, List.mem_flatMap] at hc
  obtain ⟨shown, hshown, hc⟩ := hc
  obtain ⟨b, -, rfl⟩ := List.mem_map.1 hshown
  exact hbyte b c hc

end Composed

open Composed

theorem composed_fault (f : Fault) : Composed document f.message := by
  cases f with
  | strangeBang c =>
    exact append (append (append (fixed (by decide)) (fixed (by decide))) (leadingByte c))
      (fixed (by decide))
  | bareBang | comment | cdata | doctype | emptyDoctype | instruction => exact fixed (by decide)

theorem composed_readError {e : ReadError} (h : e.Within document) :
    Composed document e.message := by
  cases e with
  | fault f => exact composed_fault f
  | binding e =>
    exact append (append (append (append (fixed (by decide)) (showBytes e.label))
      (fixed (by decide))) (showBytes e.uri)) (fixed (by decide))
  | mismatch expected found =>
    exact append (append (append (append (fixed (by decide)) (quotation h.1)) (fixed (by decide)))
      (quotation h.2)) (fixed (by decide))

theorem composed_attributeError {e : AttributeError} (h : e.Within document) :
    Composed document e.message := by
  refine append (fixed (by decide)) ?_
  cases e with
  | missingEquals place | missingValue place | unquoted place =>
    exact append (number place) (fixed (by decide))
  | duplicate place previous =>
    exact append (append (number place) (fixed (by decide))) (number previous)
  | missingQuote place quote =>
    exact append (append (append (number place) (fixed (by decide))) (single (.inr h)))
      (fixed (by decide))

theorem composed_entityError {e : EntityError} (h : e.Within document) :
    Composed document e.message := by
  have hrange : ∀ start stop {what}, Composed document what →
      Composed document (EntityError.atRange start stop what) := fun start stop _ hwhat =>
    append (append (append (append (append (fixed (by decide)) (number start)) (fixed (by decide)))
      (number stop)) (fixed (by decide))) hwhat
  cases e with
  | unterminated start size => exact hrange start size (fixed (by decide))
  | unknown start stop name => exact hrange start stop (append (fixed (by decide)) (quoted h))
  | null start stop => exact hrange start stop (fixed (by decide))
  | longHexadecimal | longDecimal => exact fixed (by decide)
  | badHexadecimal c | badDecimal c =>
    exact append (append (fixed (by decide)) (leadingByte c)) (fixed (by decide))
  | badCharacter code => exact append (append (fixed (by decide)) (number code)) (fixed (by decide))

theorem LayoutError.Within.composed {e : LayoutError} (h : e.Within document) :
    Composed document e.message := by
  cases e with
  | noRoot | unclosed | secondRoot | textOutsideRoot => exact fixed (by decide)
  | unboundLabel label =>
    exact append (append (fixed (by decide)) (quotation h)) (fixed (by decide))
  | unreadable e => exact composed_readError h
  | badAttribute e => exact composed_attributeError h
  | badEntity e => exact composed_entityError h

end LayoutShell.Layout
