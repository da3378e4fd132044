import LayoutShell.Proofs.Markup.Attributes
import LayoutShell.Proofs.Markup.Events
import LayoutShell.Proofs.Markup.Places

/-!
# Substrings of a document

All that a reader keeps of a document is cut out of it: contents of tags and texts, keys and values
of attributes, names and prefixes. The namespaces of the prefixes `xml` and `xmlns` are the only
texts it knows from elsewhere.

* `Lexeme.within_of_mem_scan` and `Attribute.within_of_mem_scan` say it of the lexemes of a document
  and of the attributes of a tag.
* `StandsIn` is what a namespace can be. `Scope.Within.resolveElement` and
  `Scope.Within.resolveAttribute` find the parts into which names are resolved.
* A lexeme keeps that the open elements stand in the document (`Reader.Within.step`), so all events
  do, and the names in an error (`Event.delivers_of_mem_scan`).
-/

namespace LayoutShell.Markup

open Text

theorem dropRightWhile_isPrefix (p : Char → Bool) (s : List Char) : dropRightWhile p s <+: s := by
  obtain ⟨tail, htail, -⟩ := exists_dropRightWhile_append p s
  exact ⟨tail, htail⟩

/-! ## Lexemes -/

theorem cutAt_isPrefix (stop : Char) (s : List Char) : (cutAt stop s).1 <+: s := by
  rcases cutAt_cases stop s with ⟨before, after, rfl, h⟩ | h
  · rw [h]
    exact List.prefix_append before _
  · rw [h]

theorem cutTag_isPrefix (quote : Option Char) (s : List Char) : (cutTag quote s).1 <+: s := by
  rcases cutTag_cases quote s with ⟨before, after, rfl, h⟩ | h
  · rw [h]
    exact List.prefix_append before _
  · rw [h]

namespace Lexeme

/-- What the reader keeps of the lexeme stands in the text. -/
def Within (s : List Char) : Lexeme → Prop
  | .text content | .startTag content | .emptyTag content | .endTag content => content <:+: s
  | .comment _ | .cdata _ | .doctype _ | .instruction _ => True

theorem Within.mono {s t : List Char} (h : s <:+: t) {l : Lexeme} (hl : l.Within s) :
    l.Within t := by
  cases l with
  | text | startTag | emptyTag | endTag => exact List.IsInfix.trans hl h
  | comment | cdata | doctype | instruction => trivial

theorem within_of_readTag {s rest : List Char} {l : Lexeme} (h : readTag s = .found l rest) :
    l.Within s := by
  have hcontent := cutTag_isPrefix none s
  simp only [readTag] at h
  split at h <;> cases h
  · exact ((List.dropLast_prefix _).trans hcontent).isInfix
  · exact hcontent.isInfix

theorem within_of_readTrimmed {s rest : List Char} {l : Lexeme}
    (h : readTrimmed s = .found l rest) : l.Within s := by
  obtain ⟨t, rfl, hread⟩ | ⟨t, rfl, hread⟩ | ⟨t, rfl, hread⟩ | ⟨c, t, rfl, -, hread⟩ |
    ⟨c, t, rfl, -, hread⟩ := readTrimmed_cases h
  · obtain ⟨_, _, -, rfl, -⟩ | ⟨_, _, _, -, rfl, -⟩ | ⟨_, _, _, _, -, rfl, -⟩ :=
      readBang_cases hread <;> trivial
  · simp only [readInstruction] at hread
    split at hread <;> cases hread
    trivial
  · cases hread
    have hcontent : (cutAt '>' t).1 <:+: t := (cutAt_isPrefix '>' t).isInfix
    exact hcontent.trans (List.suffix_append ['<', '/'] t).isInfix
  · exact (within_of_readTag hread).mono (List.suffix_cons '<' (c :: t)).isInfix
  · cases hread
    exact ((dropRightWhile_isPrefix _ _).trans (List.takeWhile_prefix _)).isInfix

/-- A lexeme and the rest of a document stand in the document. -/
theorem within_of_read {s rest : List Char} {l : Lexeme} (h : read s = .found l rest) :
    l.Within s ∧ rest <:+ s := by
  refine ⟨(within_of_readTrimmed h).mono (List.dropWhile_suffix _).isInfix, ?_⟩
  rcases eq_or_ne rest [] with rfl | hrest
  · exact List.nil_suffix
  · obtain ⟨q, rfl, -⟩ := exists_read_append h hrest
    exact List.suffix_append q rest

theorem within_of_mem_scan {s : List Char} {l : Lexeme} (h : .ok l ∈ scan s) : l.Within s := by
  induction hn : s.length using Nat.strongRecOn generalizing s with
  | ind n ih =>
    rw [scan_eq] at h
    cases hread : read s with
    | done =>
      rw [hread] at h
      cases h
    | fault f =>
      rw [hread] at h
      simp at h
    | found first rest =>
      rw [hread, List.mem_cons] at h
      obtain ⟨hfirst, hrest⟩ := within_of_read hread
      rcases h with h | h
      · cases h
        exact hfirst
      · exact (ih _ (hn ▸ length_of_read hread) h rfl).mono hrest.isInfix

end Lexeme

/-! ## Attributes -/

/-- The quote in the error stands in the text. -/
def AttributeError.Within (s : List Char) : AttributeError → Prop
  | .missingQuote _ quote => quote ∈ s
  | .missingEquals _ | .duplicate _ _ | .missingValue _ | .unquoted _ => True

theorem AttributeError.Within.mono {s t : List Char} (h : s <:+: t) {e : AttributeError}
    (he : e.Within s) : e.Within t := by
  cases e with
  | missingQuote place quote => exact h.subset he
  | missingEquals | duplicate | missingValue | unquoted => trivial

/-- The key and the value of the attribute stand in the text. -/
structure Attribute.Within (s : List Char) (a : Attribute) : Prop where
  key : a.key <:+: s
  value : a.value <:+: s

namespace Attribute

theorem Within.mono {s t : List Char} (h : s <:+: t) {a : Attribute} (ha : a.Within s) :
    a.Within t :=
  ⟨ha.key.trans h, ha.value.trans h⟩

/-- What is read stands in the text. -/
def Reading.Within (s : List Char) : Reading → Prop
  | .done => True
  | .noKey e | .noValue _ _ e => e.Within s
  | .found a _ rest => a.Within s ∧ rest <:+ s

theorem Reading.Within.mono {s t : List Char} (h : s <:+ t) {r : Reading} (hr : r.Within s) :
    r.Within t := by
  cases r with
  | done => trivial
  | noKey e | noValue _ _ e => exact AttributeError.Within.mono h.isInfix hr
  | found a next rest => exact ⟨hr.1.mono h.isInfix, hr.2.trans h⟩

theorem spanOf_parts (p : Char → Bool) (s : List Char) :
    (spanOf p s).1 <+: s ∧ (spanOf p s).2 <:+ s :=
  ⟨List.takeWhile_prefix p, List.dropWhile_suffix p⟩

theorem readValue_within {text key s : List Char} (hkey : key <:+: text) (hs : s <:+ text)
    (keyPlace place : Nat) : (readValue keyPlace key place s).Within text := by
  have hspace := (spanOf_parts isMarkupSpace s).2.trans hs
  simp only [readValue]
  split
  · trivial
  · next quote t ht =>
    rw [ht] at hspace
    have htail : t <:+ text := (List.suffix_cons quote t).trans hspace
    obtain ⟨hvalue, hrest⟩ := spanOf_parts (· ≠ quote) t
    split
    · split
      · exact hspace.subset List.mem_cons_self
      · next d u hu =>
        rw [hu] at hrest
        exact ⟨⟨hkey, hvalue.isInfix.trans htail.isInfix⟩,
          ((List.suffix_cons d u).trans hrest).trans htail⟩
    · trivial

theorem read_within (place : Nat) (s : List Char) : (read place s).Within s := by
  have hspace := (spanOf_parts isMarkupSpace s).2
  simp only [read]
  split
  · trivial
  · next c t ht =>
    rw [ht] at hspace
    obtain ⟨hkey, hbehind⟩ := spanOf_parts isKeyChar t
    have hsign := (spanOf_parts isMarkupSpace (spanOf isKeyChar t).2).2
    split
    · next u hu =>
      rw [hu] at hsign
      refine readValue_within ?_ ?_ _ _
      · exact (List.cons_prefix_cons.2 ⟨rfl, hkey⟩).isInfix.trans hspace.isInfix
      · exact ((List.suffix_cons '=' u).trans hsign).trans
          (hbehind.trans ((List.suffix_cons c t).trans hspace))
    · trivial

theorem within_of_mem_readings {place : Nat} {s : List Char} {r : Reading}
    (h : r ∈ readings place s) : r.Within s := by
  fun_induction readings place s with
  | case1 => cases h
  | case2 place s a next rest hread ih =>
    have hfound := read_within place s
    rw [hread] at hfound
    rcases List.mem_cons.1 h with rfl | h
    · exact hfound
    · exact (ih h).mono hfound.2
  | case3 place s =>
    obtain rfl := List.mem_singleton.1 h
    exact read_within place s

theorem within_of_mem_scan {place : Nat} {s : List Char} {a : Attribute} (h : a ∈ scan place s) :
    a.Within s := by
  rw [scan_eq] at h
  obtain ⟨r, hr, ha⟩ := List.mem_filterMap.1 h
  have hwithin := within_of_mem_readings hr
  cases r with
  | found b next rest =>
    obtain rfl := Option.some.inj ha
    exact hwithin.1
  | done | noKey | noValue => cases ha

theorem delivers_of_mem_distinctFrom {s : List Char} {rs : List Reading}
    (hrs : ∀ r ∈ rs, r.Within s) (seen : List (List Char × Nat)) :
    ∀ x ∈ distinctFrom seen rs, Delivers (Attribute.Within s) (AttributeError.Within s) x := by
  induction rs generalizing seen with
  | nil => simp [distinctFrom]
  | cons r rs ih =>
    obtain ⟨hr, hrest⟩ := List.forall_mem_cons.1 hrs
    cases r with
    | done => simp [distinctFrom]
    | noKey e => exact List.forall_mem_singleton.2 hr
    | noValue place key e =>
      simp only [distinctFrom]
      split
      · exact List.forall_mem_singleton.2 trivial
      · exact List.forall_mem_singleton.2 hr
    | found b next rest =>
      simp only [distinctFrom]
      split
      · exact List.forall_mem_singleton.2 trivial
      · exact List.forall_mem_cons.2 ⟨hr.1, ih hrest _⟩

end Attribute

/-! ## Namespaces and names -/

/-- A text that is cut out of the document, or one of the two namespaces that are bound in every
document. -/
def StandsIn (document s : List Char) : Prop := s <:+: document ∨ s ∈ [xmlUri, xmlnsUri]

instance (document s : List Char) : Decidable (StandsIn document s) :=
  inferInstanceAs (Decidable (_ ∨ _))

/-- The parts of a name stand in the name. -/
theorem splitName_isInfix (name : List Char) :
    (∀ label ∈ (splitName name).1, label <:+: name) ∧ (splitName name).2 <:+: name := by
  unfold splitName
  split
  · next label localPart h =>
    obtain ⟨d, rfl, -⟩ := exists_of_splitFirst h
    refine ⟨fun label' hlabel => ?_, ?_⟩
    · obtain rfl := Option.some.inj hlabel
      exact (List.prefix_append label _).isInfix
    · exact ((List.suffix_cons d localPart).trans (List.suffix_append label _)).isInfix
  · simp

/-- The texts that a name of the document is resolved into stand in the document. -/
structure Resolution.Within (document : List Char) (r : Resolution × List Char) : Prop where
  localPart : r.2 <:+: document
  uri : ∀ uri, r.1 = .bound uri → StandsIn document uri
  label : ∀ label, r.1 = .unknown label → label <:+: document

namespace Scope

/-- The namespaces of the bindings stand in the document. -/
def Within (document : List Char) (scope : Scope) : Prop := ∀ b ∈ scope, StandsIn document b.uri

variable {document : List Char} {scope : Scope}

theorem within_initial (document : List Char) : initial.Within document := by
  intro b hb
  refine .inr ?_
  rcases List.mem_cons.1 hb with rfl | hb
  · exact List.mem_cons_self
  · obtain rfl := List.mem_singleton.1 hb
    exact List.mem_cons_of_mem _ List.mem_cons_self

theorem Within.declare (h : scope.Within document) {as : List Attribute}
    (has : ∀ a ∈ as, a.value <:+: document) {scope' : Scope} (hs : scope.declare as = .ok scope') :
    scope'.Within document := by
  induction as generalizing scope with
  | nil =>
    cases hs
    exact h
  | cons a as ih =>
    rw [List.forall_mem_cons] at has
    obtain ⟨middle, hmiddle, hs⟩ := bind_eq_ok_iff.1 hs
    refine ih ?_ has.2 hs
    obtain rfl | ⟨label, -, -, rfl⟩ := declareOne_cases hmiddle
    · exact h
    · exact List.forall_mem_cons.2 ⟨.inl has.1, h⟩

theorem Within.lookup? (h : scope.Within document) {label uri : List Char}
    (huri : scope.lookup? label = some uri) : StandsIn document uri := by
  unfold Scope.lookup? at huri
  split at huri
  · next b hfind =>
    split at huri <;> cases huri
    exact h b (List.mem_of_find?_eq_some hfind)
  · cases huri

/-- A prefix and a local part that stand in the document are resolved into texts of it. -/
theorem Within.resolveLabel (h : scope.Within document) {label localPart : List Char}
    (hlabel : label <:+: document) (hlocal : localPart <:+: document) :
    Resolution.Within document (scope.resolveLabel label, localPart) := by
  unfold Scope.resolveLabel
  split
  · refine ⟨hlocal, fun uri hr => ?_, fun label' hr => ?_⟩ <;> cases hr
    exact hlabel
  · split
    · next uri huri =>
      refine ⟨hlocal, fun uri' hr => ?_, fun label' hr => ?_⟩ <;> cases hr
      exact h.lookup? huri
    · refine ⟨hlocal, fun uri hr => ?_, fun label' hr => ?_⟩ <;> cases hr
      exact hlabel

theorem Within.resolveElement (h : scope.Within document) {name : List Char}
    (hname : name <:+: document) : Resolution.Within document (scope.resolveElement name) := by
  obtain ⟨hlabel, hlocal⟩ := splitName_isInfix name
  unfold Scope.resolveElement
  split
  · next label localPart hsplit =>
    rw [hsplit] at hlabel hlocal
    exact h.resolveLabel ((hlabel label rfl).trans hname) (hlocal.trans hname)
  · next localPart hsplit =>
    rw [hsplit] at hlocal
    split
    · next uri huri =>
      refine ⟨hlocal.trans hname, fun uri' hr => ?_, fun label' hr => ?_⟩ <;> cases hr
      exact h.lookup? huri
    · refine ⟨hlocal.trans hname, fun uri' hr => ?_, fun label' hr => ?_⟩ <;> cases hr

theorem Within.resolveAttribute (h : scope.Within document) {key : List Char}
    (hkey : key <:+: document) : Resolution.Within document (scope.resolveAttribute key) := by
  obtain ⟨hlabel, hlocal⟩ := splitName_isInfix key
  unfold Scope.resolveAttribute
  split
  · next label localPart hsplit =>
    rw [hsplit] at hlabel hlocal
    exact h.resolveLabel ((hlabel label rfl).trans hkey) (hlocal.trans hkey)
  · next localPart hsplit =>
    rw [hsplit] at hlocal
    refine ⟨hlocal.trans hkey, fun uri' hr => ?_, fun label' hr => ?_⟩ <;> cases hr

end Scope

/-! ## Elements and events -/

/-- The element stands in the document, and so do the namespaces bound in it. -/
structure Element.Within (document : List Char) (e : Element) : Prop where
  content : e.content <:+: document
  scope : e.scope.Within document

namespace Element.Within

variable {document : List Char} {e : Element}

theorem name (h : e.Within document) : e.name <:+: document :=
  (List.takeWhile_prefix _).isInfix.trans h.content

theorem attributeText (h : e.Within document) : Element.attributeText e.content <:+: document :=
  (List.dropWhile_suffix _).isInfix.trans h.content

theorem attributes (h : e.Within document) :
    ∀ x ∈ e.attributes,
      Delivers (Attribute.Within document) (AttributeError.Within document) x := by
  intro x hx
  have hwithin :=
    Attribute.delivers_of_mem_distinctFrom (fun _ => Attribute.within_of_mem_readings) [] x hx
  exact hwithin.mono (fun _ => Attribute.Within.mono h.attributeText)
    fun _ => AttributeError.Within.mono h.attributeText

end Element.Within

/-- The names of the open elements stand in the document, and so do the namespaces bound in them. -/
def Reader.Within (document : List Char) (reader : Reader) : Prop :=
  ∀ frame ∈ reader, frame.name <:+: document ∧ frame.scope.Within document

/-- What the event holds stands in the document. -/
def Event.Within (document : List Char) : Event → Prop
  | .start e | .empty e => e.Within document
  | .text content => content <:+: document
  | .finish | .aside => True

/-- The names in the error stand in the document. -/
def ReadError.Within (document : List Char) : ReadError → Prop
  | .mismatch expected found => expected <:+: document ∧ found <:+: document
  | .fault _ | .binding _ => True

namespace Reader

variable {document : List Char} {reader : Reader}

theorem Within.scope (h : reader.Within document) : reader.scope.Within document := by
  cases reader with
  | nil => exact Scope.within_initial document
  | cons frame outer => exact (h frame List.mem_cons_self).2

theorem Within.element (h : reader.Within document) {content : List Char}
    (hcontent : content <:+: document) :
    Delivers (Element.Within document) (fun _ => True) (Reader.element reader.scope content) := by
  cases he : Reader.element reader.scope content with
  | error e => trivial
  | ok e =>
    obtain ⟨rfl, hdeclare⟩ := element_eq_ok he
    refine ⟨hcontent, h.scope.declare (fun a ha => ?_) hdeclare⟩
    exact (Attribute.within_of_mem_scan ha).value.trans
      ((List.dropWhile_suffix _).isInfix.trans hcontent)

theorem endName_isPrefix (content : List Char) : endName content <+: content := by
  unfold endName
  split
  · exact List.prefix_refl content
  · exact dropRightWhile_isPrefix _ content

/-- What a lexeme of the document gives stands in the document. -/
theorem Within.step (h : reader.Within document) {l : Lexeme} (hl : l.Within document) :
    Delivers (fun r => Event.Within document r.1 ∧ Reader.Within document r.2)
      (ReadError.Within document) (reader.step l) := by
  cases l with
  | text content => exact ⟨hl, h⟩
  | startTag content =>
    refine Delivers.bind (h.element hl).mapError fun e he => ?_
    exact ⟨he, List.forall_mem_cons.2 ⟨⟨he.name, he.scope⟩, h⟩⟩
  | emptyTag content => exact Delivers.bind (h.element hl).mapError fun e he => ⟨he, h⟩
  | endTag content =>
    cases reader with
    | nil => exact ⟨List.nil_infix, hl⟩
    | cons frame outer =>
      obtain ⟨hframe, houter⟩ := List.forall_mem_cons.1 h
      simp only [Reader.step]
      split
      · exact ⟨trivial, houter⟩
      · exact ⟨hframe.1, (endName_isPrefix content).isInfix.trans hl⟩
  | comment | cdata | doctype | instruction => exact ⟨trivial, h⟩

end Reader

namespace Event

variable {document : List Char}

theorem withoutMark_isSuffix (document : List Char) : withoutMark document <:+ document := by
  unfold withoutMark
  split
  · exact List.suffix_cons _ _
  · exact List.suffix_refl document

theorem delivers_of_mem_ofLexemes {reader : Reader} (h : reader.Within document)
    {ls : List (Except Fault Lexeme)} (hls : ∀ l, .ok l ∈ ls → l.Within document) :
    ∀ x ∈ ofLexemes reader ls, Delivers (Event.Within document) (ReadError.Within document) x := by
  induction ls generalizing reader with
  | nil => simp [ofLexemes]
  | cons first ls ih =>
    cases first with
    | error f => exact List.forall_mem_singleton.2 trivial
    | ok l =>
      have hstep := h.step (hls l List.mem_cons_self)
      simp only [ofLexemes]
      split
      · next e he =>
        rw [he] at hstep
        exact List.forall_mem_singleton.2 hstep
      · next event next hok =>
        rw [hok] at hstep
        exact List.forall_mem_cons.2
          ⟨hstep.1, ih hstep.2 fun l hl => hls l (List.mem_cons_of_mem _ hl)⟩

/-- The events of a document stand in it, and so do the names in an error. -/
theorem delivers_of_mem_scan (document : List Char) :
    ∀ x ∈ scan document, Delivers (Event.Within document) (ReadError.Within document) x := by
  refine delivers_of_mem_ofLexemes (fun frame hframe => by cases hframe) fun l hl => ?_
  exact (Lexeme.within_of_mem_scan hl).mono (withoutMark_isSuffix document).isInfix

end Event

end LayoutShell.Markup
