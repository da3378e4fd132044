import LayoutShell.Proofs.Layout.Documents

/-!
# Recorded names

An element in a namespace is recorded under `{uri}local`, any other under its local part. A
namespace may be any text, braces and the names of other elements included, so what keeps two
recorded names apart is the last closing brace.

* `qualified` puts a namespace before a local part, and `qualified_inj` takes them apart again.
* `LayoutElement` is an element of a document that is accepted, and `LayoutElement.elementTag_eq`
  the name it is recorded under.
* `classes_of_addElement`: an element in a namespace adds that name to the classes and nothing else.
* `recorded_names_separate`: two elements are recorded under one name exactly if they have the same
  local part in the same namespace.
-/

namespace LayoutShell.Layout

open Markup References

/-! ## The parts of a name -/

/-- The local part of the name of an element. -/
def localPart (e : Element) : List Char := (e.scope.resolveElement e.name).2

/-- The namespace that an element is in, if it is in one. -/
def uri? (e : Element) : Option (List Char) :=
  match (e.scope.resolveElement e.name).1 with
  | .bound uri => some uri
  | _ => none

/-- A local part with its namespace in braces before it. -/
def qualified : Option (List Char) → List Char → List Char
  | none, l => l
  | some uri, l => '\x7b' :: uri ++ '\x7d' :: l

/-- A text without braces. -/
def Unbraced (s : List Char) : Prop := ∀ c ∈ s, c ≠ '\x7b' ∧ c ≠ '\x7d'

instance (s : List Char) : Decidable (Unbraced s) := List.decidableBAll _ s

/-- Texts that end after the last occurrence of a character are cut there in one way only. -/
theorem append_cons_inj_of_notMem {α : Type} {a : α} {s t u v : List α} (ht : a ∉ t) (hv : a ∉ v)
    (h : s ++ a :: t = u ++ a :: v) : s = u ∧ t = v := by
  rcases List.append_eq_append_iff.1 h with ⟨w, rfl, htail⟩ | ⟨w, rfl, htail⟩
  · rcases w with _ | ⟨b, w⟩
    · exact ⟨by simp, (List.cons.inj htail).2⟩
    · -- the character would stand once more, behind the cut
      obtain ⟨-, rfl⟩ := List.cons.inj htail
      exact absurd (by simp) ht
  · rcases w with _ | ⟨b, w⟩
    · exact ⟨by simp, (List.cons.inj htail).2.symm⟩
    · obtain ⟨-, rfl⟩ := List.cons.inj htail
      exact absurd (by simp) hv

theorem Unbraced.ne_qualified {l : List Char} (h : Unbraced l) (uri l' : List Char) :
    l ≠ qualified (some uri) l' := by
  intro heq
  have hbrace : '\x7b' ∈ l := heq ▸ List.mem_cons_self
  exact (h _ hbrace).1 rfl

theorem qualified_inj {uri uri' : Option (List Char)} {l l' : List Char} (hl : Unbraced l)
    (hl' : Unbraced l') : qualified uri l = qualified uri' l' ↔ l = l' ∧ uri = uri' := by
  constructor
  · intro h
    rcases uri with _ | uri <;> rcases uri' with _ | uri'
    · exact ⟨h, rfl⟩
    · exact absurd h (hl.ne_qualified uri' l')
    · exact absurd h.symm (hl'.ne_qualified uri l)
    · have htail : uri ++ '\x7d' :: l = uri' ++ '\x7d' :: l' := (List.cons.inj h).2
      obtain ⟨rfl, rfl⟩ := append_cons_inj_of_notMem (fun hc => (hl _ hc).2 rfl)
        (fun hc => (hl' _ hc).2 rfl) htail
      exact ⟨rfl, rfl⟩
  · rintro ⟨rfl, rfl⟩
    rfl

/-! ## Elements in a namespace -/

theorem elementTag_of_bound {e : Element}
    (h : ∀ label, (e.scope.resolveElement e.name).1 ≠ .unknown label) :
    elementTag e = .ok (qualified (uri? e) (localPart e)) := by
  unfold elementTag uri? localPart
  split
  · next hr => rw [hr]; rfl
  · next hr => rw [hr]; rfl
  · next label _ hr => exact absurd (congrArg Prod.fst hr) (h label)

/-- No structural tag begins with a brace. -/
theorem qualified_not_structural (uri l : List Char) :
    qualified (some uri) l ∉ structuralTags := by
  intro h
  have hhead : ∀ tag ∈ structuralTags, tag.head? ≠ some '\x7b' := by decide
  exact hhead _ h rfl

theorem not_isClassAttribute_qualified (uri l name : List Char) :
    ¬IsClassAttribute (qualified (some uri) l) name := by
  intro h
  refine qualified_not_structural uri l ?_
  rcases h with ⟨htag, -⟩ | ⟨htag, -⟩ <;> rw [htag] <;> decide

/-- An attribute adds a class only on a `view` or a `fragment`. -/
theorem classes_of_addAttribute {scope : Scope} {tag : List Char}
    (htag : ∀ name, ¬IsClassAttribute tag name) {r r' : References} {a : Attribute}
    (h : addAttribute scope tag r a = .ok r') : r'.classes = r.classes := by
  unfold addAttribute at h
  split at h
  · cases h
    rfl
  · split at h
    · cases h
    · cases h
      rfl
    · split at h
      · obtain ⟨value, -, h⟩ := bind_eq_ok_iff.1 h
        cases h
        refine NameSet.ext fun n => ?_
        rw [(adds_addReference tag _ value r).classes n]
        exact or_iff_left fun hclass => htag _ hclass.1
      · cases h
        rfl

theorem classes_of_addAttributes {scope : Scope} {tag : List Char}
    (htag : ∀ name, ¬IsClassAttribute tag name) {r r' : References}
    {xs : List (Except AttributeError Attribute)} (h : addAttributes scope tag r xs = .ok r') :
    r'.classes = r.classes := by
  induction xs generalizing r with
  | nil =>
    cases h
    rfl
  | cons x xs ih =>
    cases x with
    | error e => cases h
    | ok a =>
      obtain ⟨r₁, h₁, h⟩ := bind_eq_ok_iff.1 h
      exact (ih h).trans (classes_of_addAttribute htag h₁)

/-- An element in a namespace adds the name it is recorded under to the classes, and its attributes
add none. -/
theorem classes_of_addElement {e : Element} {uri l : List Char}
    (htag : elementTag e = .ok (qualified (some uri) l)) {r r' : References}
    (h : addElement r e = .ok r') :
    r'.classes = r.classes.insert (String.ofList (qualified (some uri) l)) := by
  rw [addElement, htag] at h
  have hattributes := classes_of_addAttributes (not_isClassAttribute_qualified uri l) h
  rwa [if_neg (qualified_not_structural uri l)] at hattributes

theorem Progress.addElement_of_step {event : Event} {e : Element} (he : event.element? = some e)
    {p q : Progress} (h : p.step event = .ok q) : addElement p.found e = .ok q.found := by
  cases event with
  | start e' =>
    obtain rfl := Option.some.inj he
    obtain ⟨p', hvisit, h⟩ := bind_eq_ok_iff.1 h
    obtain ⟨r, hr, rfl⟩ := exists_addElement_of_visit hvisit
    cases h
    exact hr
  | empty e' =>
    obtain rfl := Option.some.inj he
    obtain ⟨r, hr, rfl⟩ := exists_addElement_of_visit h
    exact hr
  | finish | text | aside => cases he

/-! ## Elements of layouts -/

/-- The document is a layout that refers to `r`, and `e` is one of its elements, met at `event`. -/
structure LayoutElement (document : List Char) (r : References) (event : Event) (e : Element) :
    Prop where
  parse_eq : References.parse document = .ok r
  mem_scan : .ok event ∈ Event.scan document
  element_eq : event.element? = some e

namespace LayoutElement

variable {document : List Char} {r : References} {event : Event} {e : Element}

/-- The events of a layout are sound, and its references are those of its elements. -/
theorem exists_events (h : LayoutElement document r event e) :
    ∃ events : List Event, event ∈ events ∧ (∀ event ∈ events, SoundEvent event) ∧
      ∀ n, n ∈ r.classes ↔ Mentions ElementClass events n := by
  obtain ⟨q, hq, -⟩ := bind_eq_ok_iff.1 h.parse_eq
  obtain ⟨events, hscan⟩ := Progress.run_eq_ok_cases hq
  obtain ⟨-, hsound, hadds⟩ := (parse_of_scan hscan).1 h.parse_eq
  have hmem := h.mem_scan
  rw [hscan] at hmem
  obtain ⟨event', hevent', heq⟩ := List.mem_map.1 hmem
  obtain rfl := Except.ok.inj heq
  exact ⟨events, hevent', hsound, (adds_empty_iff.1 hadds).1⟩

theorem elementTag_eq (h : LayoutElement document r event e) :
    elementTag e = .ok (qualified (uri? e) (localPart e)) := by
  obtain ⟨events, hevent, hsound, -⟩ := h.exists_events
  have helement : SoundElement e := by
    have hthis := hsound event hevent
    have he := h.element_eq
    cases event with
    | start | empty =>
      obtain rfl := Option.some.inj he
      exact hthis
    | finish | text | aside => cases he
  exact elementTag_of_bound helement.bound

theorem mem_classes (h : LayoutElement document r event e) {tag : List Char}
    (htag : elementTag e = .ok tag) (hstructural : tag ∉ structuralTags) :
    String.ofList tag ∈ r.classes := by
  obtain ⟨events, hevent, -, hclasses⟩ := h.exists_events
  refine (hclasses _).2 ⟨event, hevent, e, h.element_eq, tag, htag, .inl ⟨hstructural, rfl⟩⟩

end LayoutElement

/-- **Recorded names separate elements.** Two elements of any layouts, whose local parts have no
braces, are recorded under the same name exactly if they have the same local part and are in the
same namespace or both in none. An element in a namespace is no structural tag: it is recorded as a
class, and to handle it adds this class and no other. -/
theorem recorded_names_separate {document document' : List Char} {r r' : References}
    {event event' : Event} {e e' : Element} (h : LayoutElement document r event e)
    (h' : LayoutElement document' r' event' e') :
    ∃ tag tag', elementTag e = .ok tag ∧ elementTag e' = .ok tag' ∧
      (Unbraced (localPart e) → Unbraced (localPart e') →
        (tag = tag' ↔ localPart e = localPart e' ∧ uri? e = uri? e')) ∧
      (uri? e ≠ none → tag ∉ structuralTags ∧ String.ofList tag ∈ r.classes ∧
        ∀ p q : Progress, p.step event = .ok q →
          q.found.classes = p.found.classes.insert (String.ofList tag)) := by
  refine ⟨_, _, h.elementTag_eq, h'.elementTag_eq, qualified_inj, fun huri => ?_⟩
  obtain ⟨uri, huri⟩ := Option.ne_none_iff_exists'.1 huri
  have htag := h.elementTag_eq
  rw [huri] at htag ⊢
  have hstructural := qualified_not_structural uri (localPart e)
  refine ⟨hstructural, h.mem_classes htag hstructural, fun p q hstep => ?_⟩
  exact classes_of_addElement htag (Progress.addElement_of_step h.element_eq hstep)

/-! A `view` in a namespace whose name is a pair of braces, by a prefix and as the default. -/

namespace BracedViews

def prefixed : List Char :=
  ("<w:view xmlns:w=\"\x7b\x7d\" " ++
    "xmlns:android=\"http://schemas.android.com/apk/res/android\" android:class=\"Panel\"/>").toList

def unprefixed : List Char := "<view xmlns=\"\x7b\x7d\"/>".toList

def found : References := ⟨NameSet.ofList ["\x7b\x7b\x7d\x7dview"], ∅⟩

def prefixedView : Element :=
  ⟨(prefixed.drop 1).take (prefixed.length - 3),
    ⟨"android".toList, androidUri⟩ :: ⟨"w".toList, "\x7b\x7d".toList⟩ :: Scope.initial⟩

def unprefixedView : Element :=
  ⟨(unprefixed.drop 1).take (unprefixed.length - 3), ⟨[], "\x7b\x7d".toList⟩ :: Scope.initial⟩

theorem scan_documents :
    Event.scan prefixed = [.ok (.empty prefixedView)] ∧
      Event.scan unprefixed = [.ok (.empty unprefixedView)] ∧
      addElement References.empty prefixedView = .ok found ∧
      addElement References.empty unprefixedView = .ok found ∧
      uri? prefixedView = some "\x7b\x7d".toList ∧ localPart prefixedView = "view".toList ∧
      uri? unprefixedView = some "\x7b\x7d".toList ∧ localPart unprefixedView = "view".toList := by
  decide +kernel

/-- A document that is one element refers to what the element refers to. -/
theorem parse_of_scan_singleton {document : List Char} {e : Element} {r : References}
    (hscan : Event.scan document = [.ok (.empty e)])
    (h : addElement References.empty e = .ok r) : References.parse document = .ok r := by
  rw [References.parse, hscan, Progress.run, Progress.step, Progress.visit,
    if_neg (by decide), Progress.initial, h]
  rfl

theorem prefixed_element : LayoutElement prefixed found (.empty prefixedView) prefixedView :=
  ⟨parse_of_scan_singleton scan_documents.1 scan_documents.2.2.1, by simp [scan_documents.1], rfl⟩

theorem unprefixed_element :
    LayoutElement unprefixed found (.empty unprefixedView) unprefixedView :=
  ⟨parse_of_scan_singleton scan_documents.2.1 scan_documents.2.2.2.1,
    by simp [scan_documents.2.1], rfl⟩

end BracedViews

open BracedViews in
theorem recorded_names_separate_braced :
    LayoutElement prefixed found (.empty prefixedView) prefixedView ∧
      LayoutElement unprefixed found (.empty unprefixedView) unprefixedView ∧
      elementTag prefixedView = elementTag unprefixedView ∧
      ∀ p q : Progress, p.step (.empty prefixedView) = .ok q →
        q.found.classes = p.found.classes.insert "\x7b\x7b\x7d\x7dview" := by
  obtain ⟨tag, tag', htag, htag', hiff, hbound⟩ :=
    recorded_names_separate prefixed_element unprefixed_element
  obtain ⟨-, -, -, -, huri, hlocal, huri', hlocal'⟩ := scan_documents
  have hunbraced : Unbraced "view".toList := by decide
  have hsame : tag = tag' := (hiff (hlocal ▸ hunbraced) (hlocal' ▸ hunbraced)).2
    ⟨hlocal.trans hlocal'.symm, huri.trans huri'.symm⟩
  have hview := prefixed_element.elementTag_eq
  rw [huri, hlocal, htag] at hview
  refine ⟨prefixed_element, unprefixed_element, by rw [htag, htag', hsame], fun p q hstep => ?_⟩
  have hname : String.ofList tag = "\x7b\x7b\x7d\x7dview" := by
    rw [Except.ok.inj hview]
    decide
  rw [(hbound (by simp [huri])).2.2 p q hstep, hname]

end LayoutShell.Layout
