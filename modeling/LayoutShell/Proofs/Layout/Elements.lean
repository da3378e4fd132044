import LayoutShell.Layout.References
import LayoutShell.Proofs.Markup.Attributes
import LayoutShell.Proofs.Markup.Scopes
import LayoutShell.Proofs.Results
import LayoutShell.Proofs.Text.Cutting

/-!
# The references of one element

What an element of a layout refers to, and when it can be read at all.

* `References.Adds` says which classes and handlers a step adds to the references found so far;
  consecutive steps add up (`Adds.trans`).
* `SoundAttribute` and `SoundElement` are what an attribute and an element must satisfy.
* `addElement_eq_ok_iff`: an element is accepted exactly if it is sound, and then it adds its own
  classes and handlers (`ElementClass`, `ElementHandler`).
-/

namespace LayoutShell.Layout

open Markup Text

/-! ## Added references -/

namespace References

/-- `r'` has the references of `r`, the classes `C` and the handlers `H`. -/
structure Adds (r r' : References) (C H : String → Prop) : Prop where
  classes : ∀ n, n ∈ r'.classes ↔ n ∈ r.classes ∨ C n
  handlers : ∀ n, n ∈ r'.handlers ↔ n ∈ r.handlers ∨ H n

namespace Adds

variable {r r₁ r₂ : References} {C C₁ C₂ H H₁ H₂ : String → Prop}

theorem refl (r : References) : Adds r r (fun _ => False) fun _ => False :=
  ⟨fun _ => (or_false _).symm.to_iff, fun _ => (or_false _).symm.to_iff⟩

theorem trans (h₁ : Adds r r₁ C₁ H₁) (h₂ : Adds r₁ r₂ C₂ H₂) :
    Adds r r₂ (fun n => C₁ n ∨ C₂ n) fun n => H₁ n ∨ H₂ n :=
  ⟨fun n => by rw [h₂.classes, h₁.classes, or_assoc],
    fun n => by rw [h₂.handlers, h₁.handlers, or_assoc]⟩

theorem congr (h : Adds r r₁ C₁ H₁) (hC : ∀ n, C₁ n ↔ C₂ n) (hH : ∀ n, H₁ n ↔ H₂ n) :
    Adds r r₁ C₂ H₂ :=
  ⟨fun n => by rw [h.classes, hC], fun n => by rw [h.handlers, hH]⟩

/-- After a first step, the rest is what a second one adds. -/
theorem right (h₁ : Adds r r₁ C₁ H₁) (h : Adds r r₂ (fun n => C₁ n ∨ C₂ n) fun n => H₁ n ∨ H₂ n) :
    Adds r₁ r₂ C₂ H₂ :=
  ⟨fun n => by rw [h.classes, h₁.classes, or_assoc],
    fun n => by rw [h.handlers, h₁.handlers, or_assoc]⟩

/-- What is added determines the result. -/
theorem unique (h₁ : Adds r r₁ C H) (h₂ : Adds r r₂ C H) : r₁ = r₂ := by
  cases r₁
  cases r₂
  congr 1
  · exact NameSet.ext fun n => (h₁.classes n).trans (h₂.classes n).symm
  · exact NameSet.ext fun n => (h₁.handlers n).trans (h₂.handlers n).symm

end Adds

theorem adds_empty_iff {r : References} {C H : String → Prop} :
    Adds References.empty r C H ↔ (∀ n, n ∈ r.classes ↔ C n) ∧ ∀ n, n ∈ r.handlers ↔ H n := by
  have hnone : ∀ n : String, n ∉ (∅ : NameSet) := NameSet.not_mem_empty
  constructor
  · intro h
    exact ⟨fun n => (h.classes n).trans (or_iff_right (hnone n)),
      fun n => (h.handlers n).trans (or_iff_right (hnone n))⟩
  · rintro ⟨hC, hH⟩
    exact ⟨fun n => (hC n).trans (or_iff_right (hnone n)).symm,
      fun n => (hH n).trans (or_iff_right (hnone n)).symm⟩

theorem adds_addClass (r : References) (name : List Char) :
    Adds r (r.addClass name) (fun n => n = String.ofList name) fun _ => False :=
  ⟨fun _ => NameSet.mem_insert.trans or_comm, fun _ => (or_false _).symm.to_iff⟩

theorem adds_addHandler (r : References) (name : List Char) :
    Adds r (r.addHandler name) (fun _ => False) fun n => n = String.ofList name :=
  ⟨fun _ => (or_false _).symm.to_iff, fun _ => NameSet.mem_insert.trans or_comm⟩

end References

open References

/-! ## Attributes -/

/-- The attribute is called `l` in the android namespace and its value is `v`. -/
def IsAndroid (scope : Scope) (a : Attribute) (l v : List Char) : Prop :=
  scope.resolveAttribute a.key = (.bound androidUri, l) ∧ Entity.expand a.value = .ok v

/-- On an element recorded as `tag`, the value of the attribute `l` is a class. -/
def IsClassAttribute (tag l : List Char) : Prop :=
  tag = "view".toList ∧ l = "class".toList ∨ tag = "fragment".toList ∧ l = "name".toList

theorem IsClassAttribute.ne_onClick {tag l : List Char} (h : IsClassAttribute tag l) :
    l ≠ "onClick".toList := by
  rcases h with ⟨-, rfl⟩ | ⟨-, rfl⟩ <;> decide

/-- The attribute of an element recorded as `tag` makes it refer to the class `n`. -/
def AttributeClass (scope : Scope) (tag : List Char) (a : Attribute) (n : String) : Prop :=
  ∃ l v, IsAndroid scope a l v ∧ IsClassAttribute tag l ∧ v ≠ [] ∧ n = String.ofList v

/-- The attribute makes its element refer to the handler `n`. -/
def AttributeHandler (scope : Scope) (a : Attribute) (n : String) : Prop :=
  ∃ v, IsAndroid scope a "onClick".toList v ∧ v ≠ [] ∧ n = String.ofList v

/-- The prefix of the attribute is bound, unless it belongs to markup itself, and its value can be
expanded if it is in the android namespace. -/
structure SoundAttribute (scope : Scope) (a : Attribute) : Prop where
  bound : isReserved a.key = false →
    ∀ label, (scope.resolveAttribute a.key).1 ≠ .unknown label
  value : ∀ l, scope.resolveAttribute a.key = (.bound androidUri, l) →
    ∃ v, Entity.expand a.value = .ok v

theorem adds_addReference (tag l v : List Char) (r : References) :
    Adds r (addReference tag l v r)
      (fun n => IsClassAttribute tag l ∧ v ≠ [] ∧ n = String.ofList v)
      fun n => l = "onClick".toList ∧ v ≠ [] ∧ n = String.ofList v := by
  unfold addReference
  split
  · next hv =>
    have hv' : v = [] := List.isEmpty_iff.1 hv
    exact (Adds.refl r).congr (by simp [hv']) (by simp [hv'])
  · next hv =>
    have hv' : v ≠ [] := fun h => hv (by simp [h])
    split
    · next hclass =>
      have hclass : IsClassAttribute tag l := hclass
      exact (adds_addClass r v).congr (by simp [hv', hclass]) fun n =>
        iff_of_false id fun h => hclass.ne_onClick h.1
    · next hclass =>
      have hclass : ¬IsClassAttribute tag l := hclass
      split
      · next honClick =>
        exact (adds_addHandler r v).congr (by simp [hclass]) fun n => by
          rw [and_iff_right honClick, and_iff_right hv']
      · next honClick =>
        exact (Adds.refl r).congr (by simp [hclass]) fun n => iff_of_false id fun h => honClick h.1

theorem resolveAttribute_append {scope : Scope} {label uri : List Char}
    (hlabel : ∀ c ∈ label, c ≠ ':') (hne : label ≠ []) (huri : scope.lookup? label = some uri)
    (l : List Char) : scope.resolveAttribute (label ++ ':' :: l) = (.bound uri, l) := by
  have hsplit : splitName (label ++ ':' :: l) = (some label, l) := by
    rw [splitName, splitFirst_append (fun c hc => decide_eq_false (hlabel c hc)) (by decide)]
  rw [Scope.resolveAttribute, hsplit]
  simp [Scope.resolveLabel, hne, huri]

/-- The attributes of markup itself have no namespace or one of the two that are its own. -/
theorem reserved_not_android {scope : Scope} (hs : scope.Standard) {key : List Char}
    (hkey : isReserved key = true) (l : List Char) :
    scope.resolveAttribute key ≠ (.bound androidUri, l) := by
  simp only [isReserved, Bool.or_eq_true, decide_eq_true_eq, List.isPrefixOf_iff_prefix] at hkey
  rcases hkey with (rfl | ⟨t, rfl⟩) | ⟨t, rfl⟩
  · intro h
    cases h
  · have := resolveAttribute_append (forall_mem_of_all (by decide)) (by decide) hs.xmlns t
    rw [show "xmlns:".toList ++ t = xmlnsLabel ++ ':' :: t from rfl, this]
    exact fun h => absurd (Resolution.bound.inj (Prod.mk.inj h).1) (by decide)
  · have := resolveAttribute_append (forall_mem_of_all (by decide)) (by decide) hs.xml t
    rw [show "xml:".toList ++ t = xmlLabel ++ ':' :: t from rfl, this]
    exact fun h => absurd (Resolution.bound.inj (Prod.mk.inj h).1) (by decide)

theorem isAndroid_iff {scope : Scope} {a : Attribute} {l v l' v' : List Char}
    (h : IsAndroid scope a l v) : IsAndroid scope a l' v' ↔ l' = l ∧ v' = v := by
  simp [IsAndroid, h.1, h.2, eq_comm]

/-- A sound attribute is accepted, and adds what it refers to. -/
theorem addAttribute_of_sound {scope : Scope} (hs : scope.Standard) {a : Attribute}
    (ha : SoundAttribute scope a) (tag : List Char) (r : References) :
    ∃ r', addAttribute scope tag r a = .ok r' ∧
      Adds r r' (AttributeClass scope tag a) (AttributeHandler scope a) := by
  have none_of : (∀ l, scope.resolveAttribute a.key ≠ (.bound androidUri, l)) →
      Adds r r (AttributeClass scope tag a) (AttributeHandler scope a) := fun h =>
    (Adds.refl r).congr (fun n => iff_of_false id fun ⟨l, _, hl, _⟩ => h l hl.1)
      fun n => iff_of_false id fun ⟨_, hl, _⟩ => h _ hl.1
  unfold addAttribute
  split
  · next hkey => exact ⟨r, rfl, none_of (reserved_not_android hs hkey)⟩
  · next hkey =>
    have hbound := ha.bound (by simpa using hkey)
    split
    · next label _ h => exact absurd (congrArg Prod.fst h) (hbound label)
    · next h => exact ⟨r, rfl, none_of fun l => by rw [h]; simp⟩
    · next uri l h =>
      split
      · next huri =>
        subst huri
        obtain ⟨v, hv⟩ := ha.value l h
        refine ⟨addReference tag l v r, by rw [hv]; rfl, ?_⟩
        have hav : IsAndroid scope a l v := ⟨h, hv⟩
        refine (adds_addReference tag l v r).congr (fun n => ?_) fun n => ?_
        · simp [AttributeClass, isAndroid_iff hav]
        · simp only [AttributeHandler, isAndroid_iff hav]
          constructor
          · rintro ⟨rfl, hne, rfl⟩
            exact ⟨v, ⟨rfl, rfl⟩, hne, rfl⟩
          · rintro ⟨_, ⟨rfl, rfl⟩, hne, rfl⟩
            exact ⟨rfl, hne, rfl⟩
      · next huri =>
        refine ⟨r, rfl, none_of fun l' h' => huri ?_⟩
        rw [h] at h'
        exact Resolution.bound.inj (Prod.mk.inj h').1

theorem sound_of_addAttribute {scope : Scope} (hs : scope.Standard) {tag : List Char}
    {r r' : References} {a : Attribute} (h : addAttribute scope tag r a = .ok r') :
    SoundAttribute scope a := by
  unfold addAttribute at h
  split at h
  · next hkey =>
    exact ⟨fun hkey' => absurd hkey (by simp [hkey']), fun l hl =>
      absurd hl (reserved_not_android hs hkey l)⟩
  · split at h
    · cases h
    · next hr => exact ⟨fun _ label => by simp [hr], fun l hl => by simp [hr] at hl⟩
    · next uri l hr =>
      refine ⟨fun _ label => by simp [hr], fun l' hl => ?_⟩
      rw [hr] at hl
      rw [if_pos (Resolution.bound.inj (Prod.mk.inj hl).1)] at h
      obtain ⟨v, hv, -⟩ := bind_eq_ok_iff.1 h
      exact ⟨v, mapError_eq_ok_iff.1 hv⟩

theorem addAttributes_of_sound {scope : Scope} (hs : scope.Standard) {as : List Attribute}
    (has : ∀ a ∈ as, SoundAttribute scope a) (tag : List Char) (r : References) :
    ∃ r', addAttributes scope tag r (as.map .ok) = .ok r' ∧
      Adds r r' (fun n => ∃ a ∈ as, AttributeClass scope tag a n)
        fun n => ∃ a ∈ as, AttributeHandler scope a n := by
  induction as generalizing r with
  | nil => exact ⟨r, rfl, (Adds.refl r).congr (by simp) (by simp)⟩
  | cons a as ih =>
    rw [List.forall_mem_cons] at has
    obtain ⟨r₁, h₁, hadds₁⟩ := addAttribute_of_sound hs has.1 tag r
    obtain ⟨r₂, h₂, hadds₂⟩ := ih has.2 r₁
    refine ⟨r₂, ?_, (hadds₁.trans hadds₂).congr (by simp) (by simp)⟩
    rw [List.map_cons, addAttributes, h₁]
    exact h₂

theorem sound_of_addAttributes {scope : Scope} (hs : scope.Standard) {tag : List Char}
    {r r' : References} {xs : List (Except AttributeError Attribute)}
    (h : addAttributes scope tag r xs = .ok r') :
    ∃ as : List Attribute, xs = as.map .ok ∧ ∀ a ∈ as, SoundAttribute scope a := by
  induction xs generalizing r with
  | nil => exact ⟨[], rfl, by simp⟩
  | cons x xs ih =>
    cases x with
    | error e => cases h
    | ok a =>
      obtain ⟨r₁, h₁, h⟩ := bind_eq_ok_iff.1 h
      obtain ⟨as, rfl, has⟩ := ih h
      exact ⟨a :: as, rfl, List.forall_mem_cons.2 ⟨sound_of_addAttribute hs h₁, has⟩⟩

/-! ## Elements -/

/-- The well-formed attributes of an element. -/
def attributeList (e : Element) : List Attribute :=
  Attribute.scan (size e.name) (Element.attributeText e.content)

/-- The prefix of an element is bound, and its attributes are well formed, distinct and sound. -/
structure SoundElement (e : Element) : Prop where
  bound : ∀ label, (e.scope.resolveElement e.name).1 ≠ .unknown label
  wellFormed : ∀ r ∈ Attribute.readings (size e.name) (Element.attributeText e.content), r.IsFound
  distinct : ((attributeList e).map (·.key)).Nodup
  attributes : ∀ a ∈ attributeList e, SoundAttribute e.scope a

/-- The element refers to the class `n`: it is recorded under that name, unless it structures the
layout, or an attribute names the class. -/
def ElementClass (e : Element) (n : String) : Prop :=
  ∃ tag, elementTag e = .ok tag ∧
    (tag ∉ structuralTags ∧ n = String.ofList tag ∨
      ∃ a ∈ attributeList e, AttributeClass e.scope tag a n)

/-- The element refers to the handler `n`. -/
def ElementHandler (e : Element) (n : String) : Prop :=
  ∃ a ∈ attributeList e, AttributeHandler e.scope a n

theorem exists_elementTag_iff {e : Element} :
    (∃ tag, elementTag e = .ok tag) ↔
      ∀ label, (e.scope.resolveElement e.name).1 ≠ .unknown label := by
  unfold elementTag
  split
  · next h => simp [h]
  · next h => simp [h]
  · next label _ h => simp [h]

theorem attributes_eq_map_ok_iff {e : Element} {as : List Attribute} :
    e.attributes = as.map .ok ↔
      (∀ r ∈ Attribute.readings (size e.name) (Element.attributeText e.content), r.IsFound) ∧
        attributeList e = as ∧ (as.map (·.key)).Nodup :=
  Attribute.distinct_eq_map_ok_iff

theorem addElement_of_sound {e : Element} (hs : e.scope.Standard) (he : SoundElement e)
    (r : References) :
    ∃ r', addElement r e = .ok r' ∧ Adds r r' (ElementClass e) (ElementHandler e) := by
  obtain ⟨tag, htag⟩ := exists_elementTag_iff.2 he.bound
  have hattributes : e.attributes = (attributeList e).map .ok :=
    attributes_eq_map_ok_iff.2 ⟨he.wellFormed, rfl, he.distinct⟩
  have hroot : Adds r (if tag ∈ structuralTags then r else r.addClass tag)
      (fun n => tag ∉ structuralTags ∧ n = String.ofList tag) fun _ => False := by
    split
    · next h => exact (Adds.refl r).congr (by simp [h]) (by simp)
    · next h => exact (adds_addClass r tag).congr (by simp [h]) (by simp)
  obtain ⟨r', h', hadds⟩ := addAttributes_of_sound hs he.attributes tag
    (if tag ∈ structuralTags then r else r.addClass tag)
  refine ⟨r', ?_, (hroot.trans hadds).congr (fun n => ?_) fun n => ?_⟩
  · rw [addElement, htag, hattributes]
    exact h'
  · simp [ElementClass, htag]
  · simp [ElementHandler]

theorem sound_of_addElement {e : Element} (hs : e.scope.Standard) {r r' : References}
    (h : addElement r e = .ok r') : SoundElement e := by
  obtain ⟨tag, htag, h⟩ := bind_eq_ok_iff.1 h
  obtain ⟨as, has, hsound⟩ := sound_of_addAttributes hs h
  obtain ⟨hfound, rfl, hnodup⟩ := attributes_eq_map_ok_iff.1 has
  exact ⟨exists_elementTag_iff.1 ⟨tag, htag⟩, hfound, hnodup, hsound⟩

/-- **An element is accepted exactly if it is sound, and then it adds its own references.** -/
theorem addElement_eq_ok_iff {e : Element} (hs : e.scope.Standard) {r r' : References} :
    addElement r e = .ok r' ↔
      SoundElement e ∧ Adds r r' (ElementClass e) (ElementHandler e) := by
  constructor
  · intro h
    have he := sound_of_addElement hs h
    obtain ⟨r₁, h₁, hadds⟩ := addElement_of_sound hs he r
    rw [h] at h₁
    cases h₁
    exact ⟨he, hadds⟩
  · rintro ⟨he, hadds⟩
    obtain ⟨r₁, h₁, hadds₁⟩ := addElement_of_sound hs he r
    rw [h₁, hadds.unique hadds₁]

end LayoutShell.Layout
