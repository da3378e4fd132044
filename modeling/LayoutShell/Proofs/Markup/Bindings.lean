import LayoutShell.Proofs.Markup.Scopes
import LayoutShell.Proofs.Markup.Tree

/-!
# The namespaces of a tree

The scopes of a reader are lists that grow with every declaration. On a tree the same is said by a
function from prefixes to namespaces.

* `Bindings.enter` is what the items of a tag do to the bindings around it.
* `Agrees` relates a scope to bindings, and `Agrees.declare` keeps it true from tag to tag.
* `Agrees.resolveElement` and `Agrees.resolveAttribute` give the namespaces of names.
-/

namespace LayoutShell.Markup

open Text

/-! ## Bindings -/

/-- The namespace of each prefix, empty if it has none. The empty prefix stands for names without
one. -/
abbrev Bindings := List Char → List Char

/-- The prefix that an item declares: the key `xmlns` is for names without prefix. -/
def Item.declared? (i : Item) : Option (List Char) :=
  match i.name.label with
  | none => if i.name.localPart.chars = xmlnsLabel then some [] else none
  | some label => if label.chars = xmlnsLabel then some i.name.localPart.chars else none

namespace Bindings

/-- The bindings outside of all elements. -/
def initial : Bindings := fun label =>
  if label = xmlLabel then xmlUri else if label = xmlnsLabel then xmlnsUri else []

/-- The bindings after an item. -/
def add (b : Bindings) (i : Item) : Bindings := fun label =>
  if i.declared? = some label then i.raw else b label

/-- The bindings inside a tag. -/
def enter (b : Bindings) (items : List Item) : Bindings := items.foldl add b

end Bindings

/-- A namespace declaration. -/
def Item.declaration (label : Option NamePart) (uri : List Char)
    (closed : '"' ∉ uri := by decide) : Item :=
  match label with
  | none => ⟨⟨none, { chars := xmlnsLabel }⟩, uri, closed⟩
  | some label => ⟨⟨some { chars := xmlnsLabel }, label⟩, uri, closed⟩

/-- An attribute, whose value is escaped. -/
def Item.ofValue (name : Name) (value : List Char) : Item :=
  ⟨name, Entity.escape value, Entity.not_mem_escape (by decide) value⟩

/-! ## Scopes -/

/-- A name begins with a word and a colon exactly if that word is its prefix. -/
theorem Name.isPrefixOf_chars {w : List Char} (hw : ∀ c ∈ w, c ≠ ':') (n : Name) :
    (w ++ [':']).isPrefixOf n.chars = true ↔ n.label.map NamePart.chars = some w := by
  rw [List.isPrefixOf_iff_prefix]
  constructor
  · rintro ⟨t, ht⟩
    have hsplit := n.splitName_chars
    rw [← ht, List.append_assoc, List.singleton_append, splitName,
      splitFirst_append (fun c hc => decide_eq_false (hw c hc)) (by decide)] at hsplit
    exact (Prod.mk.inj hsplit).1.symm
  · intro h
    obtain ⟨label, hlabel, rfl⟩ := Option.map_eq_some_iff.1 h
    exact ⟨n.localPart.chars, by simp [chars, hlabel]⟩

theorem Name.chars_eq_iff {w : List Char} (hw : ∀ c ∈ w, c ≠ ':') (n : Name) :
    n.chars = w ↔ n.label = none ∧ n.localPart.chars = w := by
  cases hlabel : n.label with
  | none => simp [chars, hlabel]
  | some label =>
    refine iff_of_false (fun h => ?_) (by simp)
    rw [chars, hlabel] at h
    exact hw ':' (h ▸ by simp) rfl

/-- The declaration that the reader sees in an item. -/
theorem Scope.declared?_chars (i : Item) :
    Scope.declared? i.name.chars =
      i.declared?.map fun label => if label = [] then none else some label := by
  have hkey := i.name.chars_eq_iff (w := xmlnsLabel) (forall_mem_of_all (by decide))
  have hlabel := i.name.isPrefixOf_chars (w := xmlnsLabel) (forall_mem_of_all (by decide))
  rw [show xmlnsLabel ++ [':'] = "xmlns:".toList from rfl] at hlabel
  unfold Scope.declared? Item.declared?
  cases hl : i.name.label with
  | none =>
    rw [hl] at hkey hlabel
    have hno : ¬"xmlns:".toList.isPrefixOf i.name.chars = true := fun h => by
      cases hlabel.1 h
    by_cases h : i.name.localPart.chars = xmlnsLabel
    · rw [if_pos (hkey.2 ⟨rfl, h⟩), if_pos h]
      rfl
    · rw [if_neg fun hk => h (hkey.1 hk).2, if_neg hno, if_neg h]
      rfl
  | some label =>
    rw [hl] at hkey hlabel
    rw [if_neg fun hk => by cases (hkey.1 hk).1]
    by_cases h : label.chars = xmlnsLabel
    · have hdrop : i.name.chars.drop 6 = i.name.localPart.chars := by
        rw [Name.chars_of_some hl, h]
        rfl
      dsimp only
      rw [if_pos (hlabel.2 (congrArg some h)), if_pos h, hdrop, Option.map_some,
        if_neg i.name.localPart.ne_nil]
    · dsimp only
      rw [if_neg fun hp => h (Option.some.inj (hlabel.1 hp)), if_neg h]
      rfl

/-- The scope and the bindings say the same about every prefix. -/
def Agrees (scope : Scope) (b : Bindings) : Prop :=
  ∀ label, scope.lookup? label = if b label = [] then none else some (b label)

/-- A declaration that is allowed: the prefixes `xml` and `xmlns` and their namespaces are not
declared. -/
structure Item.Declares (i : Item) (label : List Char) : Prop where
  declared : i.declared? = some label
  label_ne : label ≠ xmlLabel ∧ label ≠ xmlnsLabel
  uri_ne : i.raw ≠ xmlUri ∧ i.raw ≠ xmlnsUri

/-- What the reader asks of an item that declares a prefix: `xml` keeps its namespace, `xmlns`
cannot be bound, and no other prefix shares a namespace with them. -/
def Item.Allowed (i : Item) : Prop :=
  ∀ label ∈ i.declared?, label ≠ [] →
    if label = xmlLabel then i.raw = xmlUri
    else label ≠ xmlnsLabel ∧ i.raw ≠ xmlUri ∧ i.raw ≠ xmlnsUri

instance (i : Item) : Decidable i.Allowed :=
  inferInstanceAs (Decidable (∀ label ∈ i.declared?, _))

theorem Item.allowed_of_declares {i : Item}
    (hi : i.declared? = none ∨ ∃ label, i.Declares label) : i.Allowed := by
  intro label hlabel _
  rcases hi with hi | ⟨l, hi⟩
  · rw [hi] at hlabel
    cases hlabel
  · obtain rfl : l = label := Option.some.inj (hi.declared.symm.trans hlabel)
    rw [if_neg hi.label_ne.1]
    exact ⟨hi.label_ne.2, hi.uri_ne⟩

/-- The reader refuses an item that is not allowed. -/
theorem Scope.declareOne_of_not_allowed (scope : Scope) {i : Item} (hi : ¬i.Allowed)
    {a : Attribute} (hkey : a.key = i.name.chars) (hvalue : a.value = i.raw) :
    ∃ e, scope.declareOne a = .error e := by
  simp only [Item.Allowed, not_forall] at hi
  obtain ⟨label, hlabel, hne, hi⟩ := hi
  rw [declareOne, hkey, declared?_chars, Option.mem_def.1 hlabel, hvalue]
  simp only [Option.map_some, if_neg hne]
  by_cases hxml : label = xmlLabel
  · rw [if_pos hxml] at hi ⊢
    exact ⟨_, if_neg hi⟩
  · rw [if_neg hxml] at hi ⊢
    refine ⟨_, if_pos ?_⟩
    by_contra h
    simp only [not_or] at h
    exact hi h

/-- The reader refuses a tag with an item that is not allowed. -/
theorem Scope.declare_of_not_allowed (scope : Scope) (place : Nat) {items : List Item}
    (hitems : ¬∀ i ∈ items, i.Allowed) :
    ∃ e, scope.declare (Attribute.ofItems place items) = .error e := by
  induction items generalizing scope place with
  | nil => exact absurd (by simp) hitems
  | cons i items ih =>
    rw [Attribute.ofItems, declare, List.foldlM_cons]
    cases hmiddle : scope.declareOne (Attribute.ofItem place i) with
    | error e => exact ⟨e, rfl⟩
    | ok middle =>
      have hi : i.Allowed := by
        by_contra hi
        obtain ⟨e, he⟩ := scope.declareOne_of_not_allowed hi (a := Attribute.ofItem place i) rfl rfl
        rw [hmiddle] at he
        cases he
      exact ih middle (place + size i.render) fun h => hitems (List.forall_mem_cons.2 ⟨hi, h⟩)

namespace Agrees

theorem initial : Agrees Scope.initial Bindings.initial := by
  intro label
  by_cases h₁ : label = xmlLabel
  · subst h₁
    decide
  · by_cases h₂ : label = xmlnsLabel
    · subst h₂
      decide
    · rw [Scope.initial, Scope.lookup?_cons, Scope.lookup?_cons, if_neg (Ne.symm h₁),
        if_neg (Ne.symm h₂), Bindings.initial, if_neg h₁, if_neg h₂]
      rfl

/-- One item of a tag. -/
theorem declareOne {scope : Scope} {b : Bindings} (h : Agrees scope b) (hs : scope.Standard)
    {i : Item} (hi : i.Allowed) {a : Attribute} (hkey : a.key = i.name.chars)
    (hvalue : a.value = i.raw) :
    ∃ scope', scope.declareOne a = .ok scope' ∧ Agrees scope' (b.add i) := by
  rw [Scope.declareOne, hkey, Scope.declared?_chars, hvalue]
  cases hlabel : i.declared? with
  | none =>
    refine ⟨scope, rfl, fun l => ?_⟩
    rw [h, Bindings.add, hlabel]
    rfl
  | some label =>
    have hadd : Agrees (⟨label, i.raw⟩ :: scope) (b.add i) := fun l => by
      rw [Scope.lookup?_cons, Bindings.add, hlabel]
      by_cases hl : label = l
      · simp [hl]
      · simp [hl, h l]
    by_cases hne : label = []
    · exact ⟨_, by simp [hne], hne ▸ hadd⟩
    · have hi := hi label hlabel hne
      simp only [Option.map_some, if_neg hne]
      by_cases hxml : label = xmlLabel
      · -- the prefix keeps its namespace
        rw [if_pos hxml] at hi ⊢
        refine ⟨scope, if_pos hi, fun l => ?_⟩
        rw [Bindings.add, hlabel, hi]
        by_cases hl : label = l
        · rw [← hl, hxml, hs.xml, if_pos rfl, if_neg (by decide)]
        · simp [hl, h l]
      · rw [if_neg hxml] at hi ⊢
        exact ⟨_, if_neg (by simp [hi]), hadd⟩

/-- All items of a tag. -/
theorem declare {scope : Scope} {b : Bindings} (h : Agrees scope b) (hs : scope.Standard)
    (place : Nat) {items : List Item} (hitems : ∀ i ∈ items, i.Allowed) :
    ∃ scope', scope.declare (Attribute.ofItems place items) = .ok scope' ∧
      Agrees scope' (b.enter items) := by
  induction items generalizing scope b place with
  | nil => exact ⟨scope, rfl, h⟩
  | cons i items ih =>
    rw [List.forall_mem_cons] at hitems
    obtain ⟨middle, hmiddle, h⟩ :=
      h.declareOne hs hitems.1 (a := Attribute.ofItem place i) rfl rfl
    obtain ⟨scope', hscope', h⟩ := ih h (hs.declareOne hmiddle) (place + size i.render) hitems.2
    refine ⟨scope', ?_, h⟩
    rw [Attribute.ofItems, Scope.declare, List.foldlM_cons, hmiddle]
    exact hscope'

variable {scope : Scope} {b : Bindings}

theorem resolveLabel (h : Agrees scope b) {label : List Char} (hlabel : label ≠ [])
    (hb : b label ≠ []) : scope.resolveLabel label = .bound (b label) := by
  rw [Scope.resolveLabel, if_neg (by simpa using hlabel), h, if_neg hb]

theorem resolveAttribute_of_some (h : Agrees scope b) {n : Name} {label : NamePart}
    (hn : n.label = some label) (hb : b label.chars ≠ []) :
    scope.resolveAttribute n.chars = (.bound (b label.chars), n.localPart.chars) := by
  rw [Scope.resolveAttribute, n.splitName_chars, hn, Option.map_some]
  exact congrArg (·, _) (h.resolveLabel label.ne_nil hb)

theorem resolveLabel_of_unbound (h : Agrees scope b) {label : NamePart}
    (hb : b label.chars = []) : scope.resolveLabel label.chars = .unknown label.chars := by
  rw [Scope.resolveLabel, if_neg (by simpa using label.ne_nil), h, if_pos hb]

theorem resolveAttribute_of_unbound (h : Agrees scope b) {n : Name} {label : NamePart}
    (hn : n.label = some label) (hb : b label.chars = []) :
    scope.resolveAttribute n.chars = (.unknown label.chars, n.localPart.chars) := by
  rw [Scope.resolveAttribute, n.splitName_chars, hn, Option.map_some]
  exact congrArg (·, _) (h.resolveLabel_of_unbound hb)

theorem resolveElement_of_unbound (h : Agrees scope b) {n : Name} {label : NamePart}
    (hn : n.label = some label) (hb : b label.chars = []) :
    scope.resolveElement n.chars = (.unknown label.chars, n.localPart.chars) := by
  rw [Scope.resolveElement, n.splitName_chars, hn, Option.map_some]
  exact congrArg (·, _) (h.resolveLabel_of_unbound hb)

theorem resolveElement_of_some (h : Agrees scope b) {n : Name} {label : NamePart}
    (hn : n.label = some label) (hb : b label.chars ≠ []) :
    scope.resolveElement n.chars = (.bound (b label.chars), n.localPart.chars) := by
  rw [Scope.resolveElement, n.splitName_chars, hn, Option.map_some]
  exact congrArg (·, _) (h.resolveLabel label.ne_nil hb)

theorem resolveElement_of_none (h : Agrees scope b) {n : Name} (hn : n.label = none) :
    scope.resolveElement n.chars =
      (if b [] = [] then .unbound else .bound (b []), n.localPart.chars) := by
  rw [Scope.resolveElement, n.splitName_chars, hn, Option.map_none]
  dsimp only
  rw [h []]
  by_cases hb : b [] = [] <;> simp [hb]

end Agrees

theorem resolveAttribute_of_none (scope : Scope) {n : Name} (hn : n.label = none) :
    scope.resolveAttribute n.chars = (.unbound, n.localPart.chars) := by
  rw [Scope.resolveAttribute, n.splitName_chars, hn, Option.map_none]

end LayoutShell.Markup
