import LayoutShell.Markup.Scope
import LayoutShell.Proofs.Results

/-!
# What stays bound

The prefixes `xml` and `xmlns` keep their namespaces in every scope of a document.

* `declareOne_cases` says what an attribute can do to a scope.
* `Standard.declare` says that the attributes of a tag leave the two prefixes alone.
-/

namespace LayoutShell.Markup.Scope

theorem lookup?_cons (b : Binding) (scope : Scope) (label : List Char) :
    lookup? (b :: scope) label =
      if b.label = label then if b.uri.isEmpty then none else some b.uri
      else lookup? scope label := by
  by_cases h : b.label = label <;> simp [lookup?, h]

/-- An attribute leaves a scope as it is or binds a prefix other than `xml` and `xmlns`. -/
theorem declareOne_cases {scope scope' : Scope} {a : Attribute}
    (h : declareOne scope a = .ok scope') :
    scope' = scope ∨
      ∃ label, label ≠ xmlLabel ∧ label ≠ xmlnsLabel ∧ scope' = ⟨label, a.value⟩ :: scope := by
  unfold declareOne at h
  split at h
  · cases h
    exact .inl rfl
  · cases h
    exact .inr ⟨[], by decide, by decide, rfl⟩
  · next label _ =>
    split at h
    · split at h <;> cases h
      exact .inl rfl
    · next hxml =>
      split at h
      · cases h
      · next hxmlns =>
        cases h
        exact .inr ⟨label, hxml, fun he => hxmlns (.inl he), rfl⟩

/-- The prefixes `xml` and `xmlns` have their own namespaces. -/
structure Standard (scope : Scope) : Prop where
  xml : scope.lookup? xmlLabel = some xmlUri
  xmlns : scope.lookup? xmlnsLabel = some xmlnsUri

theorem standard_initial : Standard initial := ⟨by decide, by decide⟩

namespace Standard

theorem declareOne {scope scope' : Scope} (hs : Standard scope) {a : Attribute}
    (h : scope.declareOne a = .ok scope') : Standard scope' := by
  obtain rfl | ⟨label, hxml, hxmlns, rfl⟩ := declareOne_cases h
  · exact hs
  · exact ⟨by rw [lookup?_cons, if_neg hxml, hs.xml], by rw [lookup?_cons, if_neg hxmlns, hs.xmlns]⟩

theorem declare {scope scope' : Scope} (hs : Standard scope) {as : List Attribute}
    (h : scope.declare as = .ok scope') : Standard scope' := by
  induction as generalizing scope with
  | nil => cases h; exact hs
  | cons a as ih =>
    obtain ⟨middle, hm, h⟩ := bind_eq_ok_iff.1 h
    exact ih (hs.declareOne hm) h

end Standard

end LayoutShell.Markup.Scope
