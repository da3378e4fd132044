import LayoutShell.Proofs.Bytes.Layouts

/-!
# Exact decoding

What a layout refers to is read from bytes and decoded piece by piece, with U+FFFD for bytes that
are no text. In a layout that is a text this never happens: no piece is cut through a character.

* `IsTagOf.supplied`, `IsValueOf.supplied`: a character of a name stands in the document or is
  referred to there, unless it is one of the first 256.
* `lossy_decoding_exact`: every piece is UTF-8 and stands in the document, or is a namespace that is
  bound in every document. So the names are parts of the document, and U+FFFD comes from there.
* `recorded_beyond_document`: a namespace bound in every document is recorded without standing in
  this one, and a reference is recorded as its character.
-/

namespace LayoutShell.Layout

open Markup Text

variable {document name : List Char}

/-- A namespace that is bound in every document is ASCII. -/
theorem mem_of_standsIn {s : List Char} (h : StandsIn document s) {c : Char} (hc : c ∈ s) :
    c.toNat < 256 ∨ c ∈ document := by
  rcases h with h | h
  · exact .inr (h.subset hc)
  · have hascii : ∀ uri ∈ [xmlUri, xmlnsUri], ∀ c ∈ uri, c.toNat < 256 :=
      List.forall_mem_cons.2 ⟨forall_mem_of_all (by decide),
        List.forall_mem_singleton.2 (forall_mem_of_all (by decide))⟩
    exact .inl (hascii s h c hc)

/-- The characters of an element's name stand in the document, beyond the first 256. -/
theorem IsTagOf.supplied (h : IsTagOf document name) {c : Char} (hc : c ∈ name) :
    c.toNat < 256 ∨ c ∈ document := by
  obtain ⟨uri, l, rfl, hl, huri⟩ := h
  cases uri with
  | none => exact .inr (hl.subset hc)
  | some uri =>
    simp only [qualified, List.cons_append, List.mem_cons, List.mem_append] at hc
    rcases hc with rfl | hc | rfl | hc
    · exact .inl (by decide)
    · exact mem_of_standsIn (huri uri rfl) hc
    · exact .inl (by decide)
    · exact .inr (hl.subset hc)

/-- The characters of a value stand in the document or are referred to there, beyond the first
256. -/
theorem IsValueOf.supplied (h : IsValueOf document name) {c : Char} (hc : c ∈ name) :
    c.toNat < 256 ∨ Entity.Supplies document c := by
  obtain ⟨raw, hraw, hexpand⟩ := h
  have hdelivers := Entity.expand_delivers raw
  rw [hexpand] at hdelivers
  rcases hdelivers c hc with hnamed | hsupplied
  · exact .inl (forall_mem_of_all (p := fun c => c.toNat < 256) (by decide) c hnamed)
  · exact .inr (hsupplied.mono hraw)

theorem References.Within.supplied {r : References} (h : r.Within document) {n : String}
    (hn : n ∈ r.classes ∨ n ∈ r.handlers) {c : Char} (hc : c ∈ n.toList) :
    c.toNat < 256 ∨ Entity.Supplies document c := by
  rcases hn with hn | hn
  · rcases h.classes n hn with htag | hvalue
    · exact (htag.supplied hc).imp_right .inl
    · exact hvalue.supplied hc
  · exact (h.handlers n hn).supplied hc

/-- **Decoding with replacements loses nothing.** Reading the bytes of a text gives what reading the
text gives. Every slice that is decoded is UTF-8, and its text stands in the document or is a
namespace bound in every document. So names are parts of the document, values are parts of it with
their references replaced, and the replacement character stands in a result only if it stands in the
document or is referred to there. -/
theorem lossy_decoding_exact (document : List Char) :
    (Bytes.parse (encode document)).1 = (References.parse document).mapError LayoutError.report ∧
    (∀ piece ∈ (Bytes.parse (encode document)).2, ∃ s, decode piece.slice = some s ∧
      decodeLossy piece.slice = s ∧ piece.part.StandsIn document s) ∧
    (∀ r, References.parse document = .ok r → r.Within document ∧
      ∀ n, n ∈ r.classes ∨ n ∈ r.handlers →
        '\uFFFD' ∈ n.toList → Entity.Supplies document '\uFFFD') ∧
    ∀ e, References.parse document = .error e →
      (∀ label, e = .unboundLabel label → label <:+: document) ∧
      ('\uFFFD' ∈ e.message.toList → '\uFFFD' ∈ document) := by
  obtain ⟨hresult, hpieces⟩ := Bytes.parse_encode document
  have hdelivers := References.parse_delivers document
  have hlarge : ¬ '\uFFFD'.toNat < 256 := by decide
  refine ⟨hresult, fun piece hpiece => ?_, fun r hr => ?_, fun e he => ?_⟩
  · obtain ⟨s, hslice, hstands⟩ := hpieces piece hpiece
    exact ⟨s, by rw [hslice, decode_encode], by rw [hslice, decodeLossy_encode], hstands⟩
  · rw [hr] at hdelivers
    exact ⟨hdelivers, fun n hn hc => (hdelivers.supplied hn hc).resolve_left hlarge⟩
  · rw [he] at hdelivers
    refine ⟨fun label hlabel => ?_, fun hc => ?_⟩
    · rw [hlabel] at hdelivers
      exact hdelivers
    · exact (hdelivers.composed _ hc).resolve_left hlarge

/-! ## Names beyond the document -/

/-- A layout whose class is written by its number. -/
def numberedClass : List Char :=
  ("<view xmlns:android=\"http://schemas.android.com/apk/res/android\" " ++
    "android:class=\"&#65;\"/>").toList

/-- The namespace of the prefix `xml` is recorded, but need not stand in the document, and nor need
a character that is referred to. -/
theorem recorded_beyond_document :
    References.parse "<xml:Deck/>".toList =
      .ok ⟨NameSet.ofList ["\x7bhttp://www.w3.org/XML/1998/namespace\x7dDeck"], ∅⟩ ∧
    ¬xmlUri <:+: "<xml:Deck/>".toList ∧
    References.parse numberedClass = .ok ⟨NameSet.ofList ["A"], ∅⟩ ∧
    ¬"A".toList <:+: numberedClass := by
  decide +kernel

end LayoutShell.Layout
