import LayoutShell.Proofs.Layout.Documents
import LayoutShell.Proofs.Layout.Rendering
import LayoutShell.Proofs.Markup.Bindings
import LayoutShell.Proofs.Markup.Truncation

/-!
# Layout documents that are cut short

A written document that is cut anywhere has elements that are still open, or it breaks off in an
item or in an end tag and cannot be read. The last bracket alone is not needed.

* `lt_depth_of_cutTag`: a tag that is cut short opens an element or cannot be read.
* `StaysOpen` and `staysOpen_children`: inside an element, a cut closes nothing that is open around
  it.
* `parse_of_append_render`: no beginning of a written document is a layout, the one without the last
  bracket apart.
-/

namespace LayoutShell.Layout

open Markup Text

namespace Progress

variable {p q : Progress} {reader : Reader} {s : List Char}

/-! ## The last lexeme -/

theorem resume_of_done (h : Lexeme.read s = .done) : p.resume reader s = .ok p := by
  rw [resume, Lexeme.scan_of_done h]
  rfl

theorem resume_nil (p : Progress) (reader : Reader) : p.resume reader [] = .ok p :=
  resume_of_done rfl

/-- A bracket with nothing behind it is not read. -/
theorem eq_of_cutBracket (hs : s = [] ∨ s = ['<']) (hq : p.resume reader s = .ok q) : q = p := by
  rw [resume_of_done (by rcases hs with rfl | rfl <;> rfl)] at hq
  exact (Except.ok.inj hq).symm

theorem exists_step_of_resume {l : Lexeme} (h : Lexeme.read s = .found l [])
    (hq : p.resume reader s = .ok q) :
    ∃ event reader', reader.step l = .ok (event, reader') ∧ p.step event = .ok q := by
  cases hs : reader.step l with
  | error e =>
    rw [resume_of_error h hs] at hq
    cases hq
  | ok x =>
    obtain ⟨event, reader'⟩ := x
    rw [resume_of_step h hs] at hq
    obtain ⟨q', hq', hq⟩ := bind_eq_ok_iff.1 hq
    rw [resume_nil] at hq
    cases hq
    exact ⟨event, reader', rfl, hq'⟩

theorem depth_of_startTag {content : List Char}
    (h : Lexeme.read s = .found (.startTag content) []) (hq : p.resume reader s = .ok q) :
    q.depth = p.depth + 1 := by
  obtain ⟨event, reader', hstep, hq⟩ := exists_step_of_resume h hq
  obtain ⟨e, -, hstep⟩ := bind_eq_ok_iff.1 hstep
  cases hstep
  obtain ⟨q', hq', hq⟩ := bind_eq_ok_iff.1 hq
  cases hq
  obtain ⟨r, -, rfl⟩ := exists_addElement_of_visit hq'
  rfl

theorem exists_addElement_of_emptyTag {content : List Char}
    (h : Lexeme.read s = .found (.emptyTag content) []) (hq : p.resume reader s = .ok q) :
    ∃ e r, e.content = content ∧ addElement p.found e = .ok r := by
  obtain ⟨event, reader', hstep, hq⟩ := exists_step_of_resume h hq
  obtain ⟨e, he, hstep⟩ := bind_eq_ok_iff.1 hstep
  cases hstep
  obtain ⟨r, hr, -⟩ := exists_addElement_of_visit hq
  exact ⟨e, r, (Reader.element_eq_ok (mapError_eq_ok_iff.1 he)).1, hr⟩

/-- Characters between tags change nothing. -/
theorem eq_of_cutText (hs : '<' ∉ s) (hq : p.resume reader s = .ok q) : q = p := by
  rcases read_cutText hs with h | ⟨t, h⟩
  · rw [resume_of_done h] at hq
    exact (Except.ok.inj hq).symm
  · obtain ⟨event, reader', hstep, hq⟩ := exists_step_of_resume h hq
    cases hstep
    exact (step_text_eq_ok_iff.1 hq).2.2.symm

end Progress

open Progress

variable {p q : Progress} {reader : Reader} {s t : List Char}

/-! ## Tags -/

theorem exists_map_ok_of_addAttributes {scope : Scope} {tag : List Char} {r r' : References}
    {xs : List (Except AttributeError Attribute)} (h : addAttributes scope tag r xs = .ok r') :
    ∃ as : List Attribute, xs = as.map .ok := by
  induction xs generalizing r with
  | nil => exact ⟨[], rfl⟩
  | cons x xs ih =>
    cases x with
    | error e => cases h
    | ok a =>
      obtain ⟨r₁, -, h⟩ := bind_eq_ok_iff.1 h
      obtain ⟨as, rfl⟩ := ih h
      exact ⟨a :: as, rfl⟩

/-- If an element is accepted, all its items are well formed. -/
theorem isFound_of_addElement {e : Element} {r r' : References} (h : addElement r e = .ok r') :
    ∀ x ∈ Attribute.readings (size e.name) (Element.attributeText e.content), x.IsFound := by
  obtain ⟨tag, -, h⟩ := bind_eq_ok_iff.1 h
  obtain ⟨as, has⟩ := exists_map_ok_of_addAttributes h
  exact (attributes_eq_map_ok_iff.1 has).1

/-- A tag that is cut short opens an element, if it can be read at all. -/
theorem lt_depth_of_cutTag {tag : Name} {items : List Item} (hs : s ++ t = tagText tag items)
    (hne : s ≠ []) (hq : p.resume reader ('<' :: s) = .ok q) : p.depth < q.depth := by
  rcases read_cutTag hs hne with h | ⟨content, rfl, h⟩
  · rw [depth_of_startTag h hq]
    exact Nat.lt_succ_self _
  · -- the cut falls behind a slash, so in the value of an item
    obtain ⟨e, r, rfl, hr⟩ := exists_addElement_of_emptyTag h hq
    rw [List.append_assoc, List.singleton_append] at hs
    obtain ⟨x, hx, hfound⟩ := exists_not_isFound_of_slash hs (size e.name)
    exact absurd (isFound_of_addElement hr x hx) hfound

/-- The end tag of an element that is cut in its name does not close it. -/
theorem not_resume_cutEndTag {tag : Name} {scope : Scope} (hs : s ++ t = tag.chars) (ht : t ≠ []) :
    p.resume (⟨tag.chars, scope⟩ :: reader) ('<' :: '/' :: s) ≠ .ok q := by
  intro hq
  have hmem : ∀ c ∈ s, c ∈ tag.chars := fun c hc => hs ▸ List.mem_append_left t hc
  have hbracket : '>' ∉ s := fun h => (tag.ne_quote_of_mem (hmem _ h)).1 rfl
  have hname : Reader.endName s = s := by
    rw [Reader.endName, dropRightWhile_of_not fun c hc => Name.not_space_of_mem (hmem c hc),
      ite_self]
  have hne : Reader.endName s ≠ tag.chars := by
    rw [hname, ← hs]
    exact fun h => ht (List.self_eq_append_right.1 h)
  obtain ⟨event, reader', hstep, -⟩ := exists_step_of_resume (read_cutEndTag hbracket) hq
  rw [Reader.step] at hstep
  simp only [if_neg hne] at hstep
  cases hstep

/-! ## Elements -/

/-- Inside an element, a beginning of the text does not close that element. -/
def StaysOpen (text : List Char) : Prop :=
  ∀ {depth r reader s t q}, s ++ t = text →
    (Progress.mk (depth + 1) true r).resume reader s = .ok q → depth < q.depth

theorem append_ne_singleton {c : Char} (ht : t ≠ []) (ht' : t ≠ [c]) : s ++ t ≠ [c] := by
  intro h
  rcases List.append_eq_singleton_iff.1 h with ⟨-, h⟩ | ⟨-, h⟩
  · exact ht' h
  · exact ht h

section

variable {tag : Name} {items : List Item} {short : Bool} {children : List Node}

/-- The last bracket of an element may be missing at the end of a document. -/
theorem resume_cutBracket (hs : s ++ ['>'] = (Node.element tag items short children).render) :
    p.resume reader s = p.resume reader (Node.element tag items short children).render := by
  rw [Node.render] at hs ⊢
  split
  · next h =>
    rw [if_pos h, ← List.singleton_append (l := ['>']), ← List.append_assoc] at hs
    rw [List.append_cancel_right hs]
    exact resume_congr ((read_cutEmptyTag tag items).trans (read_emptyTag tag items []).symm)
  · next h =>
    rw [if_neg h, ← List.cons_append, ← List.append_assoc] at hs
    rw [List.append_cancel_right hs, resume_startTag, resume_startTag]
    refine bind_congr fun e => ?_
    cases hp' : p.visit e with
    | error f => rfl
    | ok p' =>
      obtain ⟨r, -, rfl⟩ := exists_addElement_of_visit hp'
      have hread : Lexeme.read ('<' :: '/' :: tag.chars) =
          Lexeme.read ('<' :: '/' :: tag.chars ++ ['>']) :=
        (read_cutEndTag fun h => (tag.ne_quote_of_mem h).1 rfl).trans (read_endTag tag []).symm
      show (Progress.mk (p.depth + 1) true r).resume _ _ =
        (Progress.mk (p.depth + 1) true r).resume _ _
      have hchildren := resume_children children [] p.depth r (⟨tag.chars, e.scope⟩ :: reader)
      rw [List.append_assoc (Node.renderAll children)]
      refine (hchildren ('/' :: tag.chars)).trans
        (Eq.trans ?_ (hchildren ('/' :: tag.chars ++ ['>'])).symm)
      exact bind_congr fun r => resume_congr hread

/-- Inside an element, a cut before the last bracket of its end tag leaves it open. -/
theorem lt_depth_of_inside {scope : Scope} {depth : Nat} {r : References}
    (hcut : StaysOpen (Node.renderAll children))
    (hs : s ++ t = Node.renderAll children ++ '<' :: '/' :: tag.chars ++ ['>'])
    (ht : t ≠ []) (ht' : t ≠ ['>'])
    (hq : (Progress.mk (depth + 1) true r).resume (⟨tag.chars, scope⟩ :: reader) s = .ok q) :
    depth < q.depth := by
  rw [List.append_assoc, List.append_eq_append_iff] at hs
  rcases hs with ⟨a, ha, -⟩ | ⟨u, rfl, hu⟩
  · exact hcut ha.symm hq
  · rcases List.append_eq_cons_iff.1 hu.symm with ⟨rfl, -⟩ | ⟨v, rfl, hv⟩
    · exact hcut (by rw [List.append_nil, List.append_nil]) hq
    · -- the children are complete
      obtain ⟨r', -, hq⟩ := bind_eq_ok_iff.1
        ((resume_children children [] depth r _ v).symm.trans hq)
      rcases List.append_eq_cons_iff.1 hv.symm with ⟨rfl, -⟩ | ⟨name, rfl, hname⟩
      · rw [eq_of_cutBracket (.inr rfl) hq]
        exact Nat.lt_succ_self _
      · rcases List.append_eq_append_iff.1 hname with ⟨a, rfl, h⟩ | ⟨a, ha, rfl⟩
        · exact absurd h.symm (append_ne_singleton ht ht')
        · exact absurd hq (not_resume_cutEndTag ha.symm fun h => ht' (by rw [h]; rfl))

/-- An element that is cut before its last bracket stays open, if it can be read at all. -/
theorem lt_depth_of_element (hcut : StaysOpen (Node.renderAll children))
    (hs : s ++ t = (Node.element tag items short children).render)
    (hs' : ¬(s = [] ∨ s = ['<'])) (ht : ¬(t = [] ∨ t = ['>']))
    (hq : p.resume reader s = .ok q) : p.depth < q.depth := by
  rw [not_or] at hs' ht
  obtain ⟨w, hw⟩ := Node.render_element tag items short children
  rcases List.append_eq_cons_iff.1 (hs.trans hw) with ⟨h, -⟩ | ⟨u, rfl, -⟩
  · exact absurd h hs'.1
  have hne : u ≠ [] := fun h => hs'.2 (by rw [h])
  -- up to the end of its tag the element is written in one way
  have htag : ∀ {c v}, u ++ t = tagText tag items ++ c :: v →
      p.depth < q.depth ∨ ∃ w, u = tagText tag items ++ c :: w ∧ v = w ++ t := by
    intro c v h
    rcases List.append_eq_append_iff.1 h with ⟨a, ha, -⟩ | ⟨a, rfl, ha⟩
    · exact .inl (lt_depth_of_cutTag ha.symm hne hq)
    · rcases List.append_eq_cons_iff.1 ha.symm with ⟨rfl, -⟩ | ⟨w, rfl, hw⟩
      · rw [List.append_nil] at hne hq
        exact .inl (lt_depth_of_cutTag (List.append_nil _) hne hq)
      · exact .inr ⟨w, rfl, hw⟩
  rw [Node.render] at hs
  split at hs
  · rcases htag (List.cons.inj hs).2 with h | ⟨v, rfl, hv⟩
    · exact h
    · exact absurd hv.symm (append_ne_singleton ht.1 ht.2)
  · rcases htag (List.cons.inj hs).2 with h | ⟨v, rfl, hv⟩
    · exact h
    · rw [← List.cons_append, resume_startTag] at hq
      obtain ⟨e, -, hq⟩ := bind_eq_ok_iff.1 hq
      obtain ⟨p', hp', hq⟩ := bind_eq_ok_iff.1 hq
      obtain ⟨r, -, rfl⟩ := exists_addElement_of_visit hp'
      exact lt_depth_of_inside hcut hv.symm ht.1 ht.2 hq

theorem staysOpen_element (hcut : StaysOpen (Node.renderAll children)) :
    StaysOpen (Node.element tag items short children).render := by
  intro depth r reader s t q hs hq
  have hend : t = [] ∨ t = ['>'] → (Progress.mk (depth + 1) true r).resume reader s =
      (Progress.mk (depth + 1) true r).resume reader
        (Node.element tag items short children).render := by
    rintro (rfl | rfl)
    · rw [← hs, List.append_nil]
    · exact resume_cutBracket hs
  by_cases ht : t = [] ∨ t = ['>']
  · rw [hend ht, ← List.append_nil (Node.render _),
      resume_element (resume_children children []) (by simp)] at hq
    obtain ⟨r', -, hq⟩ := bind_eq_ok_iff.1 hq
    rw [eq_of_cutBracket (.inl rfl) hq]
    exact Nat.lt_succ_self _
  by_cases hdone : s = [] ∨ s = ['<']
  · rw [eq_of_cutBracket hdone hq]
    exact Nat.lt_succ_self _
  · exact Nat.lt_of_succ_lt (lt_depth_of_element hcut hs hdone ht hq)

end

/-- Texts and elements in a row; `t` is a text that was met before and not yet read. -/
theorem staysOpen_children (nodes : List Node) (t : List Char) :
    StaysOpen (Entity.escape t ++ Node.renderAll nodes) := by
  intro depth r reader s u q hs hq
  have htext : '<' ∉ s → depth < q.depth := fun h => by
    rw [eq_of_cutText h hq]
    exact Nat.lt_succ_self _
  have hescape : '<' ∉ Entity.escape t := Entity.not_mem_escape (by decide) t
  match nodes with
  | [] =>
    rw [Node.renderAll, List.append_nil] at hs
    exact htext fun h => hescape (hs ▸ List.mem_append_left u h)
  | .text content :: nodes =>
    rw [Node.renderAll, Node.render, ← List.append_assoc, ← Entity.escape_append] at hs
    exact staysOpen_children nodes (t ++ content) hs hq
  | .element tag items short children :: nodes =>
    rcases List.append_eq_append_iff.1 hs with ⟨a, ha, -⟩ | ⟨v, rfl, hv⟩
    · exact htext fun h => hescape (ha ▸ List.mem_append_left a h)
    · obtain ⟨w, hw⟩ := Node.render_element tag items short children
      rw [Node.renderAll, hw] at hv
      rcases List.append_eq_cons_iff.1 hv.symm with ⟨rfl, -⟩ | ⟨v, rfl, -⟩
      · exact htext (by rwa [List.append_nil])
      rw [resume_escape (Nat.succ_pos depth)] at hq
      rw [← hw] at hv
      rcases List.append_eq_append_iff.1 hv with ⟨a, ha, hnodes⟩ | ⟨a, ha, rfl⟩
      · -- the cut falls behind the element
        rw [ha, resume_element (resume_children children []) (by simp)] at hq
        obtain ⟨r', -, hq⟩ := bind_eq_ok_iff.1 hq
        exact staysOpen_children nodes [] hnodes.symm hq
      · exact staysOpen_element (staysOpen_children children []) ha.symm hq

/-! ## Documents -/

/-- A document that is cut is read from its first character on. -/
theorem parse_of_append {tag : Name} {items : List Item} {short : Bool} {children : List Node}
    (hs : s ++ t = (Node.element tag items short children).render) :
    References.parse s = (Progress.initial.resume [] s >>= finish) := by
  obtain ⟨w, hw⟩ := Node.render_element tag items short children
  rcases List.append_eq_cons_iff.1 (hs.trans hw) with ⟨rfl, -⟩ | ⟨s, rfl, -⟩
  · rfl
  · rfl

/-- **No beginning of a written document is a layout, the one without the last bracket apart.** -/
theorem parse_of_append_render (tag : Name) (items : List Item) (short : Bool)
    (children : List Node) {s rest : List Char}
    (hs : s ++ rest = (Node.element tag items short children).render) (hrest : rest ≠ [])
    (r : References) :
    References.parse s = .ok r ↔
      rest = ['>'] ∧
        References.parse (Node.element tag items short children).render = .ok r := by
  by_cases hbracket : rest = ['>']
  · subst hbracket
    rw [parse_of_append hs, parse_of_append (List.append_nil _), resume_cutBracket hs]
    exact (and_iff_right rfl).symm
  · refine iff_of_false (fun h => ?_) fun h => hbracket h.1
    rw [parse_of_append hs] at h
    obtain ⟨q, hq, hfinish⟩ := bind_eq_ok_iff.1 h
    obtain ⟨⟨hseen, hdepth⟩, -⟩ := finish_eq_ok_iff.1 hfinish
    by_cases hdone : s = [] ∨ s = ['<']
    · rw [eq_of_cutBracket hdone hq] at hseen
      cases hseen
    · have hlt := lt_depth_of_element (staysOpen_children children []) hs hdone
        (not_or.2 ⟨hrest, hbracket⟩) hq
      rw [hdepth] at hlt
      exact Nat.not_lt_zero _ hlt

/-- A document with a slash in a namespace. -/
def declaring : Node :=
  .element ⟨none, { chars := "Form".toList }⟩ [] false [
    .element ⟨none, { chars := "Chart".toList }⟩
      [.declaration (some { chars := "n".toList }) "urn:/x".toList] true []]

theorem parse_of_append_render_behindSlash :
    "<Form><Chart xmlns:n=\"urn:/".toList ++ "x\"/></Form>".toList = declaring.render ∧
    "x\"/></Form>".toList ≠ [] ∧
    (∃ r, References.parse declaring.render = .ok r ∧ "Chart" ∈ r.classes) ∧
    ¬∃ r, References.parse "<Form><Chart xmlns:n=\"urn:/".toList = .ok r := by
  have hrender : "<Form><Chart xmlns:n=\"urn:/".toList ++ "x\"/></Form>".toList =
      declaring.render := by
    decide
  have hwalk : walk Scope.initial References.empty declaring =
      .ok ⟨⟨["Chart", "Form"], by decide⟩, ∅⟩ := by
    decide +kernel
  refine ⟨hrender, by decide, ⟨_, (parse_render _ _ _ _).trans hwalk, by decide⟩, ?_⟩
  rintro ⟨r, hr⟩
  exact absurd ((parse_of_append_render _ _ _ _ hrender (by decide) r).1 hr).1 (by decide)

end LayoutShell.Layout
