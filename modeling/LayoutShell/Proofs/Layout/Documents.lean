import LayoutShell.Proofs.Layout.Elements
import LayoutShell.Proofs.Markup.Events

/-!
# Layout documents

A layout is a document with one root element and nothing but space around it.

* `Content` and `Complete` are the grammar of events: what stands inside an element, and an element
  with all that belongs to it. `SingleRoot` is the grammar of a whole document.
* `Closes.iff_singleRoot`: counting the open elements and remembering the root recognizes exactly
  that grammar.
* `Progress.run_finish_eq_ok_iff` separates what a document must satisfy as a whole from what its
  events must satisfy one by one.
* `parse_eq_ok_iff`: the documents that are accepted, and what they refer to.
-/

namespace LayoutShell.Layout

open Markup Text References

/-! ## The grammar of events -/

/-- What stands inside an element: texts and complete elements in any order. -/
inductive Content : List Event → Prop
  | nil : Content []
  | text (content : List Char) {events : List Event} (rest : Content events) :
      Content (.text content :: events)
  | empty (e : Element) {events : List Event} (rest : Content events) : Content (.empty e :: events)
  | nested (e : Element) {inner events : List Event} (inside : Content inner)
      (rest : Content events) : Content (.start e :: inner ++ .finish :: events)

/-- An element with all that belongs to it. -/
inductive Complete : List Event → Prop
  | empty (e : Element) : Complete [.empty e]
  | nested (e : Element) {inner : List Event} (inside : Content inner) :
      Complete (.start e :: inner ++ [.finish])

/-- A text that expands to white space only. -/
def IsBlankText (event : Event) : Prop :=
  ∃ content text, event = .text content ∧ Entity.expand content = .ok text ∧ isBlank text = true

/-- One complete element with nothing but space around it. -/
def SingleRoot (events : List Event) : Prop :=
  ∃ before root after, events = before ++ root ++ after ∧ Complete root ∧
    (∀ event ∈ before, IsBlankText event) ∧ ∀ event ∈ after, IsBlankText event

/-! ## Counting open elements -/

/-- With `depth` elements open, and the root met or not, the events close all elements, stand where
they may, and do not end without a root. -/
inductive Closes : Nat → Bool → List Event → Prop
  | done : Closes 0 true []
  | start (e : Element) {depth : Nat} {seen : Bool} {events : List Event}
      (first : ¬(depth = 0 ∧ seen = true)) (rest : Closes (depth + 1) true events) :
      Closes depth seen (.start e :: events)
  | empty (e : Element) {depth : Nat} {seen : Bool} {events : List Event}
      (first : ¬(depth = 0 ∧ seen = true)) (rest : Closes depth true events) :
      Closes depth seen (.empty e :: events)
  | finish {depth : Nat} {seen : Bool} {events : List Event} (rest : Closes depth seen events) :
      Closes (depth + 1) seen (.finish :: events)
  | text (content : List Char) {depth : Nat} {seen : Bool} {events : List Event}
      (blank : depth = 0 → IsBlankText (.text content)) (rest : Closes depth seen events) :
      Closes depth seen (.text content :: events)

namespace Closes

/-- Inside an element, its content may come first. -/
theorem content {inner : List Event} (h : Content inner) {depth : Nat} {events : List Event}
    (rest : Closes (depth + 1) true events) : Closes (depth + 1) true (inner ++ events) := by
  induction h generalizing depth events with
  | nil => exact rest
  | text content _ ih => exact .text content (fun h => by cases h) (ih rest)
  | empty e _ ih => exact .empty e (by simp) (ih rest)
  | nested e _ _ ihInside ihRest =>
    rw [List.cons_append, List.cons_append, List.append_assoc]
    exact .start e (by simp) (ihInside (.finish (ihRest rest)))

theorem blank {events : List Event} (h : ∀ event ∈ events, IsBlankText event) {seen : Bool}
    {more : List Event} (rest : Closes 0 seen more) : Closes 0 seen (events ++ more) := by
  induction events with
  | nil => exact rest
  | cons event events ih =>
    rw [List.forall_mem_cons] at h
    have hblank := h.1
    obtain ⟨content, text, rfl, -⟩ := h.1
    exact .text content (fun _ => hblank) (ih h.2)

/-- Inside an element, the events begin with its content and its end. -/
theorem exists_content {depth : Nat} {events : List Event} (h : Closes (depth + 1) true events) :
    ∃ inner rest, events = inner ++ .finish :: rest ∧ Content inner ∧ Closes depth true rest := by
  -- an inner element is followed by more content, so the induction is on the number of events
  induction hn : events.length using Nat.strongRecOn generalizing depth events with
  | ind n ih =>
    cases h with
    | start e _ rest =>
      rw [List.length_cons] at hn
      obtain ⟨inner, events, rfl, hinner, rest⟩ := ih _ (by omega) rest rfl
      rw [List.length_append, List.length_cons] at hn
      obtain ⟨inner', events, rfl, hinner', rest⟩ := ih _ (by omega) rest rfl
      exact ⟨_, events, by simp, .nested e hinner hinner', rest⟩
    | empty e _ rest =>
      rw [List.length_cons] at hn
      obtain ⟨inner, events, rfl, hinner, rest⟩ := ih _ (by omega) rest rfl
      exact ⟨_, events, rfl, .empty e hinner, rest⟩
    | finish rest => exact ⟨[], _, rfl, .nil, rest⟩
    | text content _ rest =>
      rw [List.length_cons] at hn
      obtain ⟨inner, events, rfl, hinner, rest⟩ := ih _ (by omega) rest rfl
      exact ⟨_, events, rfl, .text content hinner, rest⟩

/-- After the root there is only space. -/
theorem forall_blank {events : List Event} (h : Closes 0 true events) :
    ∀ event ∈ events, IsBlankText event := by
  generalize hd : 0 = depth at h
  generalize hs : true = seen at h
  induction h with
  | done => simp
  | start e first => exact absurd ⟨hd.symm, hs.symm⟩ first
  | empty e first => exact absurd ⟨hd.symm, hs.symm⟩ first
  | finish => cases hd
  | text content blank _ ih => exact List.forall_mem_cons.2 ⟨blank hd.symm, ih hd hs⟩

/-- Before the root there is only space. -/
theorem exists_root {events : List Event} (h : Closes 0 false events) : SingleRoot events := by
  generalize hd : 0 = depth at h
  generalize hs : false = seen at h
  induction h with
  | done => cases hs
  | start e _ rest =>
    subst hd
    obtain ⟨inner, after, rfl, hinner, hafter⟩ := rest.exists_content
    exact ⟨[], .start e :: inner ++ [.finish], after, by simp, .nested e hinner, by simp,
      hafter.forall_blank⟩
  | empty e _ rest =>
    subst hd
    exact ⟨[], [.empty e], _, rfl, .empty e, by simp, rest.forall_blank⟩
  | finish => cases hd
  | text content blank _ ih =>
    obtain ⟨before, root, after, rfl, hroot, hbefore, hafter⟩ := ih hd hs
    exact ⟨.text content :: before, root, after, rfl, hroot,
      List.forall_mem_cons.2 ⟨blank hd.symm, hbefore⟩, hafter⟩

/-- **Counting the open elements recognizes the documents with one root.** -/
theorem iff_singleRoot {events : List Event} : Closes 0 false events ↔ SingleRoot events := by
  refine ⟨exists_root, ?_⟩
  rintro ⟨before, root, after, rfl, hroot, hbefore, hafter⟩
  have hend : Closes 0 true after := by simpa using blank hafter .done
  rw [List.append_assoc]
  refine blank hbefore ?_
  cases hroot with
  | empty e => exact .empty e (by simp) hend
  | nested e inside =>
    rw [List.cons_append, List.cons_append, List.append_assoc]
    exact .start e (by simp) (content inside (.finish hend))

variable {depth : Nat} {seen : Bool} {events : List Event}

theorem nil_iff : Closes depth seen [] ↔ seen = true ∧ depth = 0 := by
  constructor
  · intro h
    cases h
    exact ⟨rfl, rfl⟩
  · rintro ⟨rfl, rfl⟩
    exact .done

theorem start_iff {e : Element} : Closes depth seen (.start e :: events) ↔
    ¬(depth = 0 ∧ seen = true) ∧ Closes (depth + 1) true events :=
  ⟨fun h => by cases h; constructor <;> assumption, fun h => .start e h.1 h.2⟩

theorem empty_iff {e : Element} : Closes depth seen (.empty e :: events) ↔
    ¬(depth = 0 ∧ seen = true) ∧ Closes depth true events :=
  ⟨fun h => by cases h; constructor <;> assumption, fun h => .empty e h.1 h.2⟩

theorem finish_iff : Closes (depth + 1) seen (.finish :: events) ↔ Closes depth seen events :=
  ⟨fun h => by cases h; assumption, .finish⟩

theorem text_iff {content : List Char} : Closes depth seen (.text content :: events) ↔
    (depth = 0 → IsBlankText (.text content)) ∧ Closes depth seen events :=
  ⟨fun h => by cases h; constructor <;> assumption, fun h => .text content h.1 h.2⟩

end Closes

/-! ## Events -/

/-- What an event must satisfy wherever it stands. -/
def SoundEvent : Event → Prop
  | .start e | .empty e => SoundElement e
  | .text content => ∃ text, Entity.expand content = .ok text
  | .finish | .aside => True

/-- An element of the events refers to the name `n`, where `R` says what an element refers to. -/
def Mentions (R : Element → String → Prop) (events : List Event) (n : String) : Prop :=
  ∃ event ∈ events, ∃ e, event.element? = some e ∧ R e n

theorem mentions_nil (R : Element → String → Prop) : Mentions R [] = fun _ => False := by
  funext n
  simp [Mentions]

theorem mentions_cons_of_element (R : Element → String → Prop) {event : Event} {e : Element}
    (h : event.element? = some e) (events : List Event) :
    Mentions R (event :: events) = fun n => R e n ∨ Mentions R events n := by
  funext n
  simp [Mentions, h]

theorem mentions_cons_of_none (R : Element → String → Prop) {event : Event}
    (h : event.element? = none) (events : List Event) :
    Mentions R (event :: events) = Mentions R events := by
  funext n
  simp [Mentions, h]

/-- An element first and then what other steps add. -/
theorem addElement_then_iff {e : Element} (hs : e.scope.Standard) {r r' : References}
    {C H : String → Prop} :
    (∃ r₁, addElement r e = .ok r₁ ∧ Adds r₁ r' C H) ↔
      SoundElement e ∧
        Adds r r' (fun n => ElementClass e n ∨ C n) fun n => ElementHandler e n ∨ H n := by
  constructor
  · rintro ⟨r₁, h, hadds⟩
    obtain ⟨he, hadds₁⟩ := (addElement_eq_ok_iff hs).1 h
    exact ⟨he, hadds₁.trans hadds⟩
  · rintro ⟨he, hadds⟩
    obtain ⟨r₁, h, hadds₁⟩ := addElement_of_sound hs he r
    exact ⟨r₁, h, hadds₁.right hadds⟩

namespace Progress

/-- The references found after the events, if they end the document. -/
theorem finish_eq_ok_iff {p : Progress} {r : References} :
    p.finish = .ok r ↔ (p.seenRoot = true ∧ p.depth = 0) ∧ p.found = r := by
  unfold finish
  split_ifs with hroot hdepth
  · simp_all
  · simp; omega
  · simp_all

theorem exists_addElement_of_visit {p q : Progress} {e : Element} (h : p.visit e = .ok q) :
    ∃ r, addElement p.found e = .ok r ∧ q = ⟨p.depth, true, r⟩ := by
  rw [visit] at h
  split at h
  · cases h
  · obtain ⟨r, hr, h⟩ := bind_eq_ok_iff.1 h
    cases h
    exact ⟨r, hr, rfl⟩

/-- An element that is visited before other work is done. -/
theorem visit_bind_eq_ok_iff {p : Progress} {e : Element} (hs : e.scope.Standard) {r : References}
    {next : Progress → Except LayoutError References} {K S : Prop} {C H : String → Prop}
    (hnext : ∀ r₁, next ⟨p.depth, true, r₁⟩ = .ok r ↔ K ∧ S ∧ Adds r₁ r C H) :
    (p.visit e >>= next) = .ok r ↔ (¬(p.depth = 0 ∧ p.seenRoot = true) ∧ K) ∧
      (SoundElement e ∧ S) ∧
        Adds p.found r (fun n => ElementClass e n ∨ C n) fun n => ElementHandler e n ∨ H n := by
  have hvisit : (p.visit e >>= next) = .ok r ↔ ¬(p.depth = 0 ∧ p.seenRoot = true) ∧
      ∃ r₁, addElement p.found e = .ok r₁ ∧ next ⟨p.depth, true, r₁⟩ = .ok r := by
    unfold visit
    split_ifs with h
    · simp [h, bind, Except.bind]
    · rw [and_iff_right h]
      cases addElement p.found e <;> simp [bind, Except.bind, pure, Except.pure]
  simp only [hvisit, hnext]
  constructor
  · rintro ⟨hfirst, r₁, h₁, hK, hS, hadds⟩
    obtain ⟨he, hadds⟩ := (addElement_then_iff hs).1 ⟨r₁, h₁, hadds⟩
    exact ⟨⟨hfirst, hK⟩, ⟨he, hS⟩, hadds⟩
  · rintro ⟨⟨hfirst, hK⟩, ⟨he, hS⟩, hadds⟩
    obtain ⟨r₁, h₁, hadds⟩ := (addElement_then_iff hs).2 ⟨he, hadds⟩
    exact ⟨hfirst, r₁, h₁, hK, hS, hadds⟩

theorem step_text_eq_ok_iff {p q : Progress} {content : List Char} :
    p.step (.text content) = .ok q ↔ SoundEvent (.text content) ∧
      (p.depth = 0 → IsBlankText (.text content)) ∧ p = q := by
  unfold step SoundEvent IsBlankText
  cases h : Entity.expand content with
  | error f => simp [Except.mapError, bind, Except.bind, h]
  | ok text =>
    have hblank : (∃ content' text', Event.text content = .text content' ∧
        Entity.expand content' = .ok text' ∧ isBlank text' = true) ↔ isBlank text = true := by
      simp [h]
    rw [hblank, and_iff_right ⟨text, h⟩]
    by_cases hdepth : p.depth = 0 <;> cases hb : isBlank text <;>
      simp [Except.mapError, bind, Except.bind, h, hdepth, hb]

/-- A document is accepted from some point on exactly if its remaining events close the open
elements and are sound; then it adds what they mention. -/
theorem run_finish_eq_ok_iff {p : Progress} {events : List Event}
    (hn : Event.Nested p.depth events)
    (hs : ∀ event ∈ events, ∀ e, event.element? = some e → e.scope.Standard) {r : References} :
    (p.run (events.map .ok) >>= finish) = .ok r ↔
      Closes p.depth p.seenRoot (events.filter (· ≠ .aside)) ∧
        (∀ event ∈ events, SoundEvent event) ∧
          Adds p.found r (Mentions ElementClass events) (Mentions ElementHandler events) := by
  induction events generalizing p with
  | nil =>
    have hnone : Adds p.found r (fun _ => False) (fun _ => False) ↔ p.found = r :=
      ⟨(Adds.refl p.found).unique, fun h => h ▸ Adds.refl p.found⟩
    rw [mentions_nil, mentions_nil, hnone]
    simp [run, bind, Except.bind, finish_eq_ok_iff, Closes.nil_iff]
  | cons event events ih =>
    have hrun : (p.run ((event :: events).map .ok) >>= finish) =
        (p.step event >>= fun q => q.run (events.map .ok) >>= finish) := by
      rw [List.map_cons, run]
      cases p.step event <;> rfl
    rw [hrun, List.forall_mem_cons]
    rw [List.forall_mem_cons] at hs
    cases event with
    | start e =>
      rw [mentions_cons_of_element _ rfl, mentions_cons_of_element _ rfl,
        List.filter_cons_of_pos (by simp), Closes.start_iff]
      have hn' : Event.Nested (p.depth + 1) events := hn
      rw [step, bind_assoc]
      exact visit_bind_eq_ok_iff (hs.1 e rfl) fun r₁ => ih (p := ⟨p.depth + 1, true, r₁⟩) hn' hs.2
    | empty e =>
      rw [mentions_cons_of_element _ rfl, mentions_cons_of_element _ rfl,
        List.filter_cons_of_pos (by simp), Closes.empty_iff]
      have hn' : Event.Nested p.depth events := by simpa only [Event.Nested] using hn
      exact visit_bind_eq_ok_iff (hs.1 e rfl) fun r₁ => ih (p := ⟨p.depth, true, r₁⟩) hn' hs.2
    | finish =>
      rw [mentions_cons_of_none _ rfl, mentions_cons_of_none _ rfl,
        List.filter_cons_of_pos (by simp)]
      obtain ⟨depth, seen, found⟩ := p
      cases depth with
      | zero => exact hn.elim
      | succ depth =>
        rw [Closes.finish_iff, SoundEvent, true_and]
        exact ih (p := ⟨depth, seen, found⟩) hn hs.2
    | text content =>
      rw [mentions_cons_of_none _ rfl, mentions_cons_of_none _ rfl,
        List.filter_cons_of_pos (by simp), Closes.text_iff]
      have hn' : Event.Nested p.depth events := by simpa only [Event.Nested] using hn
      rw [bind_eq_ok_iff]
      simp only [step_text_eq_ok_iff]
      constructor
      · rintro ⟨q, ⟨hsound, hblank, rfl⟩, h⟩
        obtain ⟨hcloses, hall, hadds⟩ := (ih hn' hs.2).1 h
        exact ⟨⟨hblank, hcloses⟩, ⟨hsound, hall⟩, hadds⟩
      · rintro ⟨⟨hblank, hcloses⟩, ⟨hsound, hall⟩, hadds⟩
        exact ⟨p, ⟨hsound, hblank, rfl⟩, (ih hn' hs.2).2 ⟨hcloses, hall, hadds⟩⟩
    | aside =>
      rw [mentions_cons_of_none _ rfl, mentions_cons_of_none _ rfl,
        List.filter_cons_of_neg (by simp), SoundEvent, true_and]
      exact ih (by simpa only [Event.Nested] using hn) hs.2

theorem run_eq_ok_cases {p q : Progress} {xs : List (Except ReadError Event)}
    (h : p.run xs = .ok q) : ∃ events : List Event, xs = events.map .ok := by
  induction xs generalizing p with
  | nil => exact ⟨[], rfl⟩
  | cons x xs ih =>
    cases x with
    | error e => cases h
    | ok event =>
      obtain ⟨p', -, h⟩ := bind_eq_ok_iff.1 h
      obtain ⟨events, rfl⟩ := ih h
      exact ⟨event :: events, rfl⟩

end Progress

/-- Whether a document that can be read to its end is a layout, and what it refers to then. -/
theorem parse_of_scan {document : List Char} {events : List Event}
    (hscan : Event.scan document = events.map .ok) {r : References} :
    References.parse document = .ok r ↔
      SingleRoot (events.filter (· ≠ .aside)) ∧ (∀ event ∈ events, SoundEvent event) ∧
        Adds References.empty r (Mentions ElementClass events)
          (Mentions ElementHandler events) := by
  have hyields : Reader.Yields [] events := Event.yields_ofLexemes hscan
  rw [References.parse, hscan, Progress.run_finish_eq_ok_iff hyields.nested
    (hyields.standard (by simp [Reader.Standard]))]
  exact and_congr_left' Closes.iff_singleRoot

/-- **The layouts are the documents that can be read to their end, have one root, and have only
sound events. Their references are those of their elements.** -/
theorem parse_eq_ok_iff {document : List Char} {r : References} :
    References.parse document = .ok r ↔
      ∃ events : List Event, Event.scan document = events.map .ok ∧
        SingleRoot (events.filter (· ≠ .aside)) ∧ (∀ event ∈ events, SoundEvent event) ∧
          (∀ n, n ∈ r.classes ↔ Mentions ElementClass events n) ∧
            ∀ n, n ∈ r.handlers ↔ Mentions ElementHandler events n := by
  simp only [← adds_empty_iff]
  constructor
  · intro h
    obtain ⟨q, hq, -⟩ := bind_eq_ok_iff.1 h
    obtain ⟨events, hscan⟩ := Progress.run_eq_ok_cases hq
    exact ⟨events, hscan, (parse_of_scan hscan).1 h⟩
  · rintro ⟨events, hscan, h⟩
    exact (parse_of_scan hscan).2 h

end LayoutShell.Layout
