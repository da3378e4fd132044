import LayoutShell.Markup.Event
import LayoutShell.Proofs.Markup.Scopes
import LayoutShell.Proofs.Results

/-!
# The events of a document

What the reader of a document can do at a lexeme, and what that says about the events of a whole
document.

* `Reader.step_cases` lists what a lexeme does to the reader, and `Lexeme.scan_of_read` takes one
  lexeme off a document.
* `Reader.Yields` relates a reader to the events of the lexemes that it is given
  (`Event.yields_ofLexemes`).
* `Reader.Yields.nested`: no element is closed that is not open, since the reader keeps the open
  ones.
* `Reader.Yields.standard`: in every element the prefixes `xml` and `xmlns` have their own
  namespaces.
-/

namespace LayoutShell.Markup

open Text

/-! ## One lexeme -/

namespace Lexeme

theorem scan_eq (s : List Char) :
    scan s = match read s with
      | .done => []
      | .fault f => [.error f]
      | .found l rest => .ok l :: scan rest := by
  rw [scan]
  cases read s <;> rfl

theorem scan_of_read {s rest : List Char} {l : Lexeme} (h : read s = .found l rest) :
    scan s = .ok l :: scan rest := by
  rw [scan_eq, h]

theorem scan_of_done {s : List Char} (h : read s = .done) : scan s = [] := by
  rw [scan_eq, h]

/-- Documents that begin with the same lexeme have the same lexemes. -/
theorem scan_congr {s t : List Char} (h : read s = read t) : scan s = scan t := by
  rw [scan_eq, h, ← scan_eq]

end Lexeme

namespace Reader

theorem element_eq_ok {outer : Scope} {content : List Char} {e : Element}
    (h : element outer content = .ok e) : e.content = content ∧
      outer.declare (Attribute.scan (size e.name) (Element.attributeText e.content)) =
        .ok e.scope := by
  obtain ⟨scope, hs, h⟩ := bind_eq_ok_iff.1 h
  cases h
  exact ⟨rfl, hs⟩

/-- What a lexeme does to a reader. -/
theorem step_cases {reader reader' : Reader} {l : Lexeme} {event : Event}
    (h : reader.step l = .ok (event, reader')) :
    (∃ content, event = .text content ∧ reader' = reader) ∨
      (∃ content e, element reader.scope content = .ok e ∧ event = .start e ∧
        reader' = ⟨e.name, e.scope⟩ :: reader) ∨
      (∃ content e, element reader.scope content = .ok e ∧ event = .empty e ∧ reader' = reader) ∨
      (∃ frame, event = .finish ∧ reader = frame :: reader') ∨
      (event = .aside ∧ reader' = reader) := by
  cases l with
  | text content =>
    cases h
    exact .inl ⟨content, rfl, rfl⟩
  | startTag content =>
    obtain ⟨e, he, h⟩ := bind_eq_ok_iff.1 h
    cases h
    exact .inr (.inl ⟨content, e, mapError_eq_ok_iff.1 he, rfl, rfl⟩)
  | emptyTag content =>
    obtain ⟨e, he, h⟩ := bind_eq_ok_iff.1 h
    cases h
    exact .inr (.inr (.inl ⟨content, e, mapError_eq_ok_iff.1 he, rfl, rfl⟩))
  | endTag content =>
    cases reader with
    | nil => cases h
    | cons frame outer =>
      simp only [step] at h
      split at h
      · cases h
        exact .inr (.inr (.inr (.inl ⟨frame, rfl, rfl⟩)))
      · cases h
  | comment | cdata | doctype | instruction =>
    cases h
    exact .inr (.inr (.inr (.inr ⟨rfl, rfl⟩)))

section

variable {reader : Reader} {content : List Char}

theorem step_startTag {e : Element} (h : element reader.scope content = .ok e) :
    reader.step (.startTag content) = .ok (.start e, ⟨e.name, e.scope⟩ :: reader) := by
  rw [step, h]
  rfl

theorem step_emptyTag {e : Element} (h : element reader.scope content = .ok e) :
    reader.step (.emptyTag content) = .ok (.empty e, reader) := by
  rw [step, h]
  rfl

theorem step_startTag_of_error {e : BindingError} (h : element reader.scope content = .error e) :
    reader.step (.startTag content) = .error (.binding e) := by
  rw [step, h]
  rfl

theorem step_emptyTag_of_error {e : BindingError} (h : element reader.scope content = .error e) :
    reader.step (.emptyTag content) = .error (.binding e) := by
  rw [step, h]
  rfl

end

/-- In all open elements the prefixes `xml` and `xmlns` have their own namespaces. -/
def Standard (reader : Reader) : Prop := ∀ frame ∈ reader, frame.scope.Standard

theorem Standard.scope {reader : Reader} (h : reader.Standard) : reader.scope.Standard := by
  cases reader with
  | nil => exact Scope.standard_initial
  | cons frame outer => exact h frame List.mem_cons_self

theorem Standard.element {reader : Reader} (h : reader.Standard) {content : List Char} {e : Element}
    (he : element reader.scope content = .ok e) : e.scope.Standard :=
  h.scope.declare (element_eq_ok he).2

end Reader

/-! ## All lexemes -/

/-- A reader gives the events of a document, lexeme by lexeme, without an error. -/
inductive Reader.Yields : Reader → List Event → Prop
  | nil (reader : Reader) : Yields reader []
  | cons {reader reader' : Reader} {l : Lexeme} {event : Event} {events : List Event}
      (step : reader.step l = .ok (event, reader')) (rest : Yields reader' events) :
      Yields reader (event :: events)

namespace Event

theorem yields_ofLexemes {reader : Reader} {lexemes : List (Except Fault Lexeme)}
    {events : List Event} (h : ofLexemes reader lexemes = events.map .ok) :
    reader.Yields events := by
  induction lexemes generalizing reader events with
  | nil =>
    obtain rfl : events = [] := by simpa [ofLexemes] using h
    exact .nil reader
  | cons l lexemes ih =>
    cases l with
    | error f => rcases events with _ | ⟨event, events⟩ <;> cases h
    | ok l =>
      rw [ofLexemes] at h
      split at h
      · rcases events with _ | ⟨event, events⟩ <;> cases h
      · next event reader' hs =>
        rcases events with _ | ⟨event', events⟩
        · cases h
        · rw [List.map_cons, List.cons.injEq] at h
          cases h.1
          exact .cons hs (ih h.2)

/-- No element is closed that is not open, if `depth` elements are open at first. -/
def Nested : Nat → List Event → Prop
  | _, [] => True
  | depth, .start _ :: events => Nested (depth + 1) events
  | 0, .finish :: _ => False
  | depth + 1, .finish :: events => Nested depth events
  | depth, _ :: events => Nested depth events

/-- The element that an event opens, or that it is. -/
def element? : Event → Option Element
  | .start e | .empty e => some e
  | _ => none

end Event

namespace Reader.Yields

/-- The reader closes only elements that are open. -/
theorem nested {reader : Reader} {events : List Event} (h : reader.Yields events) :
    Event.Nested reader.length events := by
  induction h with
  | nil => trivial
  | cons hs _ ih =>
    obtain ⟨content, rfl, rfl⟩ | ⟨content, e, -, rfl, rfl⟩ | ⟨content, e, -, rfl, rfl⟩ |
      ⟨frame, rfl, rfl⟩ | ⟨rfl, rfl⟩ := step_cases hs
    all_goals simpa only [Event.Nested, List.length_cons] using ih

theorem standard {reader : Reader} {events : List Event} (h : reader.Yields events)
    (hr : reader.Standard) :
    ∀ event ∈ events, ∀ e, event.element? = some e → e.scope.Standard := by
  induction h with
  | nil => simp
  | cons hs _ ih =>
    rw [List.forall_mem_cons]
    obtain ⟨content, rfl, rfl⟩ | ⟨content, e, he, rfl, rfl⟩ | ⟨content, e, he, rfl, rfl⟩ |
      ⟨frame, rfl, rfl⟩ | ⟨rfl, rfl⟩ := step_cases hs
    · exact ⟨fun _ h => (nomatch h), ih hr⟩
    · have hstd := hr.element he
      refine ⟨fun _ h => Option.some.inj h ▸ hstd, ih ?_⟩
      exact fun f hf => (List.mem_cons.1 hf).elim (fun h => h ▸ hstd) (hr f)
    · exact ⟨fun _ h => Option.some.inj h ▸ hr.element he, ih hr⟩
    · exact ⟨fun _ h => (nomatch h), ih fun f hf => hr f (List.mem_cons_of_mem _ hf)⟩
    · exact ⟨fun _ h => (nomatch h), ih hr⟩

end Reader.Yields

end LayoutShell.Markup
