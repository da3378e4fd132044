import LayoutShell.Proofs.Layout.Documents

/-!
# Counting the open elements

Two parts of the work on a document keep track of the open elements: the reader, which keeps their
names to compare them with end tags, and the progress, which counts them and remembers whether a
root was met. Neither sees the other, and the count would stay at zero if an end tag came too often.

* `Reader.Reads` relates a reader to the lexemes it has taken, the events they gave and the elements
  open after them, and `Event.exists_reads_of_ofLexemes` finds the reader behind the first events of
  a document.
* `Progress.step_cases` lists what an event does to the count and to the root.
* `Progress.Agrees` says that a progress fits the reader and the events so far. One event keeps it
  (`Progress.Agrees.step`), so a run does (`Progress.Agrees.run`).
* `depth_eq_length_open`: at every event of a document the count is the number of open elements.
-/

namespace LayoutShell.Markup

/-! ## The reader -/

/-- The reader takes the lexemes one by one. They give the events, and leave the elements of the
last reader open. -/
inductive Reader.Reads : Reader → List Lexeme → List Event → Reader → Prop
  | nil (reader : Reader) : Reads reader [] [] reader
  | cons {reader next last : Reader} {l : Lexeme} {event : Event} {lexemes : List Lexeme}
      {events : List Event} (step : reader.step l = .ok (event, next))
      (rest : Reads next lexemes events last) : Reads reader (l :: lexemes) (event :: events) last

namespace Event

/-- The event opens an element. -/
def isStart : Event → Bool
  | .start _ => true
  | _ => false

/-- The event closes an element. -/
def isFinish : Event → Bool
  | .finish => true
  | _ => false

/-- The first events of some lexemes come from the first lexemes, and the others from the reader
after them. -/
theorem exists_reads_of_ofLexemes {reader : Reader} {lexemes : List (Except Fault Lexeme)}
    {before : List Event} {after : List (Except ReadError Event)}
    (h : ofLexemes reader lexemes = before.map .ok ++ after) :
    ∃ taken rest last, lexemes = taken.map .ok ++ rest ∧ reader.Reads taken before last ∧
      after = ofLexemes last rest := by
  induction before generalizing reader lexemes with
  | nil => exact ⟨[], lexemes, reader, rfl, .nil reader, h.symm⟩
  | cons event before ih =>
    rcases lexemes with _ | ⟨_ | l, lexemes⟩
    · cases h
    · cases h
    · rw [ofLexemes] at h
      cases hstep : reader.step l with
      | error e =>
        rw [hstep] at h
        cases h
      | ok found =>
        obtain ⟨event', next⟩ := found
        rw [hstep] at h
        obtain ⟨hevent, htail⟩ := List.cons.inj h
        cases hevent
        obtain ⟨taken, rest, last, rfl, hreads, hafter⟩ := ih htail
        exact ⟨l :: taken, rest, last, rfl, .cons hstep hreads, hafter⟩

end Event

end LayoutShell.Markup

namespace LayoutShell.Layout

open Markup Event

namespace Progress

/-! ## The count -/

theorem visit_eq_ok {p q : Progress} {e : Element} (h : p.visit e = .ok q) :
    (p.depth = 0 → p.seenRoot = false) ∧ q.depth = p.depth ∧ q.seenRoot = true := by
  rw [visit] at h
  split at h
  · cases h
  · next hfirst =>
    obtain ⟨r, -, h⟩ := bind_eq_ok_iff.1 h
    cases h
    refine ⟨fun hdepth => ?_, rfl, rfl⟩
    simpa [hdepth] using hfirst

/-- What an event does to the count of open elements and to the root. -/
theorem step_cases {p q : Progress} {event : Event} (h : p.step event = .ok q) :
    (∃ e, event = .start e ∧ (p.depth = 0 → p.seenRoot = false) ∧ q.depth = p.depth + 1 ∧
      q.seenRoot = true) ∨
    (∃ e, event = .empty e ∧ (p.depth = 0 → p.seenRoot = false) ∧ q.depth = p.depth ∧
      q.seenRoot = true) ∨
    (event = .finish ∧ q.depth = p.depth - 1 ∧ q.seenRoot = p.seenRoot) ∨
    (event.isStart = false ∧ event.isFinish = false ∧ event.element? = none ∧ q = p) := by
  cases event with
  | start e =>
    obtain ⟨p', hvisit, h⟩ := bind_eq_ok_iff.1 h
    cases h
    obtain ⟨hfirst, hdepth, hroot⟩ := visit_eq_ok hvisit
    exact .inl ⟨e, rfl, hfirst, congrArg (· + 1) hdepth, hroot⟩
  | empty e =>
    obtain ⟨hfirst, hdepth, hroot⟩ := visit_eq_ok h
    exact .inr (.inl ⟨e, rfl, hfirst, hdepth, hroot⟩)
  | finish =>
    cases h
    exact .inr (.inr (.inl ⟨rfl, rfl, rfl⟩))
  | text content =>
    obtain ⟨-, -, rfl⟩ := step_text_eq_ok_iff.1 h
    exact .inr (.inr (.inr ⟨rfl, rfl, rfl, rfl⟩))
  | aside =>
    cases h
    exact .inr (.inr (.inr ⟨rfl, rfl, rfl, rfl⟩))

/-- The progress fits the events so far and the elements that the reader holds open after them. -/
structure Agrees (handled : List Event) (reader : Reader) (p : Progress) : Prop where
  depth_eq : p.depth = reader.length
  /-- The open elements are those that were opened and not closed. -/
  count_eq : p.depth + handled.countP isFinish = handled.countP isStart
  seenRoot_iff : p.seenRoot = true ↔ ∃ event ∈ handled, event.element? ≠ none

namespace Agrees

variable {handled : List Event} {reader : Reader} {p : Progress}

theorem initial : Agrees [] [] initial where
  depth_eq := rfl
  count_eq := rfl
  seenRoot_iff := by simp [Progress.initial]

/-- **One event keeps count and reader together.** -/
theorem step (h : Agrees handled reader p) {l : Lexeme} {event : Event} {next : Reader}
    {q : Progress} (hread : reader.step l = .ok (event, next)) (hstep : p.step event = .ok q) :
    Agrees (handled ++ [event]) next q := by
  have hdepth := h.depth_eq
  have hcount := h.count_eq
  have hroot := h.seenRoot_iff
  obtain ⟨content, rfl, rfl⟩ | ⟨content, e, -, rfl, rfl⟩ | ⟨content, e, -, rfl, rfl⟩ |
    ⟨frame, rfl, rfl⟩ | ⟨rfl, rfl⟩ := Reader.step_cases hread
  · -- a text
    obtain ⟨_, ⟨⟩, -⟩ | ⟨_, ⟨⟩, -⟩ | ⟨⟨⟩, -⟩ | ⟨-, -, -, rfl⟩ := step_cases hstep
    exact ⟨hdepth, by simpa [isStart, isFinish] using hcount, by simp [hroot, element?]⟩
  · -- a start tag
    obtain ⟨_, ⟨⟩, -, hq, hseen⟩ | ⟨_, ⟨⟩, -⟩ | ⟨⟨⟩, -⟩ | ⟨⟨⟩, -⟩ := step_cases hstep
    refine ⟨by simp [hq, hdepth], ?_, by simp [hseen, element?]⟩
    simp only [List.countP_append, List.countP_singleton, isStart, isFinish, Bool.false_eq_true,
      if_true, if_false]
    omega
  · -- an empty tag
    obtain ⟨_, ⟨⟩, -⟩ | ⟨_, ⟨⟩, -, hq, hseen⟩ | ⟨⟨⟩, -⟩ | ⟨-, -, ⟨⟩, -⟩ := step_cases hstep
    refine ⟨by simp [hq, hdepth], ?_, by simp [hseen, element?]⟩
    simpa [isStart, isFinish, hq] using hcount
  · -- an end tag: the reader held its element open, so the count was not zero
    obtain ⟨_, ⟨⟩, -⟩ | ⟨_, ⟨⟩, -⟩ | ⟨-, hq, hseen⟩ | ⟨-, ⟨⟩, -⟩ := step_cases hstep
    rw [List.length_cons] at hdepth
    refine ⟨by omega, ?_, by simp [hseen, hroot, element?]⟩
    simp only [List.countP_append, List.countP_singleton, isStart, isFinish, Bool.false_eq_true,
      if_true, if_false]
    omega
  · -- something beside the elements
    obtain ⟨_, ⟨⟩, -⟩ | ⟨_, ⟨⟩, -⟩ | ⟨⟨⟩, -⟩ | ⟨-, -, -, rfl⟩ := step_cases hstep
    exact ⟨hdepth, by simpa [isStart, isFinish] using hcount, by simp [hroot, element?]⟩

/-- So do all events that are handled without an error. -/
theorem run (h : Agrees handled reader p) {lexemes : List Lexeme} {events : List Event}
    {last : Reader} (hreads : reader.Reads lexemes events last) {q : Progress}
    (hrun : p.run (events.map .ok) = .ok q) : Agrees (handled ++ events) last q := by
  induction hreads generalizing handled p with
  | nil reader =>
    cases hrun
    rwa [List.append_nil]
  | cons hread _ ih =>
    obtain ⟨p', hstep, hrun⟩ := bind_eq_ok_iff.1 hrun
    have hrest := ih (h.step hread hstep) hrun
    rwa [List.append_assoc] at hrest

theorem seenRoot_of_pos (h : Agrees handled reader p) (hpos : 0 < p.depth) :
    p.seenRoot = true := by
  have hcount := h.count_eq
  have hstarts : 0 < handled.countP isStart := by omega
  obtain ⟨event, hmem, hstart⟩ := List.countP_pos_iff.1 hstarts
  refine h.seenRoot_iff.2 ⟨event, hmem, ?_⟩
  cases event with
  | start e => simp [element?]
  | _ => cases hstart

/-- The reader closes no element without one. -/
theorem pos_of_finish (h : Agrees handled reader p) {l : Lexeme} {next : Reader}
    (hread : reader.step l = .ok (.finish, next)) : 0 < p.depth := by
  obtain ⟨_, ⟨⟩, -⟩ | ⟨_, _, -, ⟨⟩, -⟩ | ⟨_, _, -, ⟨⟩, -⟩ | ⟨frame, -, rfl⟩ | ⟨⟨⟩, -⟩ :=
    Reader.step_cases hread
  rw [h.depth_eq, List.length_cons]
  omega

/-- An element outside of all others comes before all others. -/
theorem first_of_step (h : Agrees handled reader p) {event : Event} {q : Progress}
    (hdepth : p.depth = 0) (helement : event.element? ≠ none) (hstep : p.step event = .ok q) :
    ∀ other ∈ handled, other.element? = none := by
  have hroot : p.seenRoot = false := by
    obtain ⟨_, -, hfirst, -⟩ | ⟨_, -, hfirst, -⟩ | ⟨rfl, -⟩ | ⟨-, -, hnone, -⟩ := step_cases hstep
    · exact hfirst hdepth
    · exact hfirst hdepth
    · exact absurd rfl helement
    · exact absurd hnone helement
  intro other hother
  cases hother' : other.element? with
  | none => rfl
  | some e =>
    have hseen := h.seenRoot_iff.2 ⟨other, hother, by simp [hother']⟩
    rw [hroot] at hseen
    cases hseen

end Agrees

end Progress

/-- **The count of open elements is exact.** At every point of a document that is reached without an
error it is the length of the reader's stack and the number of elements opened and not closed. No end
tag is handled at zero, the root was met wherever it is not zero, and an element that is accepted at
zero is the first of the document. -/
theorem depth_eq_length_open {document : List Char} {before : List Event}
    {after : List (Except ReadError Event)} {p : Progress}
    (hscan : Event.scan document = before.map .ok ++ after)
    (hrun : Progress.initial.run (before.map .ok) = .ok p) :
    ∃ lexemes rest reader, Lexeme.scan (withoutMark document) = lexemes.map .ok ++ rest ∧
      Reader.Reads [] lexemes before reader ∧ after = Event.ofLexemes reader rest ∧
      p.depth = reader.length ∧
      p.depth + before.countP isFinish = before.countP isStart ∧
      (0 < p.depth → p.seenRoot = true) ∧
      ∀ event more, after = .ok event :: more →
        (event = .finish → 0 < p.depth) ∧
        ∀ q, p.depth = 0 → event.element? ≠ none → p.step event = .ok q →
          ∀ other ∈ before, other.element? = none := by
  obtain ⟨lexemes, rest, reader, hlexemes, hreads, hafter⟩ := exists_reads_of_ofLexemes hscan
  have hagrees : Progress.Agrees before reader p := Progress.Agrees.initial.run hreads hrun
  refine ⟨lexemes, rest, reader, hlexemes, hreads, hafter, hagrees.depth_eq, hagrees.count_eq,
    hagrees.seenRoot_of_pos, fun event more hnext => ⟨?_, fun q hdepth helement hstep => ?_⟩⟩
  · rintro rfl
    have hfinish : ofLexemes reader rest = [Event.finish].map .ok ++ more := hafter.symm.trans hnext
    obtain ⟨_, _, _, -, hread, -⟩ := exists_reads_of_ofLexemes hfinish
    cases hread with
    | cons hstep _ => exact hagrees.pos_of_finish hstep
  · exact hagrees.first_of_step hdepth helement hstep

/-! Before the first of two end tags with the same name. -/

namespace NestedDecks

def document : List Char := "<Deck><Deck>x</Deck></Deck>".toList

def deck : Event := .start ⟨"Deck".toList, Scope.initial⟩

def before : List Event := [deck, deck, .text "x".toList]

def found : References := ⟨NameSet.ofList ["Deck"], ∅⟩

theorem scan_and_run :
    Event.scan document = before.map .ok ++ [.ok .finish, .ok .finish] ∧
      Progress.initial.run (before.map .ok) = .ok ⟨2, true, found⟩ := by
  decide +kernel

end NestedDecks

theorem depth_eq_length_open_nestedDecks :
    (Event.scan NestedDecks.document =
        NestedDecks.before.map .ok ++ [.ok .finish, .ok .finish] ∧
      Progress.initial.run (NestedDecks.before.map .ok) = .ok ⟨2, true, NestedDecks.found⟩) ∧
    ∃ lexemes reader, Reader.Reads [] lexemes NestedDecks.before reader ∧ 2 = reader.length := by
  obtain ⟨hscan, hrun⟩ := NestedDecks.scan_and_run
  obtain ⟨lexemes, _, reader, -, hreads, -, hlength, -⟩ := depth_eq_length_open hscan hrun
  exact ⟨⟨hscan, hrun⟩, lexemes, reader, hreads, hlength⟩

end LayoutShell.Layout
