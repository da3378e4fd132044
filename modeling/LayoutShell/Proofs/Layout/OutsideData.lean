import LayoutShell.Proofs.Layout.Documents
import LayoutShell.Proofs.Layout.Replacements
import LayoutShell.Proofs.Markup.Escape

/-!
# Character data outside the root

Outside of all elements a document may hold white space. A text there is judged by what it reads as
when its references are resolved, and a CDATA section is passed over like a comment.

* `Entity.Shows` says where a character stands in a text, by itself or by a reference, and
  `Entity.Shows.mem` that it stands in what the text reads as.
* `Lexeme.Outside` is a lexeme with as many elements closed before it as opened, and
  `exists_proceed_of_append` counts them along a run.
* `exists_error_iff_of_outside`: a document with data outside of its elements is refused if that is
  a text. A CDATA section there decides nothing.
-/

namespace LayoutShell.Markup

open Text

/-! ## Characters of a text -/

namespace Entity

/-- The text begins with a reference. -/
def BeginsReference (s : List Char) : Prop :=
  ∃ name rest, s = '&' :: name ++ ';' :: rest ∧ ∀ d ∈ name, d ≠ '&' ∧ d ≠ ';'

/-- The text shows the character: by itself, outside of references, or by a reference. -/
inductive Shows (c : Char) : List Char → Prop
  | plain {s : List Char} (h : ¬BeginsReference (c :: s)) : Shows c (c :: s)
  | reference {name : List Char} (hname : ∀ d ∈ name, d ≠ '&' ∧ d ≠ ';')
      (hc : ∀ start stop, resolve start stop name = .ok c) (s : List Char) :
      Shows c ('&' :: name ++ ';' :: s)
  | behindPlain {d : Char} {s : List Char} (h : ¬BeginsReference (d :: s)) (shows : Shows c s) :
      Shows c (d :: s)
  | behindReference {name s : List Char} (hname : ∀ d ∈ name, d ≠ '&' ∧ d ≠ ';')
      (shows : Shows c s) : Shows c ('&' :: name ++ ';' :: s)

theorem exists_of_cutAtMark {s name rest : List Char} {mark : Char}
    (h : cutAtMark s = some (name, mark, rest)) :
    s = name ++ mark :: rest ∧ ∀ d ∈ name, d ≠ '&' ∧ d ≠ ';' := by
  induction s generalizing name with
  | nil => cases h
  | cons c s ih =>
    rw [cutAtMark] at h
    split at h
    · cases h
      exact ⟨rfl, by simp⟩
    · next hc =>
      obtain ⟨⟨name, mark, rest⟩, hcut, h⟩ := Option.map_eq_some_iff.1 h
      cases h
      obtain ⟨rfl, hname⟩ := ih hcut
      exact ⟨rfl, List.forall_mem_cons.2 ⟨not_or.1 hc, hname⟩⟩

/-- An ampersand that begins no reference cannot be read. -/
theorem expandFrom_of_not_beginsReference {s : List Char} (h : ¬BeginsReference ('&' :: s))
    (start total : Nat) :
    expandFrom start total ('&' :: s) = .error (.unterminated start total) := by
  rw [expandFrom_mark, expandMark]
  split
  · next name rest hcut =>
    obtain ⟨rfl, hname⟩ := exists_of_cutAtMark hcut
    exact absurd ⟨name, rest, rfl, hname⟩ h
  · rfl

/-- A character that begins no reference is read as itself, if the text can be read. -/
theorem exists_of_expandFrom_plain {c : Char} {s text : List Char} {start total : Nat}
    (hc : ¬BeginsReference (c :: s)) (h : expandFrom start total (c :: s) = .ok text) :
    ∃ start' tail, expandFrom start' total s = .ok tail ∧ text = c :: tail := by
  by_cases hmark : c = '&'
  · subst hmark
    rw [expandFrom_of_not_beginsReference hc] at h
    cases h
  · rw [expandFrom_cons hmark] at h
    obtain ⟨tail, htail, rfl⟩ := map_eq_ok_iff.1 h
    exact ⟨_, tail, htail, rfl⟩

/-- A character that a text shows stands in what the text reads as. -/
theorem Shows.mem {c : Char} {s : List Char} (hs : Shows c s) {start total : Nat} {text : List Char}
    (h : expandFrom start total s = .ok text) : c ∈ text := by
  induction hs generalizing start text with
  | plain hc =>
    obtain ⟨_, tail, -, rfl⟩ := exists_of_expandFrom_plain hc h
    exact List.mem_cons_self
  | reference hname hc s =>
    rw [expandFrom_named hname hc] at h
    obtain ⟨tail, -, rfl⟩ := map_eq_ok_iff.1 h
    exact List.mem_cons_self
  | behindPlain hd _ ih =>
    obtain ⟨_, tail, htail, rfl⟩ := exists_of_expandFrom_plain hd h
    exact List.mem_cons_of_mem _ (ih htail)
  | behindReference hname _ ih =>
    rw [expandFrom_reference hname] at h
    obtain ⟨d, -, h⟩ := bind_eq_ok_iff.1 h
    obtain ⟨tail, htail, rfl⟩ := map_eq_ok_iff.1 h
    exact List.mem_cons_of_mem _ (ih htail)

end Entity

/-! ## Lexemes outside of all elements -/

namespace Lexeme

def isStartTag : Lexeme → Bool
  | .startTag _ => true
  | _ => false

def isEndTag : Lexeme → Bool
  | .endTag _ => true
  | _ => false

/-- The character data of the lexeme holds the character. -/
def Holds (c : Char) : Lexeme → Prop
  | .text content => Entity.Shows c content
  | .cdata content => c ∈ content
  | _ => False

/-- A lexeme of the document, with those before and after it. All elements that are opened before it
are closed there. -/
structure Outside (document : List Char) (before : List Lexeme) (l : Lexeme)
    (after : List (Except Fault Lexeme)) : Prop where
  scan_eq : scan (Event.withoutMark document) = before.map .ok ++ .ok l :: after
  closed : before.countP isEndTag = before.countP isStartTag

end Lexeme

end LayoutShell.Markup

namespace LayoutShell.Layout

open Markup Text
open Lexeme (isStartTag isEndTag)

namespace Progress

/-- A lexeme opens an element, closes one, or leaves their number as it is. -/
theorem depth_of_step {p q : Progress} {reader reader' : Reader} {l : Lexeme} {event : Event}
    (hp : p.depth = reader.length) (hl : reader.step l = .ok (event, reader'))
    (hq : p.step event = .ok q) : q.depth = reader'.length ∧
      q.depth + [l].countP isEndTag = p.depth + [l].countP isStartTag := by
  cases l with
  | text content =>
    cases hl
    obtain ⟨-, -, rfl⟩ := step_text_eq_ok_iff.1 hq
    exact ⟨hp, rfl⟩
  | startTag content =>
    obtain ⟨e, -, hl⟩ := bind_eq_ok_iff.1 hl
    cases hl
    obtain ⟨q', hq', hq⟩ := bind_eq_ok_iff.1 hq
    cases hq
    obtain ⟨r, -, rfl⟩ := exists_addElement_of_visit hq'
    exact ⟨congrArg (· + 1) hp, rfl⟩
  | emptyTag content =>
    obtain ⟨e, -, hl⟩ := bind_eq_ok_iff.1 hl
    cases hl
    obtain ⟨r, -, rfl⟩ := exists_addElement_of_visit hq
    exact ⟨hp, rfl⟩
  | endTag content =>
    cases reader with
    | nil => cases hl
    | cons frame outer =>
      simp only [Reader.step] at hl
      split at hl
      · cases hl
        cases hq
        rw [List.length_cons] at hp
        exact ⟨by simp [hp], by simp [hp, isEndTag, isStartTag]⟩
      · cases hl
  | comment | cdata | doctype | instruction =>
    cases hl
    cases hq
    exact ⟨hp, rfl⟩

/-- Along a run, the number of open elements is what is opened less what is closed. -/
theorem exists_proceed_of_append {p q : Progress} {reader : Reader} (hp : p.depth = reader.length)
    {ls : List Lexeme} {xs : List (Except Fault Lexeme)}
    (h : p.proceed reader (ls.map .ok ++ xs) = .ok q) :
    ∃ (p' : Progress) (reader' : Reader),
      p'.depth + ls.countP isEndTag = p.depth + ls.countP isStartTag ∧
        p'.proceed reader' xs = .ok q := by
  induction ls generalizing p reader with
  | nil => exact ⟨p, reader, rfl, h⟩
  | cons l ls ih =>
    rw [List.map_cons, List.cons_append] at h
    cases hl : reader.step l with
    | error e =>
      rw [proceed_of_error hl] at h
      cases h
    | ok x =>
      obtain ⟨event, reader'⟩ := x
      rw [proceed_of_step hl] at h
      obtain ⟨p₁, hp₁, h⟩ := bind_eq_ok_iff.1 h
      obtain ⟨hdepth, hcount⟩ := depth_of_step hp hl hp₁
      obtain ⟨p', reader', hcounts, h⟩ := ih hdepth h
      have hcons : ∀ f : Lexeme → Bool, (l :: ls).countP f = [l].countP f + ls.countP f :=
        fun f => by rw [← List.countP_append, List.singleton_append]
      refine ⟨p', reader', ?_, h⟩
      rw [hcons, hcons]
      omega

end Progress

open Progress

/-- A text outside of all elements is refused if it shows more than white space. -/
theorem exists_error_of_outside_text {document content : List Char} {before : List Lexeme}
    {after : List (Except Fault Lexeme)} (h : Lexeme.Outside document before (.text content) after)
    {c : Char} (hcontent : Entity.Shows c content) (hc : isSpace c = false) :
    ∃ e, References.parse document = .error e := by
  cases hparse : References.parse document with
  | error e => exact ⟨e, rfl⟩
  | ok r =>
    rw [parse_eq_referencesOf, h.scan_eq] at hparse
    obtain ⟨q, hq, -⟩ := bind_eq_ok_iff.1 hparse
    obtain ⟨p, reader, hcount, hq⟩ := exists_proceed_of_append rfl hq
    rw [proceed_of_step rfl] at hq
    obtain ⟨p', hp', -⟩ := bind_eq_ok_iff.1 hq
    obtain ⟨-, hblank, rfl⟩ := step_text_eq_ok_iff.1 hp'
    have hdepth : p.depth = 0 := by
      have hclosed := h.closed
      have hinitial : initial.depth = 0 := rfl
      omega
    obtain ⟨_, text, ⟨⟩, htext, hspace⟩ := hblank hdepth
    have hmem := List.all_eq_true.1 hspace c (hcontent.mem htext)
    rw [hc] at hmem
    cases hmem

/-- **A document with data outside of its elements is refused if that is a text. A CDATA section is
passed over.** -/
theorem exists_error_iff_of_outside {document : List Char} {before : List Lexeme} {l : Lexeme}
    {after : List (Except Fault Lexeme)} (h : Lexeme.Outside document before l after) {c : Char}
    (hl : l.Holds c) (hc : isSpace c = false) :
    (∃ e, References.parse document = .error e) ↔ (∃ content, l = .text content) ∨
      ∃ e, referencesOf (before.map .ok ++ after) = .error e := by
  cases l with
  | text content => exact iff_of_true (exists_error_of_outside_text h hl hc) (.inl ⟨content, rfl⟩)
  | cdata content =>
    have haside : Interchangeable (.ok (.cdata content) :: after) after :=
      interchangeable_aside (fun _ => rfl) after
    rw [parse_eq_referencesOf, h.scan_eq, (haside.append before).referencesOf_eq,
      or_iff_right (by simp)]
  | startTag | emptyTag | endTag | comment | doctype | instruction => exact hl.elim

/-! A character that is given by its number is data. So is the content of a CDATA section, but that is
not looked at. -/

theorem exists_error_iff_of_outside_numbered :
    Lexeme.Outside "<Deck/> &#88;".toList [.emptyTag "Deck".toList] (.text "&#88;".toList) [] ∧
    (Lexeme.text "&#88;".toList).Holds 'X' ∧ isSpace 'X' = false ∧
    ∃ e, References.parse "<Deck/> &#88;".toList = .error e := by
  have hroot : Lexeme.read "<Deck/> &#88;".toList =
      .found (.emptyTag "Deck".toList) " &#88;".toList := by decide
  have htext : Lexeme.read " &#88;".toList = .found (.text "&#88;".toList) [] := by decide
  have houtside : Lexeme.Outside "<Deck/> &#88;".toList [.emptyTag "Deck".toList]
      (.text "&#88;".toList) [] := by
    refine ⟨(Lexeme.scan_of_read hroot).trans ?_, rfl⟩
    rw [Lexeme.scan_of_read htext, Lexeme.scan_of_done rfl]
    rfl
  have hname : ∀ d ∈ "#88".toList, d ≠ '&' ∧ d ≠ ';' := forall_mem_of_all (by decide)
  have hholds : (Lexeme.text "&#88;".toList).Holds 'X' := .reference hname (fun _ _ => rfl) []
  exact ⟨houtside, hholds, by decide,
    (exists_error_iff_of_outside houtside hholds (by decide)).2 (.inl ⟨_, rfl⟩)⟩

theorem accepted_of_outside_section :
    Lexeme.Outside "<Deck/><![CDATA[x]]>".toList [.emptyTag "Deck".toList] (.cdata "x".toList) [] ∧
    (Lexeme.cdata "x".toList).Holds 'x' ∧ isSpace 'x' = false ∧
    (References.parse "<Deck/><![CDATA[x]]>".toList).isOk = true := by
  have hroot : Lexeme.read "<Deck/><![CDATA[x]]>".toList =
      .found (.emptyTag "Deck".toList) "<![CDATA[x]]>".toList := by decide
  have hsection : Lexeme.read "<![CDATA[x]]>".toList = .found (.cdata "x".toList) [] := by decide
  have houtside : Lexeme.Outside "<Deck/><![CDATA[x]]>".toList [.emptyTag "Deck".toList]
      (.cdata "x".toList) [] := by
    refine ⟨(Lexeme.scan_of_read hroot).trans ?_, rfl⟩
    rw [Lexeme.scan_of_read hsection, Lexeme.scan_of_done rfl]
    rfl
  have haccepted : (References.parse "<Deck/><![CDATA[x]]>".toList).isOk = true := by
    decide +kernel
  exact ⟨houtside, List.mem_singleton.2 rfl, by decide, haccepted⟩

end LayoutShell.Layout
