import LayoutShell.Proofs.Layout.Rendering
import LayoutShell.Proofs.Markup.Places

/-!
# Parts of a document that can be replaced

A part of a document can be replaced by another if reading both comes to the same in whatever state
the reader is, and if the parts before and behind it are read as they were.

* `Interchangeable` compares lexemes in every state, and `parse_replace` puts one part of a document
  in the place of another.
* `parse_longForm`: an empty tag is as good as a start tag and its end tag.
* `parse_insert_comment`: a comment between two events is not noticed.
-/

namespace LayoutShell.Layout

open Markup Text Progress

/-! ## Lexemes in context -/

/-- Reading the lexemes comes to the same in every state. -/
def Interchangeable (xs ys : List (Except Fault Lexeme)) : Prop :=
  ∀ p reader, Progress.proceed p reader xs = Progress.proceed p reader ys

theorem Interchangeable.append {xs ys : List (Except Fault Lexeme)} (h : Interchangeable xs ys)
    (ls : List Lexeme) : Interchangeable (ls.map .ok ++ xs) (ls.map .ok ++ ys) := by
  induction ls with
  | nil => exact h
  | cons l ls ih =>
    intro p reader
    rw [List.map_cons, List.cons_append, List.cons_append]
    cases hstep : reader.step l with
    | error e => rw [proceed_of_error hstep, proceed_of_error hstep]
    | ok x =>
      obtain ⟨event, reader'⟩ := x
      rw [proceed_of_step hstep, proceed_of_step hstep]
      exact bind_congr fun q => ih q reader'

/-- The references of a document with the given lexemes. -/
def referencesOf (lexemes : List (Except Fault Lexeme)) : Except LayoutError References :=
  Progress.initial.proceed [] lexemes >>= finish

theorem parse_eq_referencesOf (document : List Char) :
    References.parse document = referencesOf (Lexeme.scan (Event.withoutMark document)) :=
  rfl

theorem Interchangeable.referencesOf_eq {xs ys : List (Except Fault Lexeme)}
    (h : Interchangeable xs ys) : referencesOf xs = referencesOf ys := by
  rw [referencesOf, h, ← referencesOf]

/-- What follows a place between two events can be replaced, if a bracket follows then. -/
theorem parse_replace {before after after' : List Char} (hgap : Event.Gap (before ++ after) after)
    (hhead : after'.head? = some '<')
    (h : Interchangeable (Lexeme.scan after') (Lexeme.scan after)) :
    References.parse (before ++ after') = References.parse (before ++ after) := by
  obtain ⟨t, rfl⟩ := List.head?_eq_some_iff.1 hhead
  obtain ⟨ls, hafter, ht⟩ := hgap.exists_scan
  rw [parse_eq_referencesOf, parse_eq_referencesOf, hafter, ht, (h.append ls).referencesOf_eq]

/-! ## Empty tags -/

theorem endName_nameOf (content : List Char) :
    Reader.endName (Element.nameOf content) = Element.nameOf content := by
  have hname : ∀ c ∈ Element.nameOf content, isMarkupSpace c = false := fun c hc => by
    simpa using List.all_eq_true.1 List.all_takeWhile c hc
  rw [Reader.endName, dropRightWhile_of_not hname, ite_self]

/-- The slash of an empty tag is not needed to close it. -/
theorem cutTag_of_slash {quote : Option Char} (hquote : quote ≠ some '/') {s t : List Char}
    (h : cutTag quote (s ++ '/' :: '>' :: t) = (s ++ ['/'], t)) (u : List Char) :
    cutTag quote (s ++ '>' :: u) = (s, u) := by
  induction s generalizing quote with
  | nil =>
    cases quote with
    | none => rfl
    | some q =>
      have hq : '/' ≠ q := fun h => hquote (congrArg some h.symm)
      simp [cutTag, nextQuote, hq] at h
  | cons c s ih =>
    have hnext : nextQuote quote c ≠ some '/' := by
      unfold nextQuote
      split
      · split
        · next hc =>
          rintro ⟨⟩
          revert hc
          decide
        · exact (Option.some_ne_none _).symm
      · split
        · exact (Option.some_ne_none _).symm
        · exact hquote
    rw [List.cons_append, cutTag] at h ⊢
    split at h
    · cases (Prod.mk.inj h).1
    · next hc =>
      rw [if_neg hc]
      obtain ⟨hbefore, hafter⟩ := Prod.mk.inj h
      rw [ih hnext (Prod.ext (List.cons.inj hbefore).2 hafter)]

/-- The content of an empty tag is cut off with its slash. -/
theorem cutTag_of_emptyTag {s content rest : List Char}
    (h : Lexeme.readTag s = .found (.emptyTag content) rest) :
    cutTag none s = (content ++ ['/'], rest) := by
  unfold Lexeme.readTag at h
  generalize cutTag none s = cut at h ⊢
  obtain ⟨before, rest⟩ := cut
  dsimp only at h
  split at h
  · next hlast =>
    obtain ⟨before, rfl⟩ := List.getLast?_eq_some_iff.1 hlast
    rw [List.dropLast_concat] at h
    cases h
    rfl
  · cases h

/-- Without its slash an empty tag is read as a start tag. -/
theorem read_startTag_of_emptyTag {content after : List Char}
    (h : Lexeme.read ('<' :: content ++ '/' :: '>' :: after) = .found (.emptyTag content) after)
    (hslash : content.getLast? ≠ some '/') (t : List Char) :
    Lexeme.read ('<' :: content ++ '>' :: t) = .found (.startTag content) t := by
  rw [Lexeme.read, List.cons_append, List.dropWhile_cons_of_neg (by decide)] at h ⊢
  obtain ⟨c, u, hu, hc, htag⟩ := Lexeme.exists_readTag h
  rw [← (List.cons.inj hu).2] at htag
  have hread : Lexeme.readTag (content ++ '>' :: t) = .found (.startTag content) t := by
    rw [Lexeme.readTag, cutTag_of_slash (Option.some_ne_none _).symm (cutTag_of_emptyTag htag)]
    exact if_neg hslash
  rw [← hread]
  cases content with
  | nil => exact absurd (List.cons.inj (List.cons.inj hu).2).1.symm hc.2.2
  | cons d w =>
    obtain rfl := (List.cons.inj (List.cons.inj hu).2).1
    exact Lexeme.readTrimmed_tag hc.1 hc.2.1 hc.2.2 _

/-- An empty element is entered and left at once. -/
theorem interchangeable_emptyTag (content : List Char) (xs : List (Except Fault Lexeme)) :
    Interchangeable (.ok (.startTag content) :: .ok (.endTag (Element.nameOf content)) :: xs)
      (.ok (.emptyTag content) :: xs) := by
  intro p reader
  cases he : Reader.element reader.scope content with
  | error e =>
    rw [proceed_of_error (Reader.step_startTag_of_error he),
      proceed_of_error (Reader.step_emptyTag_of_error he)]
  | ok e =>
    have hend : Reader.step (⟨e.name, e.scope⟩ :: reader) (.endTag (Element.nameOf content)) =
        .ok (.finish, reader) := by
      have hname : e.name = Element.nameOf content := by
        rw [Element.name, (Reader.element_eq_ok he).1]
      simp only [Reader.step, endName_nameOf, hname, if_true]
    rw [proceed_of_step (Reader.step_startTag he), proceed_of_step (Reader.step_emptyTag he), step,
      step, bind_assoc]
    refine bind_congr fun q => ?_
    rw [pure_bind, proceed_of_step hend]
    rfl

/-- An element without content, written as one tag. -/
def shortForm (content : List Char) : List Char := '<' :: content ++ ['/', '>']

/-- The same element with an end tag. -/
def longForm (content : List Char) : List Char :=
  '<' :: content ++ ['>', '<', '/'] ++ Element.nameOf content ++ ['>']

/-- **An empty tag can be replaced by a start tag and an end tag.** -/
theorem parse_longForm {before content after : List Char}
    (begins : Event.BeginsAt (before ++ (shortForm content ++ after)) (shortForm content ++ after))
    (met : Lexeme.read (shortForm content ++ after) = .found (.emptyTag content) after)
    (hslash : content.getLast? ≠ some '/') (hname : '>' ∉ Element.nameOf content) :
    References.parse (before ++ (longForm content ++ after)) =
      References.parse (before ++ (shortForm content ++ after)) := by
  have hshort : shortForm content ++ after = '<' :: content ++ '/' :: '>' :: after := by
    simp [shortForm]
  have hlong : longForm content ++ after =
      '<' :: content ++ '>' :: ('<' :: '/' :: Element.nameOf content ++ '>' :: after) := by
    simp [longForm]
  rw [hshort] at begins met ⊢
  rw [hlong]
  refine parse_replace (.before begins) rfl ?_
  rw [Lexeme.scan_of_read met, Lexeme.scan_of_read (read_startTag_of_emptyTag met hslash _),
    Lexeme.scan_of_read (read_closedEndTag hname after)]
  exact interchangeable_emptyTag content _

/-! The slash of an attribute's value and the bracket in it belong to the tag. -/

namespace Deck

def opening : List Char := "<Deck>".toList

def card : List Char := "Card face=\"2>1/\"".toList

def closing : List Char := "</Deck>".toList

end Deck

theorem parse_longForm_deck :
    Event.BeginsAt (Deck.opening ++ (shortForm Deck.card ++ Deck.closing))
      (shortForm Deck.card ++ Deck.closing) ∧
    Lexeme.read (shortForm Deck.card ++ Deck.closing) =
      .found (.emptyTag Deck.card) Deck.closing ∧
    Deck.card.getLast? ≠ some '/' ∧ '>' ∉ Element.nameOf Deck.card ∧
    Deck.opening ++ (longForm Deck.card ++ Deck.closing) =
      "<Deck><Card face=\"2>1/\"></Card></Deck>".toList ∧
    References.parse (Deck.opening ++ (longForm Deck.card ++ Deck.closing)) =
      References.parse (Deck.opening ++ (shortForm Deck.card ++ Deck.closing)) := by
  have first : Lexeme.read (Deck.opening ++ (shortForm Deck.card ++ Deck.closing)) =
      .found (.startTag "Deck".toList) (shortForm Deck.card ++ Deck.closing) := by decide
  have begins : Event.BeginsAt (Deck.opening ++ (shortForm Deck.card ++ Deck.closing))
      (shortForm Deck.card ++ Deck.closing) := .next first (.here _)
  have met : Lexeme.read (shortForm Deck.card ++ Deck.closing) =
      .found (.emptyTag Deck.card) Deck.closing := by decide
  exact ⟨begins, met, by decide, by decide, by decide,
    parse_longForm begins met (by decide) (by decide)⟩

/-! ## Comments -/

/-- A lexeme that is no event of its own is not noticed. -/
theorem interchangeable_aside {l : Lexeme}
    (hl : ∀ reader : Reader, reader.step l = .ok (.aside, reader))
    (xs : List (Except Fault Lexeme)) : Interchangeable (.ok l :: xs) xs := fun p reader => by
  rw [proceed_of_step (hl reader)]
  rfl

/-- A word `aab`, with `a` and `b` different, is found behind a text that does not hold it. -/
theorem cutAtWord_of_absent {a b : Char} (hab : a ≠ b) {s : List Char}
    (hs : ¬[a, a, b] <:+: s) (t : List Char) :
    cutAtWord [a, a, b] (s ++ ([a, a, b] ++ t)) = some (s, t) := by
  induction s with
  | nil => simp [cutAtWord]
  | cons c s ih =>
    have hprefix : ¬[a, a, b] <+: c :: (s ++ ([a, a, b] ++ t)) := by
      -- the word could only begin before its place if it overlapped with itself
      intro h
      obtain ⟨hc, hprefix⟩ := List.cons_prefix_cons.1 h
      rcases s with _ | ⟨d, _ | ⟨e, s⟩⟩
      · exact hab (List.cons_prefix_cons.1 (List.cons_prefix_cons.1 hprefix).2).1.symm
      · exact hab (List.cons_prefix_cons.1 (List.cons_prefix_cons.1 hprefix).2).1.symm
      · obtain ⟨hd, hprefix⟩ := List.cons_prefix_cons.1 hprefix
        obtain ⟨he, -⟩ := List.cons_prefix_cons.1 hprefix
        subst hc hd he
        exact hs (List.infix_append [] _ s)
    have htail : ¬[a, a, b] <:+: s := fun h => hs (List.infix_cons h)
    rw [List.cons_append, cutAtWord, if_neg (by rwa [List.isPrefixOf_iff_prefix]), ih htail]
    rfl

/-- The text of a comment. -/
def commentText (content : List Char) : List Char :=
  '<' :: '!' :: '-' :: '-' :: content ++ ['-', '-', '>']

theorem read_commentText {content : List Char} (h : ¬['-', '-', '>'] <:+: content) (t : List Char) :
    Lexeme.read (commentText content ++ t) = .found (.comment content) t := by
  have htext : commentText content ++ t =
      '<' :: '!' :: '-' :: '-' :: (content ++ (['-', '-', '>'] ++ t)) := by
    simp [commentText]
  rw [htext, Lexeme.read, List.dropWhile_cons_of_neg (by decide)]
  exact Lexeme.readBang_comment (cutAtWord_of_absent (by decide) h t)

/-- **A comment between two events is not noticed.** -/
theorem parse_insert_comment {before after content : List Char}
    (hgap : Event.Gap (before ++ after) after) (hcontent : ¬['-', '-', '>'] <:+: content) :
    References.parse (before ++ (commentText content ++ after)) =
      References.parse (before ++ after) := by
  refine parse_replace hgap rfl ?_
  rw [Lexeme.scan_of_read (read_commentText hcontent after)]
  exact interchangeable_aside (fun _ => rfl) _

/-! Inside the root a comment may hold all but its end. Behind a bracket that the reader passes over
it is no comment. -/

theorem parse_insert_comment_deck :
    Event.Gap (Deck.opening ++ Deck.closing) Deck.closing ∧
    ¬['-', '-', '>'] <:+: "<Card/> ->--".toList ∧
    References.parse (Deck.opening ++ (commentText "<Card/> ->--".toList ++ Deck.closing)) =
      References.parse (Deck.opening ++ Deck.closing) := by
  have first : Lexeme.read (Deck.opening ++ Deck.closing) =
      .found (.startTag "Deck".toList) Deck.closing := by decide
  have hgap : Event.Gap (Deck.opening ++ Deck.closing) Deck.closing :=
    .before (.next first (.here _))
  exact ⟨hgap, by decide, parse_insert_comment hgap (by decide)⟩

theorem not_insert_comment_of_looseBracket :
    Event.BeginsAt "<Card/><".toList "<Card/><".toList ∧
    Lexeme.read "<Card/><".toList = .found (.emptyTag "Card".toList) ['<'] ∧
    (Lexeme.emptyTag "Card".toList).Closed "<Card/><".toList ['<'] ∧
    Lexeme.read ['<'] = .done ∧ ¬['-', '-', '>'] <:+: "note".toList ∧
    (References.parse "<Card/><".toList).isOk = true ∧
    References.parse ("<Card/><".toList ++ commentText "note".toList) = .error .secondRoot := by
  have hparse : (References.parse "<Card/><".toList).isOk = true ∧
      References.parse ("<Card/><".toList ++ commentText "note".toList) = .error .secondRoot := by
    decide +kernel
  exact ⟨.here _, by decide, rfl, rfl, by decide, hparse⟩

end LayoutShell.Layout
