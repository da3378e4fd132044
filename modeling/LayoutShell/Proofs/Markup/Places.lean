import LayoutShell.Proofs.Markup.Tree
import Mathlib.Data.List.Infix

/-!
# Places in a document

A lexeme that is closed by its bracket is the same lexeme whatever follows it, and a text is the
same text before any bracket. So what is read before a place in a document does not depend on what
stands behind that place.

* `Lexeme.Closed` tells a lexeme that is closed from one that the end of the document ends.
* `Lexeme.exists_read_append`: a lexeme is read again if what follows it begins in the same way.
* `Event.BeginsAt` says where the reader of a document begins an event, and `Event.Gap` where it
  stands between two events.
* `Event.Gap.exists_scan`: the lexemes before such a place are those of any document that begins in
  the same way.
-/

namespace LayoutShell.Markup

open Text

/-! ## Cutting -/

/-- A text is cut at the first `stop`, or not at all. -/
theorem cutAt_cases (stop : Char) (s : List Char) :
    (∃ before after, s = before ++ stop :: after ∧
      ∀ t, cutAt stop (before ++ stop :: t) = (before, t)) ∨ cutAt stop s = (s, []) := by
  by_cases h : stop ∈ s
  · obtain ⟨before, after, rfl, hbefore⟩ := List.eq_append_cons_of_mem h
    exact .inl ⟨before, after, rfl, cutAt_append fun c hc => ne_of_mem_of_not_mem hc hbefore⟩
  · exact .inr (cutAt_of_not_mem h)

/-- A tag is cut at a bracket outside quotes, or not at all. -/
theorem cutTag_cases (quote : Option Char) (s : List Char) :
    (∃ before after, s = before ++ '>' :: after ∧
      ∀ t, cutTag quote (before ++ '>' :: t) = (before, t)) ∨ cutTag quote s = (s, []) := by
  induction s generalizing quote with
  | nil => exact .inr rfl
  | cons c s ih =>
    by_cases hc : c = '>' ∧ quote = none
    · obtain ⟨rfl, rfl⟩ := hc
      exact .inl ⟨[], s, rfl, fun _ => rfl⟩
    · have hcons : ∀ t, cutTag quote (c :: t) =
          (c :: (cutTag (nextQuote quote c) t).1, (cutTag (nextQuote quote c) t).2) :=
        fun _ => if_neg hc
      rcases ih (nextQuote quote c) with ⟨before, after, rfl, h⟩ | h
      · refine .inl ⟨c :: before, after, rfl, fun t => ?_⟩
        rw [List.cons_append, hcons, h]
      · refine .inr ?_
        rw [hcons, h]

/-- A text is cut at the first occurrence of a word, whatever follows that word. -/
theorem cutAtWord_append {stop s before after : List Char} (hstop : stop ≠ [])
    (h : cutAtWord stop s = some (before, after)) :
    s = before ++ (stop ++ after) ∧
      ∀ t, cutAtWord stop (before ++ (stop ++ t)) = some (before, t) := by
  induction s generalizing before with
  | nil => cases h
  | cons c s ih =>
    rw [cutAtWord] at h
    split at h
    · next hprefix =>
      obtain ⟨rfl, rfl⟩ := Prod.mk.inj (Option.some.inj h)
      obtain ⟨rest, hrest⟩ := List.isPrefixOf_iff_prefix.1 hprefix
      rw [← hrest, List.drop_left]
      refine ⟨rfl, fun t => ?_⟩
      obtain ⟨d, stop, rfl⟩ := List.exists_cons_of_ne_nil hstop
      rw [List.nil_append, List.cons_append, cutAtWord, ← List.cons_append,
        if_pos (List.isPrefixOf_iff_prefix.2 (List.prefix_append _ _)), List.drop_left]
    · next hprefix =>
      obtain ⟨⟨before, after⟩, hcut, h⟩ := Option.map_eq_some_iff.1 h
      obtain ⟨rfl, rfl⟩ := Prod.mk.inj h
      obtain ⟨rfl, hagain⟩ := ih hcut
      refine ⟨rfl, fun t => ?_⟩
      -- the word does not begin before the cut, and it is too short to reach behind it
      have hlength : stop.length ≤ (c :: (before ++ stop)).length := by
        rw [List.length_cons, List.length_append]
        omega
      have hany : ∀ t, stop.isPrefixOf (c :: (before ++ (stop ++ t))) =
          stop.isPrefixOf (c :: (before ++ stop)) := fun t => by
        rw [Bool.eq_iff_iff, List.isPrefixOf_iff_prefix, List.isPrefixOf_iff_prefix,
          ← List.append_assoc, ← List.cons_append, List.isPrefix_append_of_length hlength]
      rw [hany] at hprefix
      rw [List.cons_append, cutAtWord, hany, if_neg hprefix, hagain]
      rfl

theorem cutNested_append {depth : Nat} {s before after : List Char}
    (h : cutNested depth s = some (before, after)) :
    s = before ++ '>' :: after ∧ ∀ t, cutNested depth (before ++ '>' :: t) = some (before, t) := by
  induction s generalizing depth before with
  | nil => cases h
  | cons c s ih =>
    rw [cutNested] at h
    split at h
    · next hc =>
      obtain ⟨rfl, rfl⟩ := hc
      obtain ⟨rfl, rfl⟩ := Prod.mk.inj (Option.some.inj h)
      exact ⟨rfl, fun _ => rfl⟩
    · next hc =>
      obtain ⟨⟨before, after⟩, hcut, h⟩ := Option.map_eq_some_iff.1 h
      obtain ⟨rfl, rfl⟩ := Prod.mk.inj h
      obtain ⟨rfl, hagain⟩ := ih hcut
      refine ⟨rfl, fun t => ?_⟩
      rw [List.cons_append, cutNested, if_neg hc]
      exact Option.map_eq_some_iff.2 ⟨(before, t), hagain t, rfl⟩

theorem afterWord_append {word s rest : List Char} (h : afterWord word s = some rest) :
    ∃ w, s = w ++ rest ∧ ∀ t, afterWord word (w ++ t) = some t := by
  induction word generalizing s with
  | nil =>
    obtain rfl := Option.some.inj h
    exact ⟨[], rfl, fun _ => rfl⟩
  | cons c word ih =>
    cases s with
    | nil => cases h
    | cons d s =>
      rw [afterWord] at h
      split at h
      · next hd =>
        obtain ⟨w, rfl, hw⟩ := ih h
        exact ⟨d :: w, rfl, fun t => (if_pos hd).trans (hw t)⟩
      · cases h

/-! ## Reading -/

namespace Lexeme

/-- A lexeme that is read at the start of `s`, with `rest` behind it, is closed by its bracket. The
end of a document also ends tags and instructions, and nothing closes a text. -/
def Closed (s rest : List Char) : Lexeme → Prop
  | .text _ => False
  | .startTag content => s = '<' :: content ++ '>' :: rest
  | .emptyTag content => s = '<' :: content ++ '/' :: '>' :: rest
  | .endTag content => s = '<' :: '/' :: content ++ '>' :: rest
  | .instruction content => s = '<' :: '?' :: content ++ '?' :: '>' :: rest
  | .comment _ | .cdata _ | .doctype _ => True

theorem readBang_comment {body content rest : List Char}
    (h : cutAtWord ['-', '-', '>'] body = some (content, rest)) :
    readBang ('-' :: '-' :: body) = .found (.comment content) rest := by
  simp [readBang, h]

theorem readBang_cdata {s body content rest : List Char}
    (hword : afterWord "CDATA[".toList s = some body)
    (h : cutAtWord [']', ']', '>'] body = some (content, rest)) :
    readBang ('[' :: s) = .found (.cdata content) rest := by
  unfold readBang
  dsimp only
  rw [if_neg (by decide), if_pos rfl, hword]
  dsimp only
  rw [h]

theorem readBang_doctype {c : Char} (hc : c = 'D' ∨ c = 'd')
    {s declaration content rest : List Char}
    (h : cutNested 0 (c :: s) = some (declaration, rest))
    (hword : afterWord "DOCTYPE".toList declaration = some content)
    (hcontent : ¬content.all isMarkupSpace = true) :
    readBang (c :: s) = .found (.doctype content) rest := by
  have hdash : c ≠ '-' := by rcases hc with rfl | rfl <;> decide
  have hbracket : c ≠ '[' := by rcases hc with rfl | rfl <;> decide
  unfold readBang
  dsimp only
  rw [if_neg hdash, if_neg hbracket, if_pos hc, h]
  dsimp only
  rw [hword]
  exact if_neg hcontent

/-- What is read after `<!`. -/
theorem readBang_cases {s rest : List Char} {l : Lexeme} (h : readBang s = .found l rest) :
    (∃ body content, s = '-' :: '-' :: body ∧ l = .comment content ∧
      cutAtWord ['-', '-', '>'] body = some (content, rest)) ∨
    (∃ t body content, s = '[' :: t ∧ l = .cdata content ∧
      afterWord "CDATA[".toList t = some body ∧
        cutAtWord [']', ']', '>'] body = some (content, rest)) ∨
    ∃ c t declaration content, s = c :: t ∧ l = .doctype content ∧ (c = 'D' ∨ c = 'd') ∧
      cutNested 0 (c :: t) = some (declaration, rest) ∧
        afterWord "DOCTYPE".toList declaration = some content ∧
          ¬content.all isMarkupSpace = true := by
  cases s with
  | nil => cases h
  | cons c s =>
    simp only [readBang] at h
    split at h
    · next hc =>
      split at h
      · next body =>
        split at h
        · next hcut =>
          cases h
          exact .inl ⟨body, _, by rw [hc], rfl, hcut⟩
        · cases h
      · cases h
    · split at h
      · next hc =>
        split at h
        · next hword =>
          split at h
          · next hcut =>
            cases h
            exact .inr (.inl ⟨s, _, _, by rw [hc], rfl, hword, hcut⟩)
          · cases h
        · cases h
      · split at h
        · next hc =>
          split at h
          · next hcut =>
            split at h
            · next hword =>
              split at h
              · cases h
              · next hcontent =>
                cases h
                exact .inr (.inr ⟨c, s, _, _, rfl, rfl, hc, hcut, hword, hcontent⟩)
            · cases h
          · cases h
        · cases h

/-- What begins with `<!` is closed whenever it is read. -/
theorem readBang_append {s rest : List Char} {l : Lexeme} (h : readBang s = .found l rest) :
    ∃ q, s = q ++ rest ∧ ∀ t, readBang (q ++ t) = .found l t := by
  obtain ⟨body, content, rfl, rfl, hcut⟩ | ⟨t, body, content, rfl, rfl, hword, hcut⟩ |
    ⟨c, t, declaration, content, rfl, rfl, hc, hcut, hword, hcontent⟩ := readBang_cases h
  · obtain ⟨rfl, hagain⟩ := cutAtWord_append (List.cons_ne_nil _ _) hcut
    refine ⟨'-' :: '-' :: (content ++ ['-', '-', '>']), by simp, fun t => ?_⟩
    rw [List.cons_append, List.cons_append, List.append_assoc]
    exact readBang_comment (hagain t)
  · obtain ⟨w, rfl, hagain'⟩ := afterWord_append hword
    obtain ⟨rfl, hagain⟩ := cutAtWord_append (List.cons_ne_nil _ _) hcut
    refine ⟨'[' :: (w ++ (content ++ [']', ']', '>'])), by simp, fun t => ?_⟩
    rw [List.cons_append, List.append_assoc, List.append_assoc]
    exact readBang_cdata (hagain' _) (hagain t)
  · obtain ⟨hs, hagain⟩ := cutNested_append hcut
    cases declaration with
    | nil => cases hword
    | cons d declaration =>
      obtain ⟨rfl, rfl⟩ := List.cons.inj hs
      refine ⟨c :: declaration ++ ['>'], by simp, fun t => ?_⟩
      rw [List.append_assoc, List.singleton_append]
      exact readBang_doctype hc (hagain t) hword hcontent

theorem readInstruction_cases {s rest : List Char} {l : Lexeme}
    (h : readInstruction s = .found l rest) :
    (∃ q, s = q ++ rest ∧ ∀ t, readInstruction (q ++ t) = .found l t) ∨
      rest = [] ∧ ¬l.Closed ('<' :: '?' :: s) rest := by
  rcases cutAt_cases '>' s with ⟨body, after, rfl, hcut⟩ | hcut
  · rw [readInstruction, hcut] at h
    dsimp only at h
    split at h
    · next hbody =>
      cases h
      refine .inl ⟨body ++ ['>'], by simp, fun t => ?_⟩
      rw [List.append_assoc, List.singleton_append, readInstruction, hcut]
      exact if_pos hbody
    · cases h
  · rw [readInstruction, hcut] at h
    dsimp only at h
    split at h
    · next hbody =>
      cases h
      refine .inr ⟨rfl, fun hclosed => ?_⟩
      have := congrArg List.length hclosed
      simp at this
      omega
    · cases h

theorem readEndTag_cases {s rest : List Char} {l : Lexeme} (h : readEndTag s = .found l rest) :
    (∃ q, s = q ++ rest ∧ ∀ t, readEndTag (q ++ t) = .found l t) ∨
      rest = [] ∧ ¬l.Closed ('<' :: '/' :: s) rest := by
  rcases cutAt_cases '>' s with ⟨content, after, rfl, hcut⟩ | hcut
  · rw [readEndTag, hcut] at h
    cases h
    refine .inl ⟨content ++ ['>'], by simp, fun t => ?_⟩
    rw [List.append_assoc, List.singleton_append, readEndTag, hcut]
  · rw [readEndTag, hcut] at h
    cases h
    exact .inr ⟨rfl, fun hclosed => by simpa using congrArg List.length hclosed⟩

theorem readTag_cases {s rest : List Char} {l : Lexeme} (h : readTag s = .found l rest) :
    (∃ q, s = q ++ rest ∧ q ≠ [] ∧ ∀ t, readTag (q ++ t) = .found l t) ∨
      rest = [] ∧ ¬l.Closed ('<' :: s) rest := by
  rcases cutTag_cases none s with ⟨content, after, rfl, hcut⟩ | hcut
  · have hagain : ∀ t, readTag (content ++ ['>'] ++ t) = readTag (content ++ '>' :: t) :=
        fun t => by
      rw [List.append_assoc, List.singleton_append]
    rw [readTag, hcut] at h
    dsimp only at h
    split at h <;> cases h <;> refine .inl ⟨content ++ ['>'], by simp, by simp, fun t => ?_⟩ <;>
      rw [hagain, readTag, hcut]
    · next hslash => exact if_pos hslash
    · next hslash => exact if_neg hslash
  · rw [readTag, hcut] at h
    dsimp only at h
    split at h <;> cases h <;> refine .inr ⟨rfl, fun hclosed => ?_⟩
    · next hslash =>
      obtain ⟨content, rfl⟩ := List.getLast?_eq_some_iff.1 hslash
      simpa [Closed] using congrArg List.length hclosed
    · simpa [Closed] using congrArg List.length hclosed

/-- A text ends before the next bracket. -/
theorem readText_append {c : Char} (hc : c ≠ '<') {s rest : List Char} {l : Lexeme}
    (h : readText (c :: s) = .found l rest) :
    (∃ content, l = .text content) ∧ (∀ d ∈ rest.head?, d = '<') ∧
      ∃ q, s = q ++ rest ∧ ∀ t, t.head? = some '<' → readText (c :: q ++ t) = .found l t := by
  have htake : (c :: s).takeWhile (· ≠ '<') = c :: s.takeWhile (· ≠ '<') := by simp [hc]
  have hdrop : (c :: s).dropWhile (· ≠ '<') = s.dropWhile (· ≠ '<') := by simp [hc]
  have hplain : ∀ d ∈ c :: s.takeWhile (· ≠ '<'), decide (d ≠ '<') = true :=
    List.forall_mem_cons.2 ⟨decide_eq_true hc, List.all_eq_true.1 List.all_takeWhile⟩
  rw [readText, htake, hdrop] at h
  cases h
  refine ⟨⟨_, rfl⟩, fun d hd => ?_, s.takeWhile (· ≠ '<'),
    List.takeWhile_append_dropWhile.symm, fun t ht => ?_⟩
  · have := List.head?_dropWhile_not (· ≠ '<') s
    rw [Option.mem_def.1 hd] at this
    simpa using this
  · obtain ⟨t, rfl⟩ := List.head?_eq_some_iff.1 ht
    rw [readText, List.takeWhile_append_of_pos hplain, List.dropWhile_append_of_pos hplain,
      List.takeWhile_cons_of_neg (by decide), List.dropWhile_cons_of_neg (by decide),
      List.append_nil]

/-- What follows the first bracket decides what is read. -/
theorem readTrimmed_cases {s rest : List Char} {l : Lexeme} (h : readTrimmed s = .found l rest) :
    (∃ t, s = '<' :: '!' :: t ∧ readBang t = .found l rest) ∨
    (∃ t, s = '<' :: '?' :: t ∧ readInstruction t = .found l rest) ∨
    (∃ t, s = '<' :: '/' :: t ∧ readEndTag t = .found l rest) ∨
    (∃ c t, s = '<' :: c :: t ∧ (c ≠ '!' ∧ c ≠ '?' ∧ c ≠ '/') ∧
      readTag (c :: t) = .found l rest) ∨
    ∃ c t, s = c :: t ∧ c ≠ '<' ∧ readText (c :: t) = .found l rest := by
  unfold readTrimmed at h
  split at h
  · cases h
  · cases h
  · exact .inl ⟨_, rfl, h⟩
  · exact .inr (.inl ⟨_, rfl, h⟩)
  · exact .inr (.inr (.inl ⟨_, rfl, h⟩))
  · next t hne hbang hquestion hslash =>
    obtain ⟨c, t, rfl⟩ := List.exists_cons_of_ne_nil hne
    refine .inr (.inr (.inr (.inl ⟨c, t, rfl, ⟨?_, ?_, ?_⟩, h⟩)))
    · rintro rfl
      exact hbang _ rfl
    · rintro rfl
      exact hquestion _ rfl
    · rintro rfl
      exact hslash _ rfl
  · next hnil _ _ _ _ htag =>
    obtain ⟨c, t, rfl⟩ := List.exists_cons_of_ne_nil hnil
    refine .inr (.inr (.inr (.inr ⟨c, t, rfl, ?_, h⟩)))
    rintro rfl
    exact htag _ rfl

/-- What is read of a document without leading space is a lexeme that is read whatever follows, one
that the end of the document ends, or a text that any bracket ends. -/
theorem readTrimmed_append {s rest : List Char} {l : Lexeme} (h : readTrimmed s = .found l rest) :
    (∃ q, s = '<' :: q ++ rest ∧ ∀ t, readTrimmed ('<' :: q ++ t) = .found l t) ∨
      (rest = [] ∧ ¬l.Closed s rest) ∨
        (∃ content, l = .text content) ∧ (∀ d ∈ rest.head?, d = '<') ∧
          ∃ c q, s = c :: q ++ rest ∧
            ∀ t, t.head? = some '<' → readTrimmed (c :: q ++ t) = .found l t := by
  obtain ⟨t, rfl, h⟩ | ⟨t, rfl, h⟩ | ⟨t, rfl, h⟩ | ⟨c, t, rfl, hc, h⟩ | ⟨c, t, rfl, hc, h⟩ :=
    readTrimmed_cases h
  · obtain ⟨q, rfl, hagain⟩ := readBang_append h
    exact .inl ⟨'!' :: q, rfl, hagain⟩
  · rcases readInstruction_cases h with ⟨q, rfl, hagain⟩ | hend
    · exact .inl ⟨'?' :: q, rfl, hagain⟩
    · exact .inr (.inl hend)
  · rcases readEndTag_cases h with ⟨q, rfl, hagain⟩ | hend
    · exact .inl ⟨'/' :: q, rfl, hagain⟩
    · exact .inr (.inl hend)
  · rcases readTag_cases h with ⟨q, hq, hne, hagain⟩ | hend
    · obtain ⟨d, q, rfl⟩ := List.exists_cons_of_ne_nil hne
      obtain ⟨rfl, rfl⟩ := List.cons.inj hq
      exact .inl ⟨c :: q, rfl, fun u => (readTrimmed_tag hc.1 hc.2.1 hc.2.2 _).trans (hagain u)⟩
    · exact .inr (.inl hend)
  · obtain ⟨hl, hrest, q, rfl, hagain⟩ := readText_append hc h
    exact .inr (.inr ⟨hl, hrest, c, q, rfl, fun u hu =>
      (readTrimmed_text hc _).trans (hagain u hu)⟩)

/-- An empty tag begins with a bracket and a character of its own. -/
theorem exists_readTag {s content rest : List Char}
    (h : readTrimmed s = .found (.emptyTag content) rest) :
    ∃ c t, s = '<' :: c :: t ∧ (c ≠ '!' ∧ c ≠ '?' ∧ c ≠ '/') ∧
      readTag (c :: t) = .found (.emptyTag content) rest := by
  obtain ⟨_, -, hread⟩ | ⟨_, -, hread⟩ | ⟨_, -, hread⟩ | htag | ⟨_, _, -, -, hread⟩ :=
    readTrimmed_cases h
  · obtain ⟨_, _, -, hl, -⟩ | ⟨_, _, _, -, hl, -⟩ | ⟨_, _, _, _, -, hl, -⟩ :=
      readBang_cases hread <;> cases hl
  · simp only [readInstruction] at hread
    split at hread <;> cases hread
  · cases hread
  · exact htag
  · cases hread

/-- Space before a lexeme is skipped. -/
theorem read_takeWhile_append {s q rest : List Char} {c : Char}
    (h : s.dropWhile isMarkupSpace = c :: q ++ rest) (t : List Char) :
    read (s.takeWhile isMarkupSpace ++ (c :: q) ++ t) = readTrimmed (c :: q ++ t) := by
  have hc : ¬isMarkupSpace c = true := by
    have := List.head?_dropWhile_not isMarkupSpace s
    simpa [h] using this
  rw [read, List.append_assoc, List.dropWhile_append_of_pos (List.all_eq_true.1 List.all_takeWhile),
    List.cons_append, List.dropWhile_cons_of_neg hc]

/-- A lexeme that does not end the document is read before any text that begins in the same way as
the text behind it. -/
theorem exists_read_append {s rest : List Char} {l : Lexeme} (h : read s = .found l rest)
    (hrest : rest ≠ []) :
    ∃ q, s = q ++ rest ∧ ∀ t, t.head? = rest.head? → read (q ++ t) = .found l t := by
  rcases readTrimmed_append h with ⟨q, hq, hagain⟩ | ⟨hnil, -⟩ | ⟨-, hhead, c, q, hq, hagain⟩
  · refine ⟨s.takeWhile isMarkupSpace ++ '<' :: q, ?_, fun t _ => ?_⟩
    · rw [List.append_assoc, ← hq, List.takeWhile_append_dropWhile]
    · rw [read_takeWhile_append hq, hagain]
  · exact absurd hnil hrest
  · refine ⟨s.takeWhile isMarkupSpace ++ c :: q, ?_, fun t ht => ?_⟩
    · rw [List.append_assoc, ← hq, List.takeWhile_append_dropWhile]
    · obtain ⟨d, rest, rfl⟩ := List.exists_cons_of_ne_nil hrest
      obtain rfl := hhead d rfl
      rw [read_takeWhile_append hq, hagain t ht]

/-! ## Reading up to a place -/

/-- A reader of `s` begins to read at `t`: before it stand lexemes and space. -/
inductive Reaches : List Char → List Char → Prop
  | here (s : List Char) : Reaches s (s.dropWhile isMarkupSpace)
  | next {s rest t : List Char} {l : Lexeme} (first : read s = .found l rest)
      (reaches : Reaches rest t) : Reaches s t

theorem Reaches.dropWhile_eq {s t : List Char} (h : Reaches s t) :
    t.dropWhile isMarkupSpace = t := by
  induction h with
  | here s => exact List.dropWhile_idempotent _ s
  | next _ _ ih => exact ih

theorem read_append_of_space {space : List Char} (h : ∀ c ∈ space, isMarkupSpace c = true)
    (s : List Char) : read (space ++ s) = read s := by
  rw [read, List.dropWhile_append_of_pos h, ← read]

/-- The lexemes before a bracket at which the reader begins do not depend on what stands behind
it. -/
theorem Reaches.exists_scan {s t : List Char} (h : Reaches s ('<' :: t)) :
    ∃ before, ∃ ls : List Lexeme, s = before ++ '<' :: t ∧
      ∀ u, scan (before ++ '<' :: u) = ls.map .ok ++ scan ('<' :: u) := by
  generalize hgoal : '<' :: t = goal at h
  induction h with
  | here s =>
    refine ⟨s.takeWhile isMarkupSpace, [], List.takeWhile_append_dropWhile.symm, fun u => ?_⟩
    exact scan_congr (read_append_of_space (List.all_eq_true.1 List.all_takeWhile) _)
  | @next s rest _ l first _ ih =>
    obtain ⟨before, ls, hrest, hscan⟩ := ih hgoal
    have hne : rest ≠ [] := by simp [hrest, ← hgoal]
    obtain ⟨q, rfl, hagain⟩ := exists_read_append first hne
    refine ⟨q ++ before, l :: ls, by rw [hrest, List.append_assoc], fun u => ?_⟩
    have hhead : (before ++ '<' :: u).head? = rest.head? := by
      rw [hrest, ← hgoal]
      cases before <;> rfl
    rw [List.append_assoc, scan_of_read (hagain _ hhead), hscan]
    rfl

end Lexeme

/-! ## Places in a document -/

namespace Event

/-- The reader of the document begins an event, or finds no more, where `s` is left. -/
def BeginsAt (document s : List Char) : Prop := Lexeme.Reaches (withoutMark document) s

/-- The reader of the document stands between two events where `s` is left: before the bracket with
which one begins, or behind the last one, if that is closed. -/
inductive Gap (document : List Char) : List Char → Prop
  | before {s : List Char} (begins : BeginsAt document ('<' :: s)) : Gap document ('<' :: s)
  | atEnd {s rest : List Char} {l : Lexeme} (begins : BeginsAt document s)
      (last : Lexeme.read s = .found l rest) (closed : l.Closed s rest)
      (blank : rest.all isMarkupSpace = true) : Gap document []

theorem withoutMark_of_head {s : List Char} (hs : s.head? ≠ some '\uFEFF') : withoutMark s = s := by
  cases s with
  | nil => rfl
  | cons c s =>
    have hc : c ≠ '\uFEFF' := fun h => hs (congrArg some h)
    simp [withoutMark, hc]

theorem withoutMark_append (s : List Char) {t : List Char} (ht : t.head? ≠ some '\uFEFF') :
    withoutMark (s ++ t) = withoutMark s ++ t := by
  cases s with
  | nil => exact withoutMark_of_head ht
  | cons c s =>
    by_cases hc : c = '\uFEFF'
    · subst hc
      rfl
    · have hne : ∀ u : List Char, (c :: u).head? ≠ some '\uFEFF' :=
        fun u h => hc (Option.some.inj h)
      rw [withoutMark_of_head (hne s), List.cons_append, withoutMark_of_head (hne _)]

/-- **The lexemes before a place in a document are those of any document that begins in the same
way, if a bracket follows.** -/
theorem Gap.exists_scan {before after : List Char} (h : Gap (before ++ after) after) :
    ∃ ls : List Lexeme,
      Lexeme.scan (withoutMark (before ++ after)) = ls.map .ok ++ Lexeme.scan after ∧
        ∀ t, Lexeme.scan (withoutMark (before ++ '<' :: t)) =
          ls.map .ok ++ Lexeme.scan ('<' :: t) := by
  have hmark : ∀ t, withoutMark (before ++ '<' :: t) = withoutMark before ++ '<' :: t := fun t =>
    withoutMark_append before (fun h => absurd (Option.some.inj h) (by decide))
  generalize hdocument : before ++ after = document at h
  cases h with
  | @before s begins =>
    subst hdocument
    rw [BeginsAt, hmark] at begins
    obtain ⟨p, ls, hp, hscan⟩ := begins.exists_scan
    obtain rfl := List.append_cancel_right hp
    refine ⟨ls, ?_, fun t => ?_⟩ <;> rw [hmark, hscan]
  | @atEnd s rest l begins last closed blank =>
    rw [List.append_nil] at hdocument
    subst hdocument
    rw [Lexeme.read, begins.dropWhile_eq] at last
    rcases Lexeme.readTrimmed_append last with ⟨q, rfl, hagain⟩ | ⟨-, hopen⟩ | ⟨⟨content, rfl⟩, -⟩
    · obtain ⟨p, ls, hp, hscan⟩ := Lexeme.Reaches.exists_scan (t := q ++ rest) begins
      have hlast : ∀ t, Lexeme.scan (p ++ '<' :: (q ++ (rest ++ t))) =
          (ls ++ [l]).map .ok ++ Lexeme.scan t := fun t => by
        have hread : Lexeme.read ('<' :: (q ++ (rest ++ t))) = .found l (rest ++ t) := by
          rw [Lexeme.read, List.dropWhile_cons_of_neg (by decide)]
          exact hagain _
        rw [hscan, Lexeme.scan_of_read hread,
          Lexeme.scan_congr (Lexeme.read_append_of_space (List.all_eq_true.1 blank) t),
          List.map_append, List.append_assoc]
        rfl
      refine ⟨ls ++ [l], ?_, fun t => ?_⟩
      · rw [← hlast [], List.append_nil, hp]
      · rw [← hlast, hmark, hp, List.append_assoc, List.cons_append, List.append_assoc]
    · exact absurd closed hopen
    · exact closed.elim

end Event

end LayoutShell.Markup
