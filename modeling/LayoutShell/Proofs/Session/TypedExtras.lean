import LayoutShell.Proofs.Session.Frames

/-!
# Parameters typed after a command

The words typed after a command either give parameters or are reported, and no word is lost.

* `splitAssignment_eq_none_iff` says which words give no parameter: those that hold no equals sign
  or begin with one.
* `ignored_foldl_add` and `get?_foldl_add` are what words add to the extras read so far.
* `parse_spaced`: the extras of a text are read off the words that it is made of, whatever white
  space stands between them, and those of two texts are put together word after word.
-/

namespace LayoutShell.Session

open Json Text

/-- The word gives no parameter: it holds no equals sign or begins with one. -/
def IsStray (token : List Char) : Prop := token.head? = some '=' ∨ '=' ∉ token

instance (token : List Char) : Decidable (IsStray token) :=
  inferInstanceAs (Decidable (token.head? = some '=' ∨ '=' ∉ token))

theorem splitAssignment_eq_none_iff {token : List Char} :
    splitAssignment token = none ↔ IsStray token := by
  by_cases hmem : '=' ∈ token
  · obtain ⟨name, value, rfl, hname⟩ := List.eq_append_cons_of_mem hmem
    have hsplit : splitFirst (· = '=') (name ++ '=' :: value) = some (name, value) := by
      refine splitFirst_append (fun c hc => decide_eq_false ?_) (by decide) value
      rintro rfl
      exact hname hc
    unfold splitAssignment IsStray
    rw [hsplit]
    cases name with
    | nil => simp
    | cons c name =>
      have hc : c ≠ '=' := fun h => hname (h ▸ List.mem_cons_self)
      simp [hc]
  · have hsplit : splitFirst (· = '=') token = none := by
      refine splitFirst_eq_none fun c hc => decide_eq_false ?_
      rintro rfl
      exact hmem hc
    unfold splitAssignment
    rw [hsplit]
    exact iff_of_true rfl (.inr hmem)

namespace Extras

theorem add_of_isStray {token : List Char} (h : IsStray token) (e : Extras) :
    e.add token = ⟨e.update, e.ignored ++ [String.ofList token]⟩ := by
  rw [add, splitAssignment_eq_none_iff.2 h]

theorem ignored_add_of_not_isStray {token : List Char} (h : ¬IsStray token) (e : Extras) :
    (e.add token).ignored = e.ignored := by
  unfold add
  split
  · rfl
  · next hnone => exact absurd (splitAssignment_eq_none_iff.1 hnone) h

/-- Words are reported in order and with repetitions. -/
theorem ignored_foldl_add (tokens : List (List Char)) (e : Extras) :
    (tokens.foldl add e).ignored =
      e.ignored ++ (tokens.filter IsStray).map String.ofList := by
  induction tokens generalizing e with
  | nil => simp
  | cons token tokens ih =>
    rw [List.foldl_cons, ih]
    by_cases h : IsStray token
    · rw [add_of_isStray h, List.filter_cons_of_pos (by simpa using h)]
      simp
    · rw [ignored_add_of_not_isStray h, List.filter_cons_of_neg (by simpa using h)]

/-- What is read of words that follow others comes before what was read. -/
theorem get?_foldl_add (tokens : List (List Char)) (e : Extras) (name : String) :
    (tokens.foldl add e).update.get? name =
      ((tokens.foldl add ⟨∅, []⟩).update.get? name).or (e.update.get? name) := by
  have hnew := extendedBy_foldl_add tokens ⟨∅, []⟩
  have hall := extendedBy_foldl_add tokens e
  rcases givesLast_or_forall_not tokens name with ⟨value, hvalue⟩ | hnone
  · rw [hall.given name value hvalue, hnew.given name value hvalue]
    rfl
  · rw [hall.kept name hnone, hnew.kept name hnone]
    rfl

theorem get?_update_eq_some_iff (tokens : List (List Char)) {name : String} {v : Value} :
    (tokens.foldl add ⟨∅, []⟩).update.get? name = some v ↔
      ∃ value, v = .string value ∧ GivesLast tokens name value := by
  have hextended := extendedBy_foldl_add tokens ⟨∅, []⟩
  constructor
  · intro h
    rcases givesLast_or_forall_not tokens name with ⟨value, hvalue⟩ | hnone
    · rw [hextended.given name value hvalue] at h
      exact ⟨value, (Option.some.inj h).symm, hvalue⟩
    · rw [hextended.kept name hnone] at h
      cases h
  · rintro ⟨value, rfl, hvalue⟩
    exact hextended.given name value hvalue

/-- **No word typed after a command is lost.** If a text is made of some words, the strays among
them are reported in order, and the update sends a name to what the last word that gives it says,
and nothing else to anything. So the extras of a text after another one are added to those of the
first. -/
theorem parse_spaced :
    (∀ (tokens : List (List Char)) (text : List Char), Spaced tokens text →
      (parse text).ignored = (tokens.filter IsStray).map String.ofList ∧
      ∀ name v, (parse text).update.get? name = some v ↔
        ∃ value, v = .string value ∧ GivesLast tokens name value) ∧
    ∀ a gap b : List Char, gap ≠ [] → (∀ c ∈ gap, isSpace c = true) →
      (parse (a ++ (gap ++ b))).ignored = (parse a).ignored ++ (parse b).ignored ∧
      ∀ name, (parse (a ++ (gap ++ b))).update.get? name =
        ((parse b).update.get? name).or ((parse a).update.get? name) := by
  refine ⟨fun tokens text h => ?_, fun a gap b hne hgap => ?_⟩
  · rw [parse, h.words_eq]
    exact ⟨ignored_foldl_add tokens ⟨∅, []⟩, fun name v => get?_update_eq_some_iff tokens⟩
  · rw [parse, words_append_gap hgap hne, List.foldl_append]
    refine ⟨?_, fun name => get?_foldl_add (words b) (parse a) name⟩
    rw [ignored_foldl_add, parse, ignored_foldl_add, parse, ignored_foldl_add]
    rfl

/-- Words that give a name twice and repeat a stray, between white space of several kinds. -/
def mixedText : List Char := "\t verbose\u3000=x key=\u0085a=b=c  a=d verbose\n".toList

def mixedTokens : List (List Char) :=
  ["verbose".toList, "=x".toList, "key=".toList, "a=b=c".toList, "a=d".toList, "verbose".toList]

theorem parse_spaced_mixed :
    Spaced mixedTokens mixedText ∧ (parse mixedText).ignored = ["verbose", "=x", "verbose"] ∧
      (parse mixedText).update.get? "a" = some (.string "d") ∧
      (parse (mixedText ++ ([' '] ++ "a=".toList))).update.get? "a" = some (.string "") := by
  have hspaced : Spaced mixedTokens mixedText := words_eq_iff.1 (by decide)
  have hlast : GivesLast mixedTokens "a" "d" := by
    refine ⟨mixedTokens.take 4, "a=d".toList, ["verbose".toList], rfl,
      ⟨rfl, by decide, by decide⟩, ?_⟩
    rintro t ht v ⟨h, -, -⟩
    rw [List.mem_singleton.1 ht] at h
    exact absurd (congrArg List.head? h) (by simp)
  obtain ⟨hignored, hupdate⟩ := parse_spaced.1 mixedTokens mixedText hspaced
  have happend := (parse_spaced.2 mixedText [' '] "a=".toList (by simp) (by simp [isSpace])).2 "a"
  exact ⟨hspaced, hignored.trans (by decide), (hupdate "a" _).2 ⟨"d", rfl, hlast⟩,
    happend.trans rfl⟩

end Extras

end LayoutShell.Session
