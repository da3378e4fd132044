import LayoutShell.Proofs.Session.Commands
import LayoutShell.Proofs.Text.Words

/-!
# Reading command lines

Which command a line is, said of the text of the line.

* `IsAssignment` is the form of a line that sets a parameter, and `ofLine_eq_assign_iff` says that
  exactly these lines do.
* `IsToolLine` is the form of a line that runs a tool on some words. `ofLine_eq_other` says that no
  other line can run one.
* `words_of_display`: only the bare word `set` prints the environment.
-/

namespace LayoutShell.Session

open Text

theorem IsWord.isToken {word : List Char} (h : IsWord word) : IsToken word :=
  ⟨h.ne_nil, h.noSpace⟩

/-! ## The parts of a line -/

/-- A line is its word, a white space character and its argument text, if it has any. -/
theorem exists_trim_eq_commandWord_append (line : String) :
    ∃ gap, trim line.toList =
        (commandWord line).toList ++ (gap ++ (argumentText line).toList) ∧
      (∀ c ∈ gap, isSpace c = true) ∧ (gap = [] → argumentText line = "") := by
  have hparts : (commandWord line).toList ++ (trim line.toList).dropWhile (fun c => !isSpace c) =
      trim line.toList := by
    rw [commandWord, String.toList_ofList, List.takeWhile_append_dropWhile]
  have hhead := List.head?_dropWhile_not (fun c => !isSpace c) (trim line.toList)
  rw [argumentText, String.toList_ofList]
  cases hrest : (trim line.toList).dropWhile fun c => !isSpace c with
  | nil =>
    rw [hrest] at hparts
    exact ⟨[], hparts.symm, by simp, fun _ => rfl⟩
  | cons c args =>
    rw [hrest] at hparts hhead
    have hc : isSpace c = true := by simpa using hhead
    exact ⟨[c], hparts.symm, by simp [hc], by simp⟩

theorem isToken_commandWord {line : String} (h : trim line.toList ≠ []) :
    IsToken (commandWord line).toList := by
  rw [commandWord, String.toList_ofList]
  constructor
  · obtain ⟨c, rest, hcons⟩ := List.exists_cons_of_ne_nil h
    have hc := (trimmed_trim h).first c (by rw [hcons]; rfl)
    simp [hcons, hc]
  · intro c hc
    simpa using List.all_eq_true.1 List.all_takeWhile c hc

/-- The words of a line are its command word and the words of its arguments. -/
theorem words_line {line : String} (h : trim line.toList ≠ []) :
    words line.toList = (commandWord line).toList :: words (argumentText line).toList := by
  obtain ⟨gap, hline, hgap, hargs⟩ := exists_trim_eq_commandWord_append line
  have hhead : ∀ c ∈ (gap ++ (argumentText line).toList).head?, isSpace c = true := by
    cases gap with
    | nil => simp [hargs rfl]
    | cons c gap => simp [hgap c List.mem_cons_self]
  rw [← words_trim, hline, words_word_append (isToken_commandWord h) hhead, words_append_left hgap]

namespace Command

/-- The words of the shell itself, and all other words. -/
theorem ofWord_cases (line word args : List Char) :
    (∃ command, ofWord line word args = .host command) ∨
    (∃ topic, ofWord line word args = .help topic) ∨
    (word = "quit".toList ∧ ofWord line word args = .quit) ∨
    (word = "set".toList ∧ ofWord line word args = ofAssignment args) ∨
    word ∉ reserved ∧ ofWord line word args = .other word args (String.ofList line) := by
  by_cases h : word ∈ reserved
  · simp only [reserved, List.mem_cons, List.not_mem_nil, or_false] at h
    rcases h with rfl | rfl | rfl | rfl
    · exact .inr (.inr (.inr (.inl ⟨rfl, rfl⟩)))
    · exact .inl ⟨_, rfl⟩
    · exact .inr (.inl ⟨_, rfl⟩)
    · exact .inr (.inr (.inl ⟨rfl, rfl⟩))
  · exact .inr (.inr (.inr (.inr ⟨h, ofWord_of_not_reserved h line args⟩)))

/-- A line is blank, or asks for the host, for help or for the end, or sets a parameter, or is some
other word with its arguments. -/
theorem ofLine_cases (line : String) :
    (trim line.toList = [] ∧ ofLine line = .blank) ∨
    (∃ command, ofLine line = .host command) ∨
    (∃ topic, ofLine line = .help topic) ∨
    (commandWord line = "quit" ∧ ofLine line = .quit) ∨
    (trim line.toList ≠ [] ∧ commandWord line = "set" ∧
      ofLine line = ofAssignment (argumentText line).toList) ∨
    trim line.toList ≠ [] ∧ IsWord (commandWord line).toList ∧
      (commandWord line).toList ∉ reserved ∧
      ofLine line = .other (commandWord line).toList (argumentText line).toList
        (String.ofList (trim line.toList)) := by
  by_cases hnil : trim line.toList = []
  · refine .inl ⟨hnil, ?_⟩
    rw [ofLine, hnil]
  · have htoken := isToken_commandWord hnil
    obtain ⟨gap, hline, -, -⟩ := exists_trim_eq_commandWord_append line
    obtain ⟨c, word, hword⟩ := List.exists_cons_of_ne_nil htoken.ne_nil
    by_cases hsign : c = '!' ∨ c = '?'
    · rw [hword] at hline
      rcases hsign with rfl | rfl
      · refine .inr (.inl ?_)
        rw [ofLine, hline]
        exact ⟨_, rfl⟩
      · refine .inr (.inr (.inl ?_))
        rw [ofLine, hline]
        exact ⟨_, rfl⟩
    · rw [not_or] at hsign
      have hisWord : IsWord (commandWord line).toList :=
        ⟨htoken.ne_nil, htoken.noSpace, by simp [hword, hsign.1], by simp [hword, hsign.2]⟩
      rw [ofLine_of_commandWord rfl hisWord]
      rcases ofWord_cases (trim line.toList) (commandWord line).toList
        (argumentText line).toList with h | h | ⟨hquit, h⟩ | ⟨hset, h⟩ | ⟨hfree, h⟩
      · exact .inr (.inl h)
      · exact .inr (.inr (.inl h))
      · exact .inr (.inr (.inr (.inl ⟨String.toList_inj.1 hquit, h⟩)))
      · exact .inr (.inr (.inr (.inr (.inl ⟨hnil, String.toList_inj.1 hset, h⟩))))
      · exact .inr (.inr (.inr (.inr (.inr ⟨hnil, hisWord, hfree, h⟩))))

theorem ofAssignment_cases (args : List Char) :
    (trim args = [] ∧ ofAssignment args = .display) ∨
    (∃ name value, splitFirst isSpace (trim args) = some (name, value) ∧
      ofAssignment args = .assign (String.ofList name) (String.ofList (trim value))) ∨
    splitFirst isSpace (trim args) = none ∧ ofAssignment args = .assignUsage := by
  by_cases hnil : trim args = []
  · refine .inl ⟨hnil, ?_⟩
    rw [ofAssignment, hnil]
    rfl
  · have hempty : (trim args).isEmpty = false := by simp [hnil]
    refine .inr ?_
    rw [ofAssignment, hempty]
    cases splitFirst isSpace (trim args) with
    | none => exact .inr ⟨rfl, rfl⟩
    | some parts => exact .inl ⟨parts.1, parts.2, rfl, rfl⟩

end Command

/-! ## Assignments -/

/-- The line is `set`, a name without white space and a value, with white space between them and
perhaps around them. -/
def IsAssignment (line name value : String) : Prop :=
  IsToken name.toList ∧ Trimmed value.toList ∧
    ∃ before gap gap' after, (∀ c ∈ before ++ gap ++ gap' ++ after, isSpace c = true) ∧
      gap ≠ [] ∧ gap' ≠ [] ∧
      line.toList =
        before ++ (("set".toList ++ (gap ++ (name.toList ++ (gap' ++ value.toList)))) ++ after)

/-- A value that is not blank may be typed after `set` and a name. -/
theorem isAssignment_set {name : String} (hname : IsToken name.toList) (value : String)
    (hvalue : trim value.toList ≠ []) :
    IsAssignment ("set " ++ name ++ " " ++ value) name (String.ofList (trim value.toList)) := by
  obtain ⟨before, after, hparts, hbefore, hafter⟩ := exists_trim value.toList
  rw [IsAssignment, String.toList_ofList]
  refine ⟨hname, trimmed_trim hvalue, [], [' '], ' ' :: before, after, ?_, by simp, by simp, ?_⟩
  · simp only [List.forall_mem_append, List.forall_mem_cons, List.nil_append]
    exact ⟨⟨⟨rfl, List.forall_mem_nil _⟩, rfl, hbefore⟩, hafter⟩
  · simp only [String.toList_append]
    conv_lhs => rw [hparts]
    simp

theorem isWord_set : IsWord "set".toList where
  ne_nil := by decide
  noSpace := forall_mem_of_all (by decide)
  noHost := by decide
  noHelp := by decide

theorem commandWord_of_trim {line : String} {word rest : List Char} {c : Char}
    (h : trim line.toList = word ++ c :: rest) (hword : ∀ c ∈ word, isSpace c = false)
    (hc : isSpace c = true) :
    commandWord line = String.ofList word ∧ argumentText line = String.ofList rest := by
  have hnot : ∀ c ∈ word, (!isSpace c) = true := fun c hc => by rw [hword c hc]; rfl
  rw [commandWord, argumentText, h, List.takeWhile_append_of_pos hnot,
    List.dropWhile_append_of_pos hnot, List.takeWhile_cons_of_neg (by simp [hc]),
    List.dropWhile_cons_of_neg (by simp [hc]), List.append_nil]
  exact ⟨rfl, rfl⟩

namespace Command

theorem ofAssignment_append {gap name gap' value : List Char} {c : Char}
    (hgap : ∀ c ∈ gap, isSpace c = true) (hname : IsToken name)
    (hgap' : ∀ d ∈ c :: gap', isSpace d = true) (hvalue : Trimmed value) :
    ofAssignment (gap ++ (name ++ (c :: gap' ++ value))) =
      .assign (String.ofList name) (String.ofList value) := by
  rw [List.forall_mem_cons] at hgap'
  have hbody : Trimmed (name ++ (c :: gap' ++ value)) := hname.trimmed.append hvalue _
  have htrim : trim (gap ++ (name ++ (c :: gap' ++ value))) = name ++ (c :: gap' ++ value) := by
    have := trim_surrounded hgap hbody (List.forall_mem_nil _)
    rwa [List.append_nil] at this
  have hsplit : splitFirst isSpace (name ++ (c :: gap' ++ value)) = some (name, gap' ++ value) :=
    splitFirst_append hname.noSpace hgap'.1 _
  have hvalue' : trim (gap' ++ value) = value := by
    have := trim_surrounded hgap'.2 hvalue (List.forall_mem_nil _)
    rwa [List.append_nil] at this
  rcases ofAssignment_cases (gap ++ (name ++ (c :: gap' ++ value))) with
    ⟨hnil, -⟩ | ⟨name', rest, hsplit', hassign⟩ | ⟨hnone, -⟩
  · exact absurd (htrim.symm.trans hnil) hbody.ne_nil
  · rw [htrim, hsplit] at hsplit'
    obtain ⟨rfl, rfl⟩ := Prod.mk.inj (Option.some.inj hsplit')
    rw [hassign, hvalue']
  · rw [htrim, hsplit] at hnone
    cases hnone

theorem ofLine_of_isAssignment {line name value : String} (h : IsAssignment line name value) :
    ofLine line = .assign name value := by
  obtain ⟨hname, hvalue, before, gap, gap', after, hblank, hgap, hgap', hline⟩ := h
  simp only [List.forall_mem_append] at hblank
  obtain ⟨⟨⟨hbefore, hspace⟩, hspace'⟩, hafter⟩ := hblank
  obtain ⟨c, gap, rfl⟩ := List.exists_cons_of_ne_nil hgap
  obtain ⟨c', gap', rfl⟩ := List.exists_cons_of_ne_nil hgap'
  rw [List.forall_mem_cons] at hspace
  have hbody : Trimmed (name.toList ++ (c' :: gap' ++ value.toList)) :=
    hname.trimmed.append hvalue _
  have htrim : trim line.toList =
      "set".toList ++ c :: (gap ++ (name.toList ++ (c' :: gap' ++ value.toList))) := by
    rw [hline]
    exact trim_surrounded hbefore (isWord_set.isToken.trimmed.append hbody _) hafter
  obtain ⟨hword, hargs⟩ := commandWord_of_trim htrim isWord_set.noSpace hspace.1
  rw [String.ofList_toList] at hword
  rw [ofLine_of_commandWord hword isWord_set, ofWord, if_pos rfl, hargs, String.toList_ofList,
    ofAssignment_append hspace.2 hname hspace' hvalue, String.ofList_toList, String.ofList_toList]

/-- The arguments that set a parameter are a name, white space and a value. -/
theorem exists_of_ofAssignment {args : List Char} {name value : String}
    (h : ofAssignment args = .assign name value) :
    IsToken name.toList ∧ Trimmed value.toList ∧
      ∃ gap gap' after, (∀ c ∈ gap ++ gap' ++ after, isSpace c = true) ∧ gap' ≠ [] ∧
        args = gap ++ (name.toList ++ (gap' ++ (value.toList ++ after))) := by
  rcases ofAssignment_cases args with ⟨-, hof⟩ | ⟨name', rest, hsplit, hof⟩ | ⟨-, hof⟩
  · cases hof.symm.trans h
  · obtain ⟨rfl, rfl⟩ := Command.assign.inj (hof.symm.trans h)
    obtain ⟨d, htrim, hname, hd⟩ := exists_of_splitFirst hsplit
    have htrimmed : Trimmed (name' ++ d :: rest) := htrim ▸ trimmed_trim (by simp [htrim])
    have hne : name' ≠ [] := by
      rintro rfl
      have hfirst := htrimmed.first d rfl
      rw [hd] at hfirst
      cases hfirst
    -- a value of white space only would be white space at the end of the arguments
    have hvalue : trim rest ≠ [] := by
      intro hnil
      have hlast : ∃ c ∈ (name' ++ d :: rest).getLast?, c ∈ d :: rest := by
        refine ⟨(d :: rest).getLast (by simp), ?_, List.getLast_mem _⟩
        rw [List.getLast?_append_of_ne_nil _ (by simp), List.getLast?_eq_some_getLast (by simp)]
        rfl
      obtain ⟨c, hc, hmem⟩ := hlast
      have hspace : ∀ c ∈ d :: rest, isSpace c = true :=
        List.forall_mem_cons.2 ⟨hd, trim_eq_nil_iff.1 hnil⟩
      have hnot := htrimmed.last c hc
      rw [hspace c hmem] at hnot
      cases hnot
    obtain ⟨gap, after, hargs, hgap, hafter⟩ := exists_trim args
    obtain ⟨gap', after', hrest, hgap', hafter'⟩ := exists_trim rest
    simp only [String.toList_ofList]
    refine ⟨⟨hne, hname⟩, trimmed_trim hvalue, gap, d :: gap', after' ++ after, ?_, by simp, ?_⟩
    · simp only [List.forall_mem_append, List.forall_mem_cons]
      exact ⟨⟨hgap, hd, hgap'⟩, hafter', hafter⟩
    · conv_lhs => rw [hargs, htrim, hrest]
      simp
  · cases hof.symm.trans h

theorem isAssignment_of_ofLine {line name value : String} (h : ofLine line = .assign name value) :
    IsAssignment line name value := by
  rcases ofLine_cases line with
    ⟨-, hline⟩ | ⟨_, hline⟩ | ⟨_, hline⟩ | ⟨-, hline⟩ | ⟨-, hset, hline⟩ | ⟨-, -, -, hline⟩
  case inr.inr.inr.inr.inl =>
    obtain ⟨hname, hvalue, gap, gap', after, hblank, hgap', hargs⟩ :=
      exists_of_ofAssignment (hline.symm.trans h)
    obtain ⟨sep, htrim, hsep, hempty⟩ := exists_trim_eq_commandWord_append line
    obtain ⟨before, after', hwhole, hbefore, hafter'⟩ := exists_trim line.toList
    have hne : sep ≠ [] := fun hnil => by
      have := congrArg String.toList (hempty hnil)
      rw [hargs] at this
      simp [hname.ne_nil] at this
    refine ⟨hname, hvalue, before, sep ++ gap, gap', after ++ after', ?_, by simp [hne], hgap', ?_⟩
    · simp only [List.forall_mem_append] at hblank ⊢
      exact ⟨⟨⟨hbefore, hsep, hblank.1.1⟩, hblank.1.2⟩, hblank.2, hafter'⟩
    · rw [htrim, hset, hargs] at hwhole
      simpa using hwhole
  all_goals cases hline.symm.trans h

/-- **The lines that set a parameter are the assignments.** -/
theorem ofLine_eq_assign_iff {line name value : String} :
    ofLine line = .assign name value ↔ IsAssignment line name value :=
  ⟨isAssignment_of_ofLine, ofLine_of_isAssignment⟩

/-! ## Other lines -/

/-- Only the bare word `set` prints the environment. -/
theorem words_of_display {line : String} (h : ofLine line = .display) :
    words line.toList = ["set".toList] := by
  rcases ofLine_cases line with
    ⟨-, hline⟩ | ⟨_, hline⟩ | ⟨_, hline⟩ | ⟨-, hline⟩ | ⟨hne, hset, hline⟩ | ⟨-, -, -, hline⟩
  case inr.inr.inr.inr.inl =>
    rcases ofAssignment_cases (argumentText line).toList with
      ⟨hnil, -⟩ | ⟨_, _, -, hassign⟩ | ⟨-, husage⟩
    · rw [words_line hne, hset, ← words_trim (argumentText line).toList, hnil]
      rfl
    · cases (h.symm.trans hline).trans hassign
    · cases (h.symm.trans hline).trans husage
  all_goals cases hline.symm.trans h

/-- A command that is not one of the shell itself is the first word of its line. -/
theorem ofLine_eq_other {line : String} {word args : List Char} {text : String}
    (h : ofLine line = .other word args text) :
    IsWord word ∧ word ∉ reserved ∧ words line.toList = word :: words args := by
  rcases ofLine_cases line with
    ⟨-, hline⟩ | ⟨_, hline⟩ | ⟨_, hline⟩ | ⟨-, hline⟩ | ⟨-, -, hline⟩ | ⟨hne, hword, hfree, hline⟩
  case inr.inr.inr.inr.inl =>
    rcases ofAssignment_cases (argumentText line).toList with
      ⟨-, hdisplay⟩ | ⟨_, _, -, hassign⟩ | ⟨-, husage⟩
    · cases (h.symm.trans hline).trans hdisplay
    · cases (h.symm.trans hline).trans hassign
    · cases (h.symm.trans hline).trans husage
  case inr.inr.inr.inr.inr =>
    injection h.symm.trans hline with hfirst hargs
    rw [hfirst, hargs]
    exact ⟨hword, hfree, words_line hne⟩
  all_goals cases hline.symm.trans h

end Command

/-! ## Lines that run a tool -/

/-- The first word of the line is the name of a tool, and `tokens` are its other words. -/
structure IsToolLine (tools : Registry) (line name : String) (tool : Tool)
    (tokens : List (List Char)) : Prop where
  words_eq : words line.toList = name.toList :: tokens
  noHost : name.toList.head? ≠ some '!'
  noHelp : name.toList.head? ≠ some '?'
  free : name.toList ∉ reserved
  registered : tools.get? name = some tool

variable {tools : Registry} {line name : String} {tool : Tool} {tokens : List (List Char)}

theorem IsToolLine.trim_ne_nil (h : IsToolLine tools line name tool tokens) :
    trim line.toList ≠ [] := by
  intro hnil
  have hwords := h.words_eq
  rw [← words_trim, hnil] at hwords
  cases hwords

theorem IsToolLine.commandWord_eq (h : IsToolLine tools line name tool tokens) :
    commandWord line = name ∧ words (argumentText line).toList = tokens := by
  obtain ⟨hword, htokens⟩ := List.cons.inj ((words_line h.trim_ne_nil).symm.trans h.words_eq)
  exact ⟨String.toList_inj.1 hword, htokens⟩

theorem IsToolLine.isWord (h : IsToolLine tools line name tool tokens) : IsWord name.toList := by
  have htoken := isToken_commandWord h.trim_ne_nil
  rw [h.commandWord_eq.1] at htoken
  exact ⟨htoken.ne_nil, htoken.noSpace, h.noHost, h.noHelp⟩

theorem Shell.execute_of_isToolLine {shell : Shell}
    (h : IsToolLine shell.tools line name tool tokens) (s : State) :
    shell.execute s line = runTool tool (argumentText line).toList s :=
  execute_of_commandWord h.isWord h.free h.registered s h.commandWord_eq.1

end LayoutShell.Session
