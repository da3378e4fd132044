import LayoutShell.Proofs.Dictionaries
import LayoutShell.Proofs.Session.Lines
import LayoutShell.Proofs.Session.Runs

/-!
# What lines do to the environment

A line changes the parameters that it names and no others. An assignment names one parameter. A line
that runs a tool names those that its words give and those that its tool hands back.

* `Gives` says that a word gives a parameter a value, and `ExtendedBy` what an environment becomes
  by some words (`extendedBy_merge`).
* `LineEffect` is what a line does to the environment, and `lineEffect_execute` says that every line
  does this.
* `after_frame`: along every run of lines, each line has its effect, parameters are never lost, and
  those that no line names stay as they are.
-/

namespace LayoutShell.Session

open Files Text

/-! ## Parameters given by words -/

/-- The word is `name=value`, where the name is not empty and holds no equals sign. -/
def Gives (token : List Char) (name value : String) : Prop :=
  token = name.toList ++ '=' :: value.toList ∧ name ≠ "" ∧ '=' ∉ name.toList

/-- The last one of the words that give the parameter gives it this value. -/
def GivesLast (tokens : List (List Char)) (name value : String) : Prop :=
  ∃ before token after, tokens = before ++ token :: after ∧ Gives token name value ∧
    ∀ t ∈ after, ∀ v, ¬Gives t name v

/-- The environment `env'` is `env` with the parameters that the words give. -/
structure ExtendedBy (tokens : List (List Char)) (env env' : Environment) : Prop where
  given : ∀ name value, GivesLast tokens name value → env'.get? name = some (.string value)
  kept : ∀ name, (∀ token ∈ tokens, ∀ value, ¬Gives token name value) →
    env'.get? name = env.get? name

/-- A parameter that some word gives is given by a last one. -/
theorem givesLast_or_forall_not (tokens : List (List Char)) (name : String) :
    (∃ value, GivesLast tokens name value) ∨
      ∀ token ∈ tokens, ∀ value, ¬Gives token name value := by
  induction tokens with
  | nil => exact .inr (List.forall_mem_nil _)
  | cons token tokens ih =>
    rcases ih with ⟨value, before, last, after, rfl, hlast⟩ | hnone
    · exact .inl ⟨value, token :: before, last, after, rfl, hlast⟩
    · by_cases h : ∃ value, Gives token name value
      · obtain ⟨value, hvalue⟩ := h
        exact .inl ⟨value, [], token, tokens, rfl, hvalue, hnone⟩
      · exact .inr (List.forall_mem_cons.2 ⟨not_exists.1 h, hnone⟩)

theorem ExtendedBy.grown {tokens : List (List Char)} {env env' : Environment}
    (h : ExtendedBy tokens env env') {name : String} (hname : env.get? name ≠ none) :
    env'.get? name ≠ none := by
  rcases givesLast_or_forall_not tokens name with ⟨value, hvalue⟩ | hnone
  · rw [h.given name value hvalue]
    exact Option.some_ne_none _
  · rw [h.kept name hnone]
    exact hname

theorem splitAssignment_eq_some_iff {token name value : List Char} :
    splitAssignment token = some (name, value) ↔
      Gives token (String.ofList name) (String.ofList value) := by
  have hname : String.ofList name ≠ "" ↔ name ≠ [] := by
    rw [← String.ofList_nil, ne_eq, String.ofList_inj]
  rw [Gives, hname, String.toList_ofList, String.toList_ofList]
  constructor
  · intro h
    unfold splitAssignment at h
    split at h
    · cases h
    · next hne =>
      obtain ⟨d, rfl, hnot, hd⟩ := exists_of_splitFirst h
      obtain rfl : d = '=' := of_decide_eq_true hd
      refine ⟨rfl, fun hnil => hne value (hnil ▸ h), fun hmem => ?_⟩
      exact absurd (hnot '=' hmem) (by decide)
  · rintro ⟨rfl, hne, hnot⟩
    have hsplit : splitFirst (· = '=') (name ++ '=' :: value) = some (name, value) := by
      refine splitFirst_append (fun c hc => decide_eq_false ?_) (by decide) value
      rintro rfl
      exact hnot hc
    unfold splitAssignment
    rw [hsplit]
    split
    · next heq => exact absurd (Prod.mk.inj (Option.some.inj heq)).1 hne
    · rfl

namespace Extras

theorem add_of_gives {token : List Char} {name value : String} (h : Gives token name value)
    (e : Extras) : (e.add token).update = e.update.insert name (.string value) := by
  have hsplit : splitAssignment token = some (name.toList, value.toList) :=
    splitAssignment_eq_some_iff.2 (by simpa using h)
  rw [add, hsplit]
  simp

theorem get?_add_of_not_gives {token : List Char} {name : String}
    (h : ∀ value, ¬Gives token name value) (e : Extras) :
    (e.add token).update.get? name = e.update.get? name := by
  unfold add
  split
  · next name' value hsplit =>
    have hgives := splitAssignment_eq_some_iff.1 hsplit
    refine (Dict.get?_insert _ _ _ _).trans (if_neg ?_)
    rintro rfl
    exact h _ hgives
  · rfl

theorem extendedBy_foldl_add (tokens : List (List Char)) (e : Extras) :
    ExtendedBy tokens e.update (tokens.foldl add e).update := by
  induction tokens generalizing e with
  | nil =>
    refine ⟨?_, fun _ _ => rfl⟩
    rintro name value ⟨before, token, after, h, -⟩
    simp at h
  | cons token tokens ih =>
    refine ⟨?_, fun name hnone => ?_⟩
    · rintro name value ⟨before, token', after, h, hgives, hlast⟩
      cases before with
      | nil =>
        obtain ⟨rfl, rfl⟩ := List.cons.inj h
        rw [List.foldl_cons, (ih (e.add token)).kept name hlast, add_of_gives hgives]
        exact (Dict.get?_insert _ _ _ _).trans (if_pos rfl)
      | cons first before =>
        obtain ⟨rfl, rfl⟩ := List.cons.inj h
        exact (ih (e.add token)).given name value ⟨before, token', after, rfl, hgives, hlast⟩
    · rw [List.forall_mem_cons] at hnone
      rw [List.foldl_cons, (ih (e.add token)).kept name hnone.2, get?_add_of_not_gives hnone.1]

end Extras

/-- The parameters typed after a command extend the environment. -/
theorem extendedBy_merge (args : List Char) (env : Environment) :
    ExtendedBy (words args) env (env.merge (Extras.parse args).update) := by
  have h := Extras.extendedBy_foldl_add (words args) ⟨∅, []⟩
  refine ⟨fun name value hlast => ?_, fun name hnone => ?_⟩
  · rw [Dict.get?_merge, Extras.parse, h.given name value hlast]
    rfl
  · rw [Dict.get?_merge, Extras.parse, h.kept name hnone]
    rfl

/-! ## One line -/

/-- The outcome of a line is that of the tool, run on this environment and these files. -/
structure RanOn (tool : Tool) (env : Environment) (t : FileTree) (o : Outcome) : Prop where
  tree : o.state.tree = (tool.run env t).tree
  flow : o.flow = (tool.run env t).outcome.map fun _ => .next
  printed : ∃ notices, o.printed = [.session notices, .session (tool.run env t).output]
  /-- What the tool hands back counts. -/
  updated : ∀ update, (tool.run env t).outcome = .ok (some update) →
    ∀ name, o.state.env.get? name = (update.get? name).or (env.get? name)
  unchanged : (∀ update, (tool.run env t).outcome ≠ .ok (some update)) → o.state.env = env

/-- The line may change the parameter: it is an assignment of it, or runs a tool and one of its
words gives the parameter, or the tool hands it back. -/
def Names (shell : Shell) (s : State) (line name : String) : Prop :=
  (∃ value, IsAssignment line name value) ∨
    ∃ toolName tool tokens, IsToolLine shell.tools line toolName tool tokens ∧
      ((∃ token ∈ tokens, ∃ value, Gives token name value) ∨
        ∃ env update, ExtendedBy tokens s.env env ∧
          (tool.run env s.tree).outcome = .ok (some update) ∧ update.get? name ≠ none)

/-- What a line does to the environment. -/
structure LineEffect (shell : Shell) (s : State) (line : String) (o : Outcome) : Prop where
  assigned : ∀ name value, IsAssignment line name value →
    o.state.env.get? name = some (.string value) ∧
      ∀ other, other ≠ name → o.state.env.get? other = s.env.get? other
  /-- A tool sees the environment with the parameters typed after its name. -/
  ran : ∀ name tool tokens, IsToolLine shell.tools line name tool tokens →
    ∃ env, ExtendedBy tokens s.env env ∧ RanOn tool env s.tree o
  kept : (∀ name value, ¬IsAssignment line name value) →
    (∀ name tool tokens, ¬IsToolLine shell.tools line name tool tokens) → o.state.env = s.env
  framed : ∀ name, ¬Names shell s line name → o.state.env.get? name = s.env.get? name
  grown : ∀ name, s.env.get? name ≠ none → o.state.env.get? name ≠ none

theorem ranOn_runTool (tool : Tool) (args : String) (s : State) :
    RanOn tool (s.envFor args) s.tree (Shell.runTool tool args.toList s) := by
  rw [Shell.runTool_of_run rfl]
  refine ⟨rfl, rfl, ⟨_, rfl⟩, fun update hupdate name => ?_, fun hnone => ?_⟩
  · simp only [ToolRun.leaves, hupdate, Dict.get?_merge]
  · dsimp only [ToolRun.leaves]
    split
    · next update hupdate => exact absurd hupdate (hnone update)
    · rfl

theorem RanOn.grown {tool : Tool} {env : Environment} {t : FileTree} {o : Outcome}
    (h : RanOn tool env t o) {name : String} (hname : env.get? name ≠ none) :
    o.state.env.get? name ≠ none := by
  by_cases hupdate : ∃ update, (tool.run env t).outcome = .ok (some update)
  · obtain ⟨update, hupdate⟩ := hupdate
    rw [h.updated update hupdate]
    cases update.get? name with
    | none => exact hname
    | some v => exact Option.some_ne_none _
  · rw [h.unchanged (not_exists.1 hupdate)]
    exact hname

theorem RanOn.framed {tool : Tool} {env : Environment} {t : FileTree} {o : Outcome}
    (h : RanOn tool env t o) {name : String}
    (hname : ∀ update, (tool.run env t).outcome = .ok (some update) → update.get? name = none) :
    o.state.env.get? name = env.get? name := by
  by_cases hupdate : ∃ update, (tool.run env t).outcome = .ok (some update)
  · obtain ⟨update, hupdate⟩ := hupdate
    rw [h.updated update hupdate, hname update hupdate]
    rfl
  · rw [h.unchanged (not_exists.1 hupdate)]

/-- The environment after a command that is neither an assignment nor a tool's. -/
theorem Shell.env_run_of_other {shell : Shell} {c : Command} (s : State)
    (hassign : ∀ name value, c ≠ .assign name value)
    (htool : ∀ word args line, c = .other word args line →
      shell.tools.get? (String.ofList word) = none) : (shell.run s c).state.env = s.env := by
  cases c with
  | assign name value => exact absurd rfl (hassign name value)
  | host command =>
    rw [run, runHost]
    split <;> rfl
  | other word args line =>
    rw [run, htool word args line rfl]
    rfl
  | _ => rfl

theorem Shell.env_execute_of_other {shell : Shell} (s : State) {line : String}
    (hassign : ∀ name value, ¬IsAssignment line name value)
    (htool : ∀ name tool tokens, ¬IsToolLine shell.tools line name tool tokens) :
    (shell.execute s line).state.env = s.env := by
  refine env_run_of_other s (fun name value h => ?_) fun word args text h => ?_
  · exact hassign name value (Command.ofLine_eq_assign_iff.1 h)
  · obtain ⟨hword, hfree, hwords⟩ := Command.ofLine_eq_other h
    cases hget : shell.tools.get? (String.ofList word) with
    | none => rfl
    | some tool =>
      refine absurd ?_ (htool (String.ofList word) tool (words args))
      have hlist : (String.ofList word).toList = word := String.toList_ofList
      exact ⟨hlist.symm ▸ hwords, hlist.symm ▸ hword.noHost, hlist.symm ▸ hword.noHelp,
        hlist.symm ▸ hfree, hget⟩

theorem Shell.get?_execute_of_isAssignment (shell : Shell) (s : State) {line name value : String}
    (h : IsAssignment line name value) (other : String) :
    (shell.execute s line).state.env.get? other =
      if other = name then some (.string value) else s.env.get? other := by
  rw [execute, Command.ofLine_eq_assign_iff.2 h]
  exact Dict.get?_insert _ _ _ _

theorem Shell.exists_ranOn_execute {shell : Shell} (s : State) {line name : String} {tool : Tool}
    {tokens : List (List Char)} (h : IsToolLine shell.tools line name tool tokens) :
    ∃ env, ExtendedBy tokens s.env env ∧ RanOn tool env s.tree (shell.execute s line) := by
  rw [execute_of_isToolLine h]
  refine ⟨s.envFor (argumentText line), ?_, ranOn_runTool tool (argumentText line) s⟩
  rw [← h.commandWord_eq.2]
  exact extendedBy_merge _ _

/-- A line is an assignment, or runs a tool, or leaves the environment alone. -/
theorem Shell.execute_cases (shell : Shell) (s : State) (line : String) :
    (∃ name value, IsAssignment line name value) ∨
      (∃ name tool tokens env, IsToolLine shell.tools line name tool tokens ∧
        ExtendedBy tokens s.env env ∧ RanOn tool env s.tree (shell.execute s line)) ∨
      (shell.execute s line).state.env = s.env := by
  by_cases hassign : ∃ name value, IsAssignment line name value
  · exact .inl hassign
  by_cases htool : ∃ name tool tokens, IsToolLine shell.tools line name tool tokens
  · obtain ⟨name, tool, tokens, h⟩ := htool
    obtain ⟨env, hextended, hran⟩ := exists_ranOn_execute s h
    exact .inr (.inl ⟨name, tool, tokens, env, h, hextended, hran⟩)
  · refine .inr (.inr (env_execute_of_other s (fun name value h => ?_) ?_))
    · exact hassign ⟨name, value, h⟩
    · exact fun name tool tokens h => htool ⟨name, tool, tokens, h⟩

/-- **Every line has its effect on the environment and no other.** -/
theorem lineEffect_execute (shell : Shell) (s : State) (line : String) :
    LineEffect shell s line (shell.execute s line) where
  assigned name value h := by
    refine ⟨?_, fun other hother => ?_⟩
    · rw [shell.get?_execute_of_isAssignment s h, if_pos rfl]
    · rw [shell.get?_execute_of_isAssignment s h, if_neg hother]
  ran name tool tokens h := Shell.exists_ranOn_execute s h
  kept := Shell.env_execute_of_other s
  framed name hnames := by
    rcases shell.execute_cases s line with
      ⟨other, value, h⟩ | ⟨toolName, tool, tokens, env, h, hextended, hran⟩ | hkept
    · have hne : name ≠ other := fun heq => hnames (.inl ⟨value, heq ▸ h⟩)
      rw [shell.get?_execute_of_isAssignment s h, if_neg hne]
    · have hupdate : ∀ update, (tool.run env s.tree).outcome = .ok (some update) →
          update.get? name = none := fun update hupdate => by
        by_contra hne
        exact hnames (.inr ⟨toolName, tool, tokens, h, .inr ⟨env, update, hextended, hupdate, hne⟩⟩)
      rw [hran.framed hupdate]
      refine hextended.kept name fun token htoken value hgives => ?_
      exact hnames (.inr ⟨toolName, tool, tokens, h, .inl ⟨token, htoken, value, hgives⟩⟩)
    · rw [hkept]
  grown name hname := by
    rcases shell.execute_cases s line with
      ⟨other, value, h⟩ | ⟨toolName, tool, tokens, env, h, hextended, hran⟩ | hkept
    · rw [shell.get?_execute_of_isAssignment s h]
      split
      · exact Option.some_ne_none _
      · exact hname
    · exact hran.grown (hextended.grown hname)
    · rw [hkept]
      exact hname

/-! ## Runs -/

namespace Shell

theorem get?_after_ne_none (shell : Shell) (s : State) (lines : List String) {name : String}
    (h : s.env.get? name ≠ none) : (shell.after s lines).env.get? name ≠ none := by
  induction lines generalizing s with
  | nil => exact h
  | cons line lines ih => exact ih _ ((lineEffect_execute shell s line).grown name h)

theorem get?_after_of_not_names (shell : Shell) (s : State) (lines : List String) {name : String}
    (h : ∀ before line rest, lines = before ++ line :: rest →
      ¬Names shell (shell.after s before) line name) :
    (shell.after s lines).env.get? name = s.env.get? name := by
  induction lines generalizing s with
  | nil => rfl
  | cons line lines ih =>
    have hline := (lineEffect_execute shell s line).framed name (h [] line lines rfl)
    refine (ih (shell.execute s line).state fun before next rest hlines => ?_).trans hline
    exact h (line :: before) next rest (by rw [hlines]; rfl)

/-- **Along every run, each line changes the parameters that it names and no others.** Parameters
are never lost, and those that no line names stay as they were. -/
theorem after_frame (shell : Shell) (s : State) (lines : List String) :
    (∀ before line rest, lines = before ++ line :: rest →
      LineEffect shell (shell.after s before) line
        (shell.execute (shell.after s before) line)) ∧
    (∀ before rest, lines = before ++ rest → ∀ name,
      (shell.after s before).env.get? name ≠ none →
        (shell.after s lines).env.get? name ≠ none) ∧
    ∀ name, (∀ before line rest, lines = before ++ line :: rest →
        ¬Names shell (shell.after s before) line name) →
      (shell.after s lines).env.get? name = s.env.get? name := by
  refine ⟨fun before line rest _ => lineEffect_execute shell _ line, ?_,
    fun name => get?_after_of_not_names shell s lines⟩
  rintro before rest rfl name hname
  rw [after_append]
  exact get?_after_ne_none shell _ rest hname

end Shell

end LayoutShell.Session
