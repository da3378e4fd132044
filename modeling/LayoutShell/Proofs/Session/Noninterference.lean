import LayoutShell.Proofs.Dictionaries
import LayoutShell.Proofs.Session.LayoutCommand
import LayoutShell.Proofs.Session.Lines
import LayoutShell.Proofs.Session.Runs

/-!
# Unrelated parameters

A parameter that no tool reads has no influence on a session: it may be set between any of the
lines, and everything but its own value and the display of all parameters stays as it was.

* `Alike` relates two states that differ in one parameter at most, and `Tool.Ignores` says that a
  tool cannot tell such states apart.
* `execute_alike`: nor can a line, unless it displays all parameters.
* `session_added_alike` and `session_added` carry this to sessions with assignments added to them.
-/

namespace LayoutShell.Session

open Files Text

/-! ## States that differ in one parameter -/

/-- The environments hold the same parameters, except perhaps `key`. -/
def AgreeExcept (key : String) (env env' : Environment) : Prop :=
  ∀ name, name ≠ key → env.get? name = env'.get? name

/-- The states differ in the parameter `key` at most. -/
structure Alike (key : String) (s s' : State) : Prop where
  env : AgreeExcept key s.env s'.env
  tree : s.tree = s'.tree

/-- The tool does not read the parameter `key`. -/
def Tool.Ignores (tool : Tool) (key : String) : Prop :=
  ∀ env env' t, AgreeExcept key env env' → tool.run env t = tool.run env' t

variable {key : String} {env env' : Environment} {s s' : State}

theorem AgreeExcept.insert (h : AgreeExcept key env env') (name : String) (v : Json.Value) :
    AgreeExcept key (env.insert name v) (env'.insert name v) := fun other hother => by
  rw [Dict.get?_insert, Dict.get?_insert, h other hother]

theorem AgreeExcept.merge (h : AgreeExcept key env env') (update : Environment) :
    AgreeExcept key (env.merge update) (env'.merge update) := fun other hother => by
  rw [Dict.get?_merge, Dict.get?_merge, h other hother]

theorem AgreeExcept.leaves (h : AgreeExcept key env env') (run : ToolRun) :
    AgreeExcept key (run.leaves env) (run.leaves env') := by
  rcases run with ⟨output, tree, message | update⟩
  · exact h
  · cases update with
    | none => exact h
    | some update => exact h.merge update

theorem Alike.refl (key : String) (s : State) : Alike key s s := ⟨fun _ _ => rfl, rfl⟩

/-! ## The layout tool -/

theorem ofEnvironment_congr (h : AgreeExcept key env env') (happ : key ≠ disassembled.name)
    (hdatabase : key ≠ layoutDatabase.name) :
    Arguments.ofEnvironment env = Arguments.ofEnvironment env' := by
  have happ' : disassembled.requiredPath env = disassembled.requiredPath env' := by
    rw [Parameter.requiredPath, Parameter.requiredPath, h _ happ.symm]
  have hdatabase' : layoutDatabase.optionalPath env = layoutDatabase.optionalPath env' := by
    rw [Parameter.optionalPath, Parameter.optionalPath, h _ hdatabase.symm]
  rw [Arguments.ofEnvironment, Arguments.ofEnvironment, happ', hdatabase']

theorem ignores_layoutTool (fallback : String) (color : Bool) (happ : key ≠ disassembled.name)
    (hdatabase : key ≠ layoutDatabase.name) : (layoutTool fallback color).Ignores key := by
  intro env env' t h
  simp only [layoutTool, runLayoutTool]
  rw [ofEnvironment_congr h happ hdatabase]

theorem ignores_of_defaultTools {fallback : String} {color : Bool} {name : String} {tool : Tool}
    (htool : (defaultTools fallback color).get? name = some tool) (happ : key ≠ disassembled.name)
    (hdatabase : key ≠ layoutDatabase.name) : tool.Ignores key := by
  rw [defaultTools, Registry.register, Dict.get?_insert] at htool
  split at htool
  · obtain rfl := Option.some.inj htool
    exact ignores_layoutTool fallback color happ hdatabase
  · cases htool

/-! ## One line -/

/-- The outcomes show the same and lead to states that differ in `key` at most. -/
structure AlikeOutcomes (key : String) (o o' : Outcome) : Prop where
  shown : o.shown = o'.shown
  state : Alike key o.state o'.state

theorem runTool_alike {tool : Tool} (htool : tool.Ignores key) (h : Alike key s s')
    (args : String) :
    AlikeOutcomes key (Shell.runTool tool args.toList s) (Shell.runTool tool args.toList s') := by
  have hmerged : AgreeExcept key (s.envFor args) (s'.envFor args) :=
    h.env.merge (Extras.parse args.toList).update
  have hrun : tool.run (s'.envFor args) s'.tree = tool.run (s.envFor args) s.tree := by
    rw [← h.tree, htool _ _ s.tree hmerged]
  rw [Shell.runTool_of_run rfl, Shell.runTool_of_run hrun]
  exact ⟨rfl, hmerged.leaves _, rfl⟩

theorem run_alike {shell : Shell}
    (htools : ∀ name tool, shell.tools.get? name = some tool → tool.Ignores key)
    (h : Alike key s s') {c : Command} (hc : c ≠ .display) :
    AlikeOutcomes key (shell.run s c) (shell.run s' c) := by
  cases c with
  | display => exact absurd rfl hc
  | assign name value => exact ⟨rfl, h.env.insert name _, h.tree⟩
  | host command =>
    rw [Shell.run, Shell.run, Shell.runHost, Shell.runHost, h.tree]
    split
    · exact ⟨rfl, h⟩
    · exact ⟨rfl, h.env, rfl⟩
  | other word args line =>
    rw [Shell.run, Shell.run]
    cases hget : shell.tools.get? (String.ofList word) with
    | none => exact ⟨rfl, h⟩
    | some tool =>
      have hrun := runTool_alike (htools _ tool hget) h (String.ofList args)
      rwa [String.toList_ofList] at hrun
  | _ => exact ⟨rfl, h⟩

/-- **A line shows nothing of a parameter that the tools ignore**, unless it displays all
parameters. -/
theorem execute_alike {shell : Shell}
    (htools : ∀ name tool, shell.tools.get? name = some tool → tool.Ignores key)
    (h : Alike key s s') {line : String} (hline : words line.toList ≠ ["set".toList]) :
    AlikeOutcomes key (shell.execute s line) (shell.execute s' line) :=
  run_alike htools h fun hdisplay => hline (Command.words_of_display hdisplay)

theorem execute_added (shell : Shell) {line value : String} (hline : IsAssignment line key value)
    (h : Alike key s s') :
    (shell.execute s' line).flow = .ok .next ∧ Alike key s (shell.execute s' line).state := by
  rw [Shell.execute, Command.ofLine_of_isAssignment hline]
  refine ⟨rfl, fun name hname => ?_, h.tree⟩
  exact (h.env name hname).trans ((Dict.get?_insert _ _ _ _).trans (if_neg hname)).symm

/-! ## Sessions -/

/-- A line of a session to which lines were added. -/
inductive Turn
  | typed (line : String)
  | added (line : String)

namespace Turn

def line : Turn → String
  | typed line | added line => line

def typed? : Turn → Option String
  | typed line => some line
  | added _ => none

end Turn

/-- The outcomes of the lines that were not added. -/
def ofTyped (turns : List Turn) (outcomes : List Outcome) : List Outcome :=
  (turns.zip outcomes).filterMap fun (turn, o) => turn.typed?.map fun _ => o

/-- A session with lines added to it runs as the session without them, but for `key`. -/
structure Unaffected (key : String) (turns : List Turn) (s s' : State)
    (plain mixed : List Outcome) : Prop where
  shown : (ofTyped turns mixed).map Outcome.shown = plain.map Outcome.shown
  ending : endingOf mixed = endingOf plain
  final : Alike key (finalState s plain) (finalState s' mixed)

theorem ofTyped_cons_typed (line : String) (turns : List Turn) (o : Outcome)
    (outcomes : List Outcome) :
    ofTyped (.typed line :: turns) (o :: outcomes) = o :: ofTyped turns outcomes := rfl

/-- Both sessions take a line and go on. -/
theorem Unaffected.cons_typed {turns : List Turn} {o o' : Outcome} {plain mixed : List Outcome}
    (h : Unaffected key turns o.state o'.state plain mixed) (ho : AlikeOutcomes key o o')
    (hflow : o.flow = .ok .next) (line : String) :
    Unaffected key (.typed line :: turns) s s' (o :: plain) (o' :: mixed) := by
  have hflow' : o'.flow = .ok .next := (congrArg Prod.snd ho.shown).symm.trans hflow
  refine ⟨?_, ?_, ?_⟩
  · rw [ofTyped_cons_typed, List.map_cons, List.map_cons, ho.shown, h.shown]
  · rw [endingOf_cons_of_next hflow, endingOf_cons_of_next hflow', h.ending]
  · rw [finalState_cons, finalState_cons]
    exact h.final

/-- Both sessions end with a line. -/
theorem unaffected_of_ends {o o' : Outcome} (ho : AlikeOutcomes key o o') (line : String)
    (turns : List Turn) : Unaffected key (.typed line :: turns) s s' [o] [o'] := by
  refine ⟨?_, ?_, ho.state⟩
  · rw [ofTyped_cons_typed, ofTyped, List.zip_nil_right]
    exact congrArg (fun shown => [shown]) ho.shown.symm
  · have hflow : o'.flow = o.flow := (congrArg Prod.snd ho.shown).symm
    rw [endingOf, endingOf, List.getLast?_singleton, List.getLast?_singleton, Option.bind_some,
      Option.bind_some, hflow]

/-- The session with additions takes one of them and goes on. -/
theorem Unaffected.cons_added {turns : List Turn} {o : Outcome} {plain mixed : List Outcome}
    (h : Unaffected key turns s o.state plain mixed) (hflow : o.flow = .ok .next)
    (line : String) : Unaffected key (.added line :: turns) s s' plain (o :: mixed) := by
  refine ⟨h.shown, ?_, ?_⟩
  · rw [endingOf_cons_of_next hflow, h.ending]
  · rw [finalState_cons]
    exact h.final

/-- Sessions from states that differ in `key` at most, the second with assignments of `key`
added. -/
theorem session_added_alike {shell : Shell}
    (htools : ∀ name tool, shell.tools.get? name = some tool → tool.Ignores key)
    (h : Alike key s s') {turns : List Turn}
    (htyped : ∀ line, .typed line ∈ turns → words line.toList ≠ ["set".toList])
    (hadded : ∀ line, .added line ∈ turns → ∃ value, IsAssignment line key value) :
    Unaffected key turns s s' (shell.session s (turns.filterMap Turn.typed?))
      (shell.session s' (turns.map Turn.line)) := by
  induction turns generalizing s s' with
  | nil => exact ⟨rfl, rfl, h⟩
  | cons turn turns ih =>
    have htyped' := fun line hline => htyped line (List.mem_cons_of_mem turn hline)
    have hadded' := fun line hline => hadded line (List.mem_cons_of_mem turn hline)
    cases turn with
    | typed line =>
      have ho := execute_alike htools h (htyped line List.mem_cons_self)
      have hshown : (shell.execute s line).flow = (shell.execute s' line).flow :=
        congrArg Prod.snd ho.shown
      change Unaffected key _ s s' (shell.session s (line :: turns.filterMap Turn.typed?))
        (shell.session s' (line :: turns.map Turn.line))
      by_cases hflow : (shell.execute s line).flow = .ok .next
      · rw [Shell.session_cons_of_next hflow, Shell.session_cons_of_next (hshown.symm.trans hflow)]
        exact (ih ho.state htyped' hadded').cons_typed ho hflow line
      · rw [Shell.session_cons_of_ne hflow, Shell.session_cons_of_ne (hshown ▸ hflow)]
        exact unaffected_of_ends ho line turns
    | added line =>
      obtain ⟨value, hvalue⟩ := hadded line List.mem_cons_self
      obtain ⟨hflow, halike⟩ := execute_added shell hvalue h
      change Unaffected key _ s s' (shell.session s (turns.filterMap Turn.typed?))
        (shell.session s' (line :: turns.map Turn.line))
      rw [Shell.session_cons_of_next hflow]
      exact (ih halike htyped' hadded').cons_added hflow line

/-- **Assignments of a parameter that the layout tool does not read, added anywhere to a session,
change nothing else.** The lines of the session show what they showed, the session ends at the same
line in the same way, and the files and all other parameters are the same at its end. -/
theorem session_added (fallback : String) (color : Bool) (host : Host) (s : State)
    (happ : key ≠ disassembled.name) (hdatabase : key ≠ layoutDatabase.name)
    {turns : List Turn}
    (htyped : ∀ line, .typed line ∈ turns → words line.toList ≠ ["set".toList])
    (hadded : ∀ line, .added line ∈ turns → ∃ value, IsAssignment line key value) :
    Unaffected key turns s s
      (Shell.session ⟨defaultTools fallback color, host⟩ s (turns.filterMap Turn.typed?))
      (Shell.session ⟨defaultTools fallback color, host⟩ s (turns.map Turn.line)) :=
  session_added_alike (fun _ _ htool => ignores_of_defaultTools htool happ hdatabase)
    (Alike.refl key s) htyped hadded

/-- A remark set before, between and after the lines of a session. -/
def remarked : List Turn :=
  [.added "set remark  first draft ", .typed "parse_layout remark=none",
    .added "set remark second", .typed "set remark third", .typed "quit", .added "set remark last"]

theorem session_added_remarked :
    "remark" ≠ disassembled.name ∧ "remark" ≠ layoutDatabase.name ∧
      (∀ line, .typed line ∈ remarked → words line.toList ≠ ["set".toList]) ∧
      (∀ line, .added line ∈ remarked → ∃ value, IsAssignment line "remark" value) ∧
      Unaffected "remark" remarked ⟨∅, FileTree.empty⟩ ⟨∅, FileTree.empty⟩
        (Shell.session ⟨defaultTools "layouts.json" false, fun _ t => (t, [])⟩
          ⟨∅, FileTree.empty⟩ ["parse_layout remark=none", "set remark third", "quit"])
        (Shell.session ⟨defaultTools "layouts.json" false, fun _ t => (t, [])⟩
          ⟨∅, FileTree.empty⟩ (remarked.map Turn.line)) := by
  have happ : "remark" ≠ disassembled.name := by decide
  have hdatabase : "remark" ≠ layoutDatabase.name := by decide
  have hname : IsToken "remark".toList := ⟨by decide, forall_mem_of_all (by decide)⟩
  have htyped : ∀ line, .typed line ∈ remarked → words line.toList ≠ ["set".toList] := by
    intro line hline
    simp only [remarked, List.mem_cons, List.not_mem_nil, Turn.typed.injEq, reduceCtorEq, false_or,
      or_false] at hline
    rcases hline with rfl | rfl | rfl <;> decide
  have hadded : ∀ line, .added line ∈ remarked → ∃ value, IsAssignment line "remark" value := by
    intro line hline
    simp only [remarked, List.mem_cons, List.not_mem_nil, Turn.added.injEq, reduceCtorEq, false_or,
      or_false] at hline
    rcases hline with rfl | rfl | rfl
    · exact ⟨_, isAssignment_set hname " first draft " (by decide)⟩
    · exact ⟨_, isAssignment_set hname "second" (by decide)⟩
    · exact ⟨_, isAssignment_set hname "last" (by decide)⟩
  exact ⟨happ, hdatabase, htyped, hadded,
    session_added "layouts.json" false (fun _ t => (t, [])) ⟨∅, FileTree.empty⟩ happ hdatabase
      htyped hadded⟩

end LayoutShell.Session
