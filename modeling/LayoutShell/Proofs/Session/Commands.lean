import LayoutShell.Proofs.Text.Cutting
import LayoutShell.Session.Shell
import Mathlib.Data.List.TakeWhile

/-!
# Commands of tools

A line is cut at its first white space into a command word and an argument text. White space around
the line counts for neither. A line whose word is the name of a tool runs the tool on its arguments.

* `commandWord` and `argumentText` are the two parts of a line, and `ofLine_of_commandWord` says
  that the line is taken apart so.
* `execute_of_commandWord` is what executing a line comes to if its word names a tool.
* `runTool_of_run` is what the work of a tool does to the session.
-/

namespace LayoutShell.Session

open Text

/-- A word that a line can begin with: it holds no white space, and does not begin with one of the
signs that stand for a command themselves. -/
structure IsWord (word : List Char) : Prop where
  ne_nil : word ≠ []
  noSpace : ∀ c ∈ word, isSpace c = false
  noHost : word.head? ≠ some '!'
  noHelp : word.head? ≠ some '?'

/-- The words of the shell itself, which no tool can take. -/
def reserved : List (List Char) :=
  ["set".toList, "shell".toList, "help".toList, "quit".toList]

/-- The word that a line begins with. -/
def commandWord (line : String) : String :=
  String.ofList ((trim line.toList).takeWhile fun c => !isSpace c)

/-- What follows the word of a line and one white space character after it. -/
def argumentText (line : String) : String :=
  String.ofList ((trim line.toList).dropWhile fun c => !isSpace c).tail

namespace Command

theorem ofWord_of_not_reserved {word : List Char} (h : word ∉ reserved) (line args : List Char) :
    ofWord line word args = .other word args (String.ofList line) := by
  simp only [reserved, List.mem_cons, List.not_mem_nil, or_false, not_or] at h
  obtain ⟨hset, hshell, hhelp, hquit⟩ := h
  rw [ofWord, if_neg hset, if_neg hshell, if_neg hhelp, if_neg hquit]

theorem trim_append {word : List Char} (h : IsWord word) (args : List Char) :
    trim (word ++ ' ' :: args) =
      if trimRight args = [] then word else word ++ ' ' :: trimRight args := by
  have hleft : trimLeft (word ++ ' ' :: args) = word ++ ' ' :: args := by
    cases word with
    | nil => exact absurd rfl h.ne_nil
    | cons c word =>
      exact List.dropWhile_cons_of_neg (Bool.eq_false_iff.1 (h.noSpace c List.mem_cons_self))
  have hright : trimRight (' ' :: args) =
      if trimRight args = [] then [] else ' ' :: trimRight args :=
    dropRightWhile_append isSpace [' '] args
  have hword : trimRight word = word := dropRightWhile_of_not h.noSpace
  rw [trim, hleft, trimRight, dropRightWhile_append, ← trimRight, ← trimRight, hright, hword]
  split <;> simp

/-- A line without a leading sign is cut after its word. -/
theorem ofLine_of_commandWord {line name : String} (h : commandWord line = name)
    (hname : IsWord name.toList) :
    ofLine line = ofWord (trim line.toList) name.toList (argumentText line).toList := by
  have hword : (trim line.toList).takeWhile (fun c => !isSpace c) = name.toList := by
    rw [← h, commandWord, String.toList_ofList]
  have hparts : trim line.toList =
      name.toList ++ (trim line.toList).dropWhile fun c => !isSpace c :=
    hword ▸ List.takeWhile_append_dropWhile.symm
  have hhead : (trim line.toList).head? = name.toList.head? := by
    obtain ⟨c, word, hcons⟩ := List.exists_cons_of_ne_nil hname.ne_nil
    rw [hparts, hcons]
    rfl
  rw [ofLine]
  split
  next e => exact absurd (hhead.symm.trans (congrArg List.head? e)) (by simp [hname.ne_nil])
  next e => exact absurd (hhead.symm.trans (congrArg List.head? e)) hname.noHost
  next e => exact absurd (hhead.symm.trans (congrArg List.head? e)) hname.noHelp
  next =>
    rw [splitFirst_eq, hword, argumentText, String.toList_ofList]
    cases hrest : (trim line.toList).dropWhile fun c => !isSpace c with
    | nil =>
      rw [hrest, List.append_nil] at hparts
      rw [hparts]
      rfl
    | cons c rest => rfl

/-- White space at the end of a line is no argument. -/
theorem commandWord_append {word : List Char} (h : IsWord word) (args : List Char) :
    commandWord (String.ofList (word ++ ' ' :: args)) = String.ofList word ∧
      argumentText (String.ofList (word ++ ' ' :: args)) = String.ofList (trimRight args) := by
  have hword : ∀ c ∈ word, (!isSpace c) = true := fun c hc => by rw [h.noSpace c hc]; rfl
  rw [commandWord, argumentText, String.toList_ofList, trim_append h]
  split
  next hargs => simp [List.takeWhile_eq_self_iff.2 hword, List.dropWhile_eq_nil_iff.2 hword, hargs]
  next =>
    rw [List.takeWhile_append_of_pos hword, List.dropWhile_append_of_pos hword]
    simp [show isSpace ' ' = true by rfl]

end Command

theorem Extras.parse_trimRight (args : List Char) : parse (trimRight args) = parse args := by
  rw [parse, words_trimRight, parse]

/-- The environment that a tool runs on, with the parameters typed after its name. -/
def State.envFor (s : State) (args : String) : Environment :=
  s.env.merge (Extras.parse args.toList).update

/-- The environment after the work of a tool, with the parameters it hands back. -/
def ToolRun.leaves (run : ToolRun) (env : Environment) : Environment :=
  match run.outcome with
  | .ok (some update) => env.merge update
  | _ => env

namespace Shell

/-- **A line whose word is the name of a tool runs the tool on the rest of the line.** -/
theorem execute_of_commandWord {shell : Shell} {name : String} {tool : Tool}
    (hname : IsWord name.toList) (hfree : name.toList ∉ reserved)
    (htool : shell.tools.get? name = some tool) (s : State) {line : String}
    (h : commandWord line = name) :
    shell.execute s line = runTool tool (argumentText line).toList s := by
  rw [execute, Command.ofLine_of_commandWord h hname, Command.ofWord_of_not_reserved hfree, run,
    String.ofList_toList, htool]

theorem execute_append {shell : Shell} {name : String} {tool : Tool} (hname : IsWord name.toList)
    (hfree : name.toList ∉ reserved) (htool : shell.tools.get? name = some tool) (s : State)
    (args : String) : shell.execute s (name ++ " " ++ args) = runTool tool args.toList s := by
  have hline : name ++ " " ++ args = String.ofList (name.toList ++ ' ' :: args.toList) := by
    apply String.toList_inj.1
    simp
  obtain ⟨hword, hargs⟩ := Command.commandWord_append hname args.toList
  rw [String.ofList_toList] at hword
  rw [hline, execute_of_commandWord hname hfree htool s hword, hargs, String.toList_ofList, runTool,
    Extras.parse_trimRight, runTool]

/-- What the work of a tool does to the session. -/
theorem runTool_of_run {tool : Tool} {args : String} {s : State} {run : ToolRun}
    (h : tool.run (s.envFor args) s.tree = run) :
    runTool tool args.toList s =
      ⟨⟨run.leaves (s.envFor args), run.tree⟩,
        [.session (ignoredText (Extras.parse args.toList).ignored), .session run.output],
        run.outcome.map fun _ => .next⟩ := by
  subst h
  unfold State.envFor
  rw [runTool]
  split
  next e => rw [ToolRun.leaves, e]; rfl
  next e => rw [ToolRun.leaves, e]; rfl
  next e => rw [ToolRun.leaves, e]; rfl

theorem runTool_of_update {tool : Tool} {args : String} {s : State} {update : Environment}
    (h : (tool.run (s.envFor args) s.tree).outcome = .ok (some update)) :
    runTool tool args.toList s =
      ⟨⟨(s.envFor args).merge update, (tool.run (s.envFor args) s.tree).tree⟩,
        [.session (ignoredText (Extras.parse args.toList).ignored),
          .session (tool.run (s.envFor args) s.tree).output], .ok .next⟩ := by
  rw [runTool_of_run rfl, ToolRun.leaves, h]
  rfl

end Shell

end LayoutShell.Session
