import LayoutShell.Proofs.Session.LayoutCommand

/-!
# What the layout command changes

A layout command writes its one file or nothing.

* `Outcome.Refuses` says that a command failed or asked for a parameter. What it asks for cannot be
  taken for anything else that a layout command prints (`head?_message`, `head?_render`,
  `head?_ignoredText`).
* `runTool_layoutTool_cases` lists the exits of the command, each with the state it leaves.
* `execute_layoutTool_changes`: a command that refuses leaves the files alone and the parameters
  typed after it in the environment, and any other command changes the file of its database.
-/

namespace LayoutShell.Session

open Files Json Layout

/-- A command failed, or said which parameter it needs. -/
def Outcome.Refuses (o : Outcome) : Prop :=
  (∃ message, o.flow = .error message) ∨
    ∃ e : ArgumentError, .session (e.message ++ "\n") ∈ o.printed

/-! ## Printed texts -/

theorem head?_append {s : String} {c : Char} (h : s.toList.head? = some c) (t : String) :
    (s ++ t).toList.head? = some c := by
  rw [String.toList_append, List.head?_append, h]
  rfl

theorem head?_message (e : ArgumentError) : (e.message ++ "\n").toList.head? = some 'M' := by
  have h : "Must provide \"".toList.head? = some 'M' := by decide
  unfold ArgumentError.message
  exact head?_append (head?_append (head?_append (head?_append h _) _) _) _

theorem head?_render (color : Bool) (summary : Summary) :
    (summary.render color).toList.head? ≠ some 'M' := by
  have h : (highlighted color "Done,").toList.head? = some (if color then '\x1b' else 'D') := by
    cases color <;> decide
  have hrender : (summary.render color).toList.head? = some (if color then '\x1b' else 'D') := by
    rw [Summary.render]
    iterate 9 apply head?_append
    exact h
  rw [hrender]
  cases color <;> decide

theorem head?_ignoredText (words : List String) :
    (Shell.ignoredText words).toList.head? ≠ some 'M' := by
  cases words with
  | nil => decide
  | cons word words =>
    have h : "Ignoring argument `".toList.head? = some 'I' := by decide
    rw [Shell.ignoredText, List.map_cons, String.join_cons,
      head?_append (head?_append (head?_append h _) _)]
    decide

theorem ne_message_of_head? {text : String} (h : text.toList.head? ≠ some 'M') (e : ArgumentError) :
    text ≠ e.message ++ "\n" := by
  rintro rfl
  exact h (head?_message e)

/-! ## Exits -/

/-- What a layout command does to the files when it does not refuse. -/
structure Changes (fallback : String) (env : Environment) (t t' : FileTree) (path : String)
    (l : Location) : Prop where
  /-- The path is the one that the environment names, or else the usual one. -/
  named : (env.get? "layout_database").getD (.string fallback) = .string path
  designates : t'.locate path = .ok l
  isFile : ∃ content, t'.entry? l = some (.file content)
  others : FileTree.AgreeExcept l t t'

theorem changes_of_writeDatabase {fallback : String} {env : Environment} {args : Arguments}
    {t t' : FileTree} {summary : Summary} (hargs : Arguments.ofEnvironment env = .ok args)
    (h : writeDatabase args.disassembled (args.database.getD fallback) t = .ok (t', summary)) :
    ∃ l, Changes fallback env t t' (args.database.getD fallback) l := by
  obtain ⟨c, -, h⟩ := bind_eq_ok_iff.1 h
  obtain ⟨t₁, houtput, h⟩ := bind_eq_ok_iff.1 h
  obtain ⟨rfl, -⟩ := Prod.mk.inj (Except.ok.inj h)
  obtain ⟨l, hlocate, hentry, hagree⟩ :=
    FileTree.agreeExcept_of_write (mapError_eq_ok_iff.1 houtput)
  obtain ⟨-, hdatabase⟩ := Arguments.ofEnvironment_eq_ok hargs
  obtain ⟨hdatabase, -⟩ := Parameter.optionalPath_eq_ok_iff.1 hdatabase
  refine ⟨l, ?_, hlocate, ⟨_, hentry⟩, hagree⟩
  rw [show env.get? "layout_database" = _ from hdatabase]
  cases args.database <;> rfl

/-- A layout command refuses if its tool hands nothing back, and then it leaves the files alone.
Otherwise it changes the file of its database. -/
theorem runTool_layoutTool_cases (fallback : String) (color : Bool) (args : String) (s : State) :
    let after := Shell.runTool (layoutTool fallback color) args.toList s
    let outcome := ((layoutTool fallback color).run (s.envFor args) s.tree).outcome
    (after.Refuses ∧ (∀ update, outcome ≠ .ok (some update)) ∧
      after.state = ⟨s.envFor args, s.tree⟩) ∨
    ¬after.Refuses ∧ after.flow = .ok .next ∧
      ∃ path l, Changes fallback (s.envFor args) s.tree after.state.tree path l := by
  have htool : (layoutTool fallback color).run (s.envFor args) s.tree =
      runLayoutTool fallback color (s.envFor args) s.tree := rfl
  rcases runLayoutTool_cases fallback color (s.envFor args) s.tree with
    ⟨e, hrun⟩ | ⟨e, hrun⟩ | ⟨arguments, t', summary, harguments, hwrite, hrun⟩
  · rw [Shell.runTool_of_run (htool.trans hrun), htool.trans hrun]
    exact .inl ⟨.inr ⟨e, List.mem_cons_of_mem _ List.mem_cons_self⟩, nofun, rfl⟩
  · rw [Shell.runTool_of_run (htool.trans hrun), htool.trans hrun]
    exact .inl ⟨.inl ⟨e.message, rfl⟩, nofun, rfl⟩
  · rw [Shell.runTool_of_run (htool.trans hrun)]
    obtain ⟨l, hchanges⟩ := changes_of_writeDatabase harguments hwrite
    refine .inr ⟨?_, rfl, _, l, hchanges⟩
    rintro (⟨message, hflow⟩ | ⟨e, hprinted⟩)
    · cases hflow
    · simp only [List.mem_cons, Printed.session.injEq, List.not_mem_nil, or_false] at hprinted
      rcases hprinted with h | h
      · exact ne_message_of_head? (head?_ignoredText _) e h.symm
      · exact ne_message_of_head? (head?_render color summary) e h.symm

/-- **The layout command writes its one file or nothing.** -/
theorem execute_layoutTool_changes (fallback : String) (color : Bool) (host : Host) (s : State)
    {line : String} (h : commandWord line = "parse_layout") :
    let after := Shell.execute ⟨defaultTools fallback color, host⟩ s line
    (after.Refuses → after.state = ⟨s.envFor (argumentText line), s.tree⟩) ∧
      (¬after.Refuses → after.flow = .ok .next ∧
        ∃ path l,
          Changes fallback (s.envFor (argumentText line)) s.tree after.state.tree path l) := by
  have hexecute : Shell.execute ⟨defaultTools fallback color, host⟩ s line =
      Shell.runTool (layoutTool fallback color) (argumentText line).toList s :=
    Shell.execute_of_commandWord isWord_layoutTool (by decide) (get?_defaultTools fallback color)
      s h
  rw [hexecute]
  rcases runTool_layoutTool_cases fallback color (argumentText line) s with
    ⟨hrefuses, -, hstate⟩ | ⟨hrefuses, hchanges⟩
  · exact ⟨fun _ => hstate, fun hno => absurd hrefuses hno⟩
  · exact ⟨fun hyes => absurd hyes hrefuses, fun _ => hchanges⟩

/-! The same file tree with a line that is not trimmed, and with one that lacks a parameter. -/

namespace InPlace

def shell : Shell := ⟨defaultTools "layouts.json" false, fun _ t => (t, [])⟩

def spacedLine : String := "\t parse_layout\t" ++ args

def shortLine : String := "parse_layout layout_database=out.json"

theorem commandWord_lines :
    commandWord spacedLine = "parse_layout" ∧ commandWord shortLine = "parse_layout" := by
  decide

theorem envFor_spacedLine : state.envFor (argumentText spacedLine) = state.envFor args := by
  have htext : (argumentText spacedLine).toList = Text.trimRight args.toList := by decide +kernel
  unfold State.envFor
  rw [htext, Extras.parse_trimRight]

theorem not_refuses_spacedLine : ¬(shell.execute state spacedLine).Refuses := by
  obtain ⟨update, hupdate⟩ := exists_update
  have hexecute : shell.execute state spacedLine =
      Shell.runTool (layoutTool "layouts.json" false) (argumentText spacedLine).toList state :=
    Shell.execute_of_commandWord isWord_layoutTool (by decide) (get?_defaultTools _ _) state
      commandWord_lines.1
  rw [hexecute]
  rcases runTool_layoutTool_cases "layouts.json" false (argumentText spacedLine) state with
    ⟨-, hnone, -⟩ | ⟨hno, -⟩
  · rw [envFor_spacedLine] at hnone
    exact absurd hupdate (hnone update)
  · exact hno

theorem refuses_shortLine : (shell.execute ⟨∅, tree⟩ shortLine).Refuses :=
  .inr ⟨.missing disassembled, by decide +kernel⟩

end InPlace

theorem execute_layoutTool_changes_inPlace :
    (commandWord InPlace.spacedLine = "parse_layout" ∧
      ∃ path l, Changes "layouts.json" (InPlace.state.envFor InPlace.args) InPlace.tree
        (InPlace.shell.execute InPlace.state InPlace.spacedLine).state.tree path l) ∧
    commandWord InPlace.shortLine = "parse_layout" ∧
      (InPlace.shell.execute ⟨∅, InPlace.tree⟩ InPlace.shortLine).state =
        ⟨Dict.empty.insert "layout_database" (.string "out.json"), InPlace.tree⟩ := by
  obtain ⟨hspaced, hshort⟩ := InPlace.commandWord_lines
  refine ⟨⟨hspaced, ?_⟩, hshort, ?_⟩
  · obtain ⟨-, path, l, hchanges⟩ := (execute_layoutTool_changes "layouts.json" false
      (fun _ t => (t, [])) InPlace.state hspaced).2 InPlace.not_refuses_spacedLine
    rw [InPlace.envFor_spacedLine] at hchanges
    exact ⟨path, l, hchanges⟩
  · have hstate := (execute_layoutTool_changes "layouts.json" false
      (fun _ t => (t, [])) ⟨∅, InPlace.tree⟩ hshort).1 InPlace.refuses_shortLine
    exact hstate.trans rfl

end LayoutShell.Session
