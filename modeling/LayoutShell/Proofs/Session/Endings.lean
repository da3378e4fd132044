import LayoutShell.Proofs.Session.LayoutCommand
import LayoutShell.Proofs.Session.Lines
import LayoutShell.Proofs.Session.Runs

/-!
# What ends a session

A session with the default tools ends by the word `quit`, or by a layout command whose parameters
are usable and whose work fails. Every other line goes on to the next one, also a layout command
that only says which parameter it needs.

* `Usable` says what the layout command takes from an environment, and `Hindered` what can go wrong
  from there (`exists_writeDatabase_error_iff`).
* `flow_execute` is how a line ends, by its first word.
* `RunsThrough` says that none of some lines ends a session, and `session_of_ends` that a session
  has no outcomes beyond the first line that ends it.
* `session_ends`: these lines end a session and no others, and a session says farewell only if it
  runs out of lines.
-/

namespace LayoutShell.Session

open Files Json Layout

/-! ## The work of the layout command -/

/-- The environment names the folder of an app, and the file of the database unless that is the
usual one. -/
structure Usable (fallback : String) (env : Environment) (app path : String) : Prop where
  app : env.get? "disassembled" = some (.string app) ∧ app ≠ ""
  path : env.get? "layout_database" = none ∧ path = fallback ∨
    env.get? "layout_database" = some (.string path) ∧ path ≠ ""

/-- Why the database of an app is not written to `path`. -/
inductive Hindered (t : FileTree) (app path : String) : Prop
  /-- The layouts cannot be listed. -/
  | unlisted {e : DiscoveryError} (h : findLayouts t (resourcesOf app) = .error e)
  /-- A layout cannot be read, or is none. -/
  | unusable {layouts : List String} {file : String} {e : AnalysisError}
      (h : findLayouts t (resourcesOf app) = .ok layouts) (hfile : file ∈ layouts)
      (hbad : FileFails t file e)
  /-- The file of the database cannot be created. -/
  | unwritable (h : ∀ content t', t.write path content ≠ .ok t')

/-- The parameters of the layout command are usable if they are read from the environment. -/
theorem usable_iff {fallback : String} {env : Environment} {app path : String} :
    Usable fallback env app path ↔
      ∃ args, Arguments.ofEnvironment env = .ok args ∧ args.disassembled = app ∧
        args.database.getD fallback = path := by
  constructor
  · rintro ⟨happ, hpath⟩
    have happ' : disassembled.requiredPath env = .ok app :=
      Parameter.requiredPath_eq_ok_iff.2 happ
    obtain ⟨path?, hpath?, hgetD⟩ : ∃ path?, layoutDatabase.optionalPath env = .ok path? ∧
        path?.getD fallback = path := by
      rcases hpath with ⟨hnone, rfl⟩ | ⟨hsome, hne⟩
      · exact ⟨none, Parameter.optionalPath_eq_ok_iff.2 ⟨hnone, by simp⟩, rfl⟩
      · exact ⟨some path, Parameter.optionalPath_eq_ok_iff.2 ⟨hsome, by simp [hne]⟩, rfl⟩
    exact ⟨⟨app, path?⟩, bind_eq_ok_iff.2 ⟨app, happ', bind_eq_ok_iff.2 ⟨path?, hpath?, rfl⟩⟩, rfl,
      hgetD⟩
  · rintro ⟨args, hargs, rfl, rfl⟩
    obtain ⟨happ, hpath⟩ := Arguments.ofEnvironment_eq_ok hargs
    obtain ⟨hget, hne⟩ := Parameter.optionalPath_eq_ok_iff.1 hpath
    refine ⟨Parameter.requiredPath_eq_ok_iff.1 happ, ?_⟩
    cases hdatabase : args.database with
    | none =>
      rw [hdatabase] at hget
      exact .inl ⟨hget, rfl⟩
    | some path =>
      rw [hdatabase] at hget hne
      exact .inr ⟨hget, fun hempty => hne (congrArg some hempty)⟩

/-- Whether a file can be created does not depend on its content. -/
theorem write_ne_ok_iff {t : FileTree} {path : String} (content : List UInt8) :
    (∀ content t', t.write path content ≠ .ok t') ↔
      ∃ cause, t.write path content = .error cause := by
  unfold FileTree.write
  cases t.destination path with
  | error cause => exact iff_of_true (fun _ _ => nofun) ⟨cause, rfl⟩
  | ok l => exact iff_of_false (fun h => h content _ rfl) nofun

theorem analyze_eq (c : Collection) (t : FileTree) (resources : String) :
    c.analyze t resources = (findLayouts t resources).mapError .discovery >>= fun paths =>
      (collect t paths).map fun found => (c.union found, paths.length) := by
  unfold Collection.analyze
  rw [run_absorb]
  cases findLayouts t resources with
  | error e => rfl
  | ok paths =>
    dsimp only
    cases hcollect : collect t paths with
    | error e => simp [Except.mapError, bind, Except.bind, Except.map, hcollect]
    | ok found => simp [Except.mapError, bind, Except.bind, Except.map, hcollect]

/-- **The database of an app is not written exactly if something hinders it.** -/
theorem exists_writeDatabase_error_iff {t : FileTree} {app path : String} :
    (∃ e, writeDatabase app path t = .error e) ↔ Hindered t app path := by
  unfold writeDatabase
  rw [analyze_eq]
  cases hlayouts : findLayouts t (resourcesOf app) with
  | error e => exact iff_of_true ⟨_, rfl⟩ (.unlisted hlayouts)
  | ok layouts =>
    simp only [Except.mapError, bind, Except.bind]
    cases hcollect : collect t layouts with
    | error e =>
      obtain ⟨before, file, after, rfl, -, hbad⟩ := collect_eq_error_iff.1 hcollect
      exact iff_of_true ⟨e, rfl⟩ (.unusable hlayouts (by simp) hbad)
    | ok found =>
      -- all layouts are good, so only the file can be in the way
      have hgood := (collect_eq_ok hcollect).1
      have hwrite : Hindered t app path ↔ ∀ content t', t.write path content ≠ .ok t' := by
        refine ⟨fun h => ?_, .unwritable⟩
        cases h with
        | unlisted h => cases h.symm.trans hlayouts
        | @unusable layouts' file e h hfile hbad =>
          obtain rfl := Except.ok.inj (h.symm.trans hlayouts)
          obtain ⟨r, hr⟩ := hgood file hfile
          cases (fileReferences_eq_error_iff.2 hbad).symm.trans (fileReferences_eq_ok_iff.2 hr)
        | unwritable h => exact h
      rw [hwrite, write_ne_ok_iff (Text.encode
        (Collection.database (References.empty.union found)).render.toList)]
      simp only [Except.map, Collection.output, Database.save]
      cases t.write path _ with
      | error cause => exact iff_of_true ⟨_, rfl⟩ ⟨cause, rfl⟩
      | ok t' => exact iff_of_false nofun nofun

/-! ## One line -/

/-- The line runs the layout command, whose parameters are usable and whose work fails. -/
def LayoutFailure (fallback : String) (s : State) (line : String) : Prop :=
  commandWord line = "parse_layout" ∧
    ∃ app path, Usable fallback (s.envFor (argumentText line)) app path ∧ Hindered s.tree app path

/-- The line ends a session that is in the state `s`. -/
def Ends (fallback : String) (s : State) (line : String) : Prop :=
  commandWord line = "quit" ∨ LayoutFailure fallback s line

theorem isWord_quit : IsWord "quit".toList where
  ne_nil := by decide
  noSpace := Text.forall_mem_of_all (by decide)
  noHost := by decide
  noHelp := by decide

theorem outcome_layoutTool_error_iff {fallback : String} (color : Bool) {env : Environment}
    {t : FileTree} :
    (∃ message, ((layoutTool fallback color).run env t).outcome = .error message) ↔
      ∃ app path, Usable fallback env app path ∧ Hindered t app path := by
  simp only [← exists_writeDatabase_error_iff, usable_iff]
  show (∃ message, (runLayoutTool fallback color env t).outcome = .error message) ↔ _
  unfold runLayoutTool
  cases hargs : Arguments.ofEnvironment env with
  | error e => exact iff_of_false nofun nofun
  | ok args =>
    dsimp only
    cases hwrite : writeDatabase args.disassembled (args.database.getD fallback) t with
    | error e => exact iff_of_true ⟨_, rfl⟩ ⟨_, _, ⟨args, rfl, rfl, rfl⟩, e, hwrite⟩
    | ok result =>
      refine iff_of_false nofun ?_
      rintro ⟨_, _, ⟨args', hargs', rfl, rfl⟩, e, he⟩
      obtain rfl := Except.ok.inj hargs'
      cases he.symm.trans hwrite

section

variable (fallback : String) (color : Bool) (host : Host) (s : State) (line : String)

theorem get?_defaultTools_of_ne {name : String} (h : name ≠ "parse_layout") :
    (defaultTools fallback color).get? name = none := by
  rw [defaultTools, Registry.register, Dict.get?_insert]
  exact if_neg h

/-- The command `quit` leaves, the layout command ends as its tool does, and every other line goes
on. -/
theorem flow_execute :
    (Shell.execute ⟨defaultTools fallback color, host⟩ s line).flow =
      if commandWord line = "quit" then .ok .leave
      else if commandWord line = "parse_layout" then
        ((layoutTool fallback color).run (s.envFor (argumentText line)) s.tree).outcome.map
          fun _ => .next
      else .ok .next := by
  by_cases hquit : commandWord line = "quit"
  · rw [if_pos hquit, Shell.execute, Command.ofLine_of_commandWord hquit isWord_quit]
    rfl
  rw [if_neg hquit]
  by_cases hlayout : commandWord line = "parse_layout"
  · rw [if_pos hlayout, Shell.execute_of_commandWord isWord_layoutTool (by decide)
      (get?_defaultTools fallback color) s hlayout, Shell.runTool_of_run rfl]
  rw [if_neg hlayout, Shell.execute]
  rcases Command.ofLine_cases line with ⟨-, h⟩ | ⟨command, h⟩ | ⟨topic, h⟩ | ⟨hword, -⟩ |
    ⟨-, -, h⟩ | ⟨-, -, -, h⟩
  · rw [h]
    rfl
  · rw [h, Shell.run, Shell.runHost]
    split <;> rfl
  · rw [h]
    rfl
  · exact absurd hword hquit
  · rw [h]
    rcases Command.ofAssignment_cases (argumentText line).toList with
      ⟨-, h⟩ | ⟨_, _, -, h⟩ | ⟨-, h⟩ <;>
    · rw [h]
      rfl
  · rw [h, Shell.run, String.ofList_toList, get?_defaultTools_of_ne fallback color hlayout]
    rfl

theorem flow_eq_leave_iff :
    (Shell.execute ⟨defaultTools fallback color, host⟩ s line).flow = .ok .leave ↔
      commandWord line = "quit" := by
  rw [flow_execute]
  split
  next h => exact iff_of_true rfl h
  next h =>
    refine iff_of_false (fun hflow => ?_) h
    split at hflow
    · obtain ⟨_, -, hnext⟩ := map_eq_ok_iff.1 hflow
      cases hnext
    · cases hflow

theorem exists_flow_eq_error_iff :
    (∃ message, (Shell.execute ⟨defaultTools fallback color, host⟩ s line).flow =
        .error message) ↔ LayoutFailure fallback s line := by
  rw [flow_execute, LayoutFailure, ← outcome_layoutTool_error_iff color]
  split
  next h => exact iff_of_false nofun fun hlayout => absurd (h.symm.trans hlayout.1) (by decide)
  next =>
    split
    next h => simp only [map_eq_error_iff, h, true_and]
    next h => exact iff_of_false nofun fun hlayout => h hlayout.1

theorem flow_ne_next_iff :
    (Shell.execute ⟨defaultTools fallback color, host⟩ s line).flow ≠ .ok .next ↔
      Ends fallback s line := by
  rw [Ends, ← flow_eq_leave_iff fallback color host s line,
    ← exists_flow_eq_error_iff fallback color host s line]
  rcases (Shell.execute ⟨defaultTools fallback color, host⟩ s line).flow with
    message | _ | _ <;> simp

end

/-! ## Runs of lines -/

namespace Shell

/-- The outcomes of lines that are executed one after another, whatever they come to. -/
def outcomes (shell : Shell) (s : State) : List String → List Outcome
  | [] => []
  | line :: rest => shell.execute s line :: outcomes shell (shell.execute s line).state rest

theorem finalState_outcomes (shell : Shell) (s : State) (lines : List String) :
    finalState s (shell.outcomes s lines) = shell.after s lines := by
  induction lines generalizing s with
  | nil => rfl
  | cons line rest ih => rw [outcomes, finalState_cons, ih, after, after, List.foldl_cons]

/-- None of the lines ends the session in which they are executed one after another. -/
def RunsThrough (fallback : String) (shell : Shell) (s : State) (lines : List String) : Prop :=
  ∀ before line rest, lines = before ++ line :: rest → ¬Ends fallback (shell.after s before) line

theorem runsThrough_cons_iff {fallback : String} {shell : Shell} {s : State} {line : String}
    {rest : List String} :
    RunsThrough fallback shell s (line :: rest) ↔
      ¬Ends fallback s line ∧ RunsThrough fallback shell (shell.execute s line).state rest := by
  constructor
  · intro h
    refine ⟨h [] line rest rfl, fun before next after hrest => ?_⟩
    exact h (line :: before) next after (by rw [hrest, List.cons_append])
  · rintro ⟨hline, hrest⟩ before next after h
    cases before with
    | nil =>
      obtain ⟨rfl, -⟩ := List.cons.inj h
      exact hline
    | cons first before =>
      obtain ⟨rfl, hsplit⟩ := List.cons.inj h
      exact hrest before next after hsplit

/-- Lines run through, or one of them is the first that ends the session. -/
theorem runsThrough_or_exists (fallback : String) (shell : Shell) (s : State)
    (lines : List String) :
    RunsThrough fallback shell s lines ∨
      ∃ before line rest, lines = before ++ line :: rest ∧ RunsThrough fallback shell s before ∧
        Ends fallback (shell.after s before) line := by
  induction lines generalizing s with
  | nil => exact .inl fun before line rest h => absurd h (by simp)
  | cons first lines ih =>
    by_cases hfirst : Ends fallback s first
    · exact .inr ⟨[], first, lines, rfl, fun before line rest h => absurd h (by simp), hfirst⟩
    · rcases ih (shell.execute s first).state with hruns | ⟨before, line, rest, rfl, hruns, hends⟩
      · exact .inl (runsThrough_cons_iff.2 ⟨hfirst, hruns⟩)
      · exact .inr ⟨first :: before, line, rest, rfl, runsThrough_cons_iff.2 ⟨hfirst, hruns⟩, hends⟩

variable {fallback : String} {color : Bool} {host : Host}

theorem session_of_runsThrough {s : State} {lines : List String}
    (h : RunsThrough fallback ⟨defaultTools fallback color, host⟩ s lines) :
    session ⟨defaultTools fallback color, host⟩ s lines =
        outcomes ⟨defaultTools fallback color, host⟩ s lines ∧
      endingOf (outcomes ⟨defaultTools fallback color, host⟩ s lines) = .endOfInput := by
  induction lines generalizing s with
  | nil => exact ⟨rfl, rfl⟩
  | cons line rest ih =>
    rw [runsThrough_cons_iff, ← flow_ne_next_iff fallback color host, not_not] at h
    obtain ⟨hsession, hending⟩ := ih h.2
    rw [session_cons_of_next h.1, hsession, outcomes, endingOf_cons_of_next h.1]
    exact ⟨rfl, hending⟩

/-- **A session has no outcomes beyond the first line that ends it.** -/
theorem session_of_ends {s : State} {before : List String} {line : String}
    (h : RunsThrough fallback ⟨defaultTools fallback color, host⟩ s before)
    (hends : Ends fallback (after ⟨defaultTools fallback color, host⟩ s before) line)
    (rest : List String) :
    session ⟨defaultTools fallback color, host⟩ s (before ++ line :: rest) =
        outcomes ⟨defaultTools fallback color, host⟩ s (before ++ [line]) ∧
      some (endingOf (outcomes ⟨defaultTools fallback color, host⟩ s (before ++ [line]))) =
        endingAfter (execute ⟨defaultTools fallback color, host⟩
          (after ⟨defaultTools fallback color, host⟩ s before) line).flow := by
  induction before generalizing s with
  | nil =>
    have hne := (flow_ne_next_iff fallback color host s line).2 hends
    obtain ⟨ending, hending, -⟩ := exists_endingAfter hne
    refine ⟨session_cons_of_ne hne rest, ?_⟩
    show some ((endingAfter (execute _ s line).flow).getD .endOfInput) =
      endingAfter (execute _ s line).flow
    rw [hending]
    rfl
  | cons first before ih =>
    rw [runsThrough_cons_iff, ← flow_ne_next_iff fallback color host, not_not] at h
    obtain ⟨hsession, hending⟩ := ih h.2 hends
    rw [List.cons_append, session_cons_of_next h.1, hsession, List.cons_append, outcomes,
      endingOf_cons_of_next h.1]
    exact ⟨rfl, hending⟩

end Shell

/-! ## Dialogues -/

theorem flatten_clustersFrom (e : Text.Ending) (current rest : List Char) :
    (Text.clustersFrom e current rest).flatten = current.reverse ++ rest := by
  induction rest generalizing e current with
  | nil => simp [Text.clustersFrom]
  | cons c rest ih =>
    simp only [Text.clustersFrom]
    split <;> simp [ih]

theorem flatten_clusters (s : List Char) : (Text.clusters s).flatten = s := by
  cases s with
  | nil => rfl
  | cons c s => simp [Text.clusters, flatten_clustersFrom]

/-- Clusters that are no backspaces are typed one after another. -/
theorem foldlM_press {clusters : List (List Char)} (h : ∀ cluster ∈ clusters, cluster ≠ ['\x08'])
    (t : Text.Typing) :
    ∃ sizes, clusters.foldlM Text.Typing.press t =
      some ⟨clusters.flatten.reverse ++ t.text, sizes⟩ := by
  induction clusters generalizing t with
  | nil => exact ⟨t.sizes, rfl⟩
  | cons cluster clusters ih =>
    rw [List.forall_mem_cons] at h
    obtain ⟨sizes, hsizes⟩ := ih h.2 (t.type cluster)
    refine ⟨sizes, ?_⟩
    rw [List.foldlM_cons, Text.Typing.press, if_neg h.1]
    exact hsizes.trans (by simp [Text.Typing.type])

/-- A line without backspaces is typed as it stands, without its end. -/
theorem typedText_encode {line : List Char} (h : '\x08' ∉ dropLineEnd line) :
    typedText (Text.encode line) = .text (dropLineEnd line) := by
  have hclusters : ∀ cluster ∈ Text.clusters (dropLineEnd line), cluster ≠ ['\x08'] := by
    rintro _ hmem rfl
    refine h (flatten_clusters (dropLineEnd line) ▸ ?_)
    exact List.mem_flatten_of_mem hmem List.mem_cons_self
  obtain ⟨sizes, hsizes⟩ := foldlM_press hclusters ⟨[], []⟩
  have herase : Text.eraseBackspaces (dropLineEnd line) = some (dropLineEnd line) := by
    rw [Text.eraseBackspaces, hsizes, flatten_clusters]
    simp
  simp only [typedText, lineText, Text.decode_encode, Option.map_some, herase]

/-- A session with these settings executed exactly these lines, one after another, and printed
`farewell` after them. -/
structure Executed (settings : Settings) (shell : Shell) (prompt : String) (t : FileTree)
    (lines : List String) (farewell : List Printed) (d : Dialogue) : Prop where
  env : d.state.env = (shell.after (Dialogue.start settings t).state lines).env
  /-- The files are those after the lines, with the history if it is kept. -/
  tree : ∃ history : History, d.state.tree =
    settings.shell.historyFile?.elim (shell.after (Dialogue.start settings t).state lines).tree
      (history.save (shell.after (Dialogue.start settings t).state lines).tree)
  /-- The prompt comes before each line, and the greeting before the first one. -/
  printed : d.printed = .session (settings.shell.intro ++ "\n") ::
    ((shell.outcomes (Dialogue.start settings t).state lines).flatMap fun o =>
      .session prompt :: o.printed) ++ farewell

theorem endingOf_ne_aborted (outcomes : List Outcome) : endingOf outcomes ≠ .aborted := by
  unfold endingOf
  cases outcomes.getLast? with
  | none => simp
  | some o => rcases h : o.flow with message | _ | _ <;> simp [endingAfter, h]

/-- What a session leaves if the outcomes of its lines are those of some lines. -/
theorem executed_run {settings : Settings} {shell : Shell} (prompt : String) {t : FileTree}
    {input : List UInt8} {texts : List (List Char)} {lines : List String}
    (htexts : List.Forall₂ (fun line text => typedText line = .text text) (splitLines input) texts)
    (hlines : shell.session (Dialogue.start settings t).state (texts.map String.ofList) =
      shell.outcomes (Dialogue.start settings t).state lines) :
    Executed settings shell prompt t lines
        (if endingOf (shell.outcomes (Dialogue.start settings t).state lines) = .endOfInput then
          [.session prompt, .session "Bye\n"] else [])
        (Dialogue.run settings shell prompt input t).1 ∧
      (Dialogue.run settings shell prompt input t).2 =
        endingOf (shell.outcomes (Dialogue.start settings t).state lines) := by
  obtain ⟨hstate, hprinted, hending⟩ :=
    Dialogue.converse_of_typed shell prompt htexts (Dialogue.start settings t)
  rw [hlines, Shell.finalState_outcomes] at hstate
  rw [hlines] at hprinted hending
  have henv := congrArg State.env hstate
  refine ⟨⟨henv, ?_, hprinted.trans ?_⟩, hending⟩
  · refine ⟨((Dialogue.start settings t).converse shell prompt (splitLines input)).1.history, ?_⟩
    show Dialogue.finalTree _ settings _ = _
    rw [Dialogue.finalTree, hstate, hending]
    cases settings.shell.historyFile? with
    | none => rfl
    | some path => exact if_neg (endingOf_ne_aborted _)
  · rw [Dialogue.transcript, ← List.append_assoc]
    rfl

/-- **A session ends by the word `quit` or by a layout command that fails, and by nothing else.** It
executes its lines up to the first one that ends it and none after it, and says farewell only if
there is no such line. -/
theorem session_ends (fallback : String) (color : Bool) (host : Host) :
    (∀ s line, (Shell.execute ⟨defaultTools fallback color, host⟩ s line).flow = .ok .leave ↔
      commandWord line = "quit") ∧
    (∀ s line,
      (∃ message, (Shell.execute ⟨defaultTools fallback color, host⟩ s line).flow =
        .error message) ↔ LayoutFailure fallback s line) ∧
    ∀ (settings : Settings) (prompt : String) (t : FileTree) (input : List UInt8)
      (texts : List (List Char)),
      List.Forall₂ (fun line text => typedText line = .text text) (splitLines input) texts →
      (Shell.RunsThrough fallback ⟨defaultTools fallback color, host⟩
          (Dialogue.start settings t).state (texts.map String.ofList) ∧
        Executed settings ⟨defaultTools fallback color, host⟩ prompt t (texts.map String.ofList)
          [.session prompt, .session "Bye\n"]
          (Dialogue.run settings ⟨defaultTools fallback color, host⟩ prompt input t).1 ∧
        (Dialogue.run settings ⟨defaultTools fallback color, host⟩ prompt input t).2 =
          .endOfInput) ∨
      ∃ before line rest, texts.map String.ofList = before ++ line :: rest ∧
        Shell.RunsThrough fallback ⟨defaultTools fallback color, host⟩
          (Dialogue.start settings t).state before ∧
        Ends fallback (Shell.after ⟨defaultTools fallback color, host⟩
          (Dialogue.start settings t).state before) line ∧
        Executed settings ⟨defaultTools fallback color, host⟩ prompt t (before ++ [line]) []
          (Dialogue.run settings ⟨defaultTools fallback color, host⟩ prompt input t).1 ∧
        some (Dialogue.run settings ⟨defaultTools fallback color, host⟩ prompt input t).2 =
          endingAfter (Shell.execute ⟨defaultTools fallback color, host⟩
            (Shell.after ⟨defaultTools fallback color, host⟩
              (Dialogue.start settings t).state before) line).flow := by
  refine ⟨fun s line => flow_eq_leave_iff fallback color host s line,
    fun s line => exists_flow_eq_error_iff fallback color host s line,
    fun settings prompt t input texts htexts => ?_⟩
  rcases Shell.runsThrough_or_exists fallback ⟨defaultTools fallback color, host⟩
    (Dialogue.start settings t).state (texts.map String.ofList) with
    hruns | ⟨before, line, rest, hlines, hruns, hends⟩
  · obtain ⟨hsession, hending⟩ := Shell.session_of_runsThrough hruns
    have hrun := executed_run prompt htexts hsession
    rw [hending, if_pos rfl] at hrun
    exact .inl ⟨hruns, hrun⟩
  · obtain ⟨hsession, hending⟩ := Shell.session_of_ends hruns hends rest
    obtain ⟨hexecuted, hend⟩ := executed_run prompt htexts (hlines ▸ hsession)
    obtain ⟨ending, hafter, hne⟩ :=
      exists_endingAfter ((flow_ne_next_iff fallback color host _ line).2 hends)
    rw [if_neg (by rw [Option.some.inj (hending.trans hafter)]; exact hne)] at hexecuted
    exact .inr ⟨before, line, rest, hlines, hruns, hends, hexecuted, by rw [hend, hending]⟩

/-! A session without any file, whose first line asks for the layouts of an app. -/

namespace NoFiles

def layoutLine : String := "parse_layout disassembled=app"

def input : List UInt8 := Text.encode (layoutLine.toList ++ '\n' :: "help".toList)

theorem findLayouts_empty :
    findLayouts FileTree.empty (resourcesOf "app") =
      .error (.resources (resourcesOf "app") .notFound) := by
  apply findLayouts_of_locate_error
  rw [FileTree.locate_eq_follow
    (by decide : _ ∧ FileTree.stepsOf (resourcesOf "app") = ["app", "res"] ∧ _), FileTree.follow]
  decide

theorem ends_layoutLine : Ends "layouts.json" ⟨∅, FileTree.empty⟩ layoutLine := by
  have husable : Usable "layouts.json"
      (State.envFor ⟨∅, FileTree.empty⟩ (argumentText layoutLine)) "app" "layouts.json" :=
    ⟨⟨rfl, by decide⟩, .inl ⟨rfl, rfl⟩⟩
  exact .inr ⟨by decide, "app", "layouts.json", husable, .unlisted findLayouts_empty⟩

theorem typed_input :
    List.Forall₂ (fun line text => typedText line = .text text) (splitLines input)
      [layoutLine.toList, "help".toList] := by
  have hlines : splitLines input =
      [Text.encode (layoutLine.toList ++ ['\n']), Text.encode "help".toList] := by decide
  rw [hlines]
  refine .cons (typedText_encode (by decide)) (.cons (typedText_encode (by decide)) .nil)

end NoFiles

theorem session_ends_noFiles :
    List.Forall₂ (fun line text => typedText line = .text text) (splitLines NoFiles.input)
        [NoFiles.layoutLine.toList, "help".toList] ∧
      Executed {} ⟨defaultTools "layouts.json" false, fun _ t => (t, [])⟩ "" FileTree.empty
        [NoFiles.layoutLine] []
        (Dialogue.run {} ⟨defaultTools "layouts.json" false, fun _ t => (t, [])⟩ "" NoFiles.input
          FileTree.empty).1 := by
  refine ⟨NoFiles.typed_input, ?_⟩
  rcases (session_ends "layouts.json" false fun _ t => (t, [])).2.2 {} "" FileTree.empty
    NoFiles.input _ NoFiles.typed_input with
    ⟨hruns, -⟩ | ⟨before, line, rest, hlines, hruns, -, hexecuted, -⟩
  · exact absurd NoFiles.ends_layoutLine (hruns [] _ _ rfl)
  · cases before with
    | nil =>
      obtain ⟨rfl, -⟩ := List.cons.inj hlines
      exact hexecuted
    | cons first before =>
      obtain ⟨rfl, -⟩ := List.cons.inj hlines
      exact absurd NoFiles.ends_layoutLine (hruns [] _ _ rfl)

end LayoutShell.Session
