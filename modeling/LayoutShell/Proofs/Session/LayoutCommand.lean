import LayoutShell.Proofs.Layout.Collections
import LayoutShell.Proofs.Layout.Databases
import LayoutShell.Proofs.Layout.Discoveries
import LayoutShell.Proofs.Session.Commands
import LayoutShell.Session.LayoutTool

/-!
# The command of the layout tool

The layout tool reads its paths from the environment of the session, collects the references of an
app, writes them to a file and leaves the path of the file in the environment.

* `requiredPath_eq_ok_iff` and `optionalPath_eq_ok_iff` say which values of the environment are
  paths.
* `Saves` says that a file tree holds the database of the layouts of an app as they were before.
* `execute_layoutTool` follows the command from the line typed to the database written.
-/

namespace LayoutShell.Session

open Files Json Layout

/-! ## Parameters -/

namespace Parameter

theorem asPath_eq_ok_iff {p : Parameter} {v : Value} {path : String} :
    p.asPath v = .ok path ↔ v = .string path ∧ path ≠ "" := by
  cases v with
  | string s =>
    by_cases h : s = ""
    · subst h
      exact iff_of_false nofun fun ⟨e, hne⟩ => hne (Value.string.inj e).symm
    · have hempty : s.isEmpty = false := Bool.eq_false_iff.2 (mt String.isEmpty_iff.1 h)
      rw [asPath, hempty]
      refine ⟨fun e => ?_, fun e => ?_⟩
      · obtain rfl := Except.ok.inj e
        exact ⟨rfl, h⟩
      · rw [Value.string.inj e.1]
        rfl
  | _ => exact iff_of_false nofun fun h => nomatch h.1

theorem requiredPath_eq_ok_iff {p : Parameter} {env : Environment} {path : String} :
    p.requiredPath env = .ok path ↔ env.get? p.name = some (.string path) ∧ path ≠ "" := by
  unfold requiredPath
  split
  next h => simp [h]
  next h => simp [h]
  next v h => rw [asPath_eq_ok_iff, h, Option.some_inj]

theorem optionalPath_eq_ok_iff {p : Parameter} {env : Environment} {path? : Option String} :
    p.optionalPath env = .ok path? ↔
      env.get? p.name = path?.map .string ∧ path? ≠ some "" := by
  unfold optionalPath
  cases env.get? p.name with
  | none => cases path? <;> simp
  | some v =>
    cases path? with
    | none => simp [map_eq_ok_iff]
    | some path => simp [map_eq_ok_iff, asPath_eq_ok_iff]

end Parameter

theorem Arguments.ofEnvironment_eq_ok {env : Environment} {args : Arguments}
    (h : ofEnvironment env = .ok args) :
    Session.disassembled.requiredPath env = .ok args.disassembled ∧
      layoutDatabase.optionalPath env = .ok args.database := by
  obtain ⟨app, happ, h⟩ := bind_eq_ok_iff.1 h
  obtain ⟨database, hdatabase, h⟩ := bind_eq_ok_iff.1 h
  cases h
  exact ⟨happ, hdatabase⟩

/-! ## The database -/

/-- The layouts of an app are in the tree `before`, and the database of their references is in the
file `path` of the tree `after`. -/
structure Saves (before after : FileTree) (app path : String) (layouts : List String)
    (d : Database) : Prop where
  listed : findLayouts before (resourcesOf app) = .ok layouts
  loaded : Database.load after path = .ok d
  /-- The names are those that a new analyzer collects. -/
  collected : ∃ c, (Analyzer.absorb before (resourcesOf app)).run.run References.empty =
      (.ok layouts.length, c) ∧
    (∀ n, n ∈ d.classes ↔ n ∈ c.classes) ∧ ∀ n, n ∈ d.handlers ↔ n ∈ c.handlers
  classes_sorted : d.classes.Pairwise (· < ·)
  handlers_sorted : d.handlers.Pairwise (· < ·)

theorem saves_of_writeDatabase {app path : String} {t t' : FileTree} {summary : Summary}
    (h : writeDatabase app path t = .ok (t', summary)) :
    ∃ layouts d, Saves t t' app path layouts d ∧
      summary = ⟨path, layouts.length, d.classes.length, d.handlers.length⟩ := by
  obtain ⟨⟨c, n⟩, hanalyze, h⟩ := bind_eq_ok_iff.1 h
  obtain ⟨t₁, houtput, h⟩ := bind_eq_ok_iff.1 h
  obtain ⟨rfl, rfl⟩ := Prod.mk.inj (Except.ok.inj h)
  have hrun := Collection.analyze_eq_ok_iff.1 hanalyze
  obtain ⟨layouts, hlayouts, rfl⟩ := findLayouts_of_run_absorb hrun
  refine ⟨layouts, c.database, ⟨hlayouts, ?_, ⟨c, hrun, ?_, ?_⟩, ?_, ?_⟩, rfl⟩
  · exact Database.load_of_save (mapError_eq_ok_iff.1 houtput)
  · exact fun n => NameSet.mem_def.symm
  · exact fun n => NameSet.mem_def.symm
  · exact c.classes.sorted
  · exact c.handlers.sorted

/-- Only one database can have been saved. -/
theorem Saves.eq_database {before after : FileTree} {app path : String} {layouts : List String}
    {d : Database} (h : Saves before after app path layouts d) {n : Nat} {c : Collection}
    (hrun : (Analyzer.absorb before (resourcesOf app)).run.run References.empty = (.ok n, c)) :
    d = c.database := by
  obtain ⟨c', hrun', hclasses, hhandlers⟩ := h.collected
  obtain rfl : c' = c := congrArg Prod.snd (hrun'.symm.trans hrun)
  have hclasses' : (⟨d.classes, h.classes_sorted⟩ : NameSet) = c'.classes := NameSet.ext hclasses
  have hhandlers' : (⟨d.handlers, h.handlers_sorted⟩ : NameSet) = c'.handlers :=
    NameSet.ext hhandlers
  rw [Collection.database, ← hclasses', ← hhandlers']
  rfl

/-- A summary names the database and counts what it holds. -/
theorem render_summary (color : Bool) (path : String) (layouts classes handlers : Nat) :
    Summary.render color ⟨path, layouts, classes, handlers⟩ =
      (if color then "\x1b[1;32mDone,\x1b[0m" else "Done,") ++ " saved to " ++ path ++ "\n  " ++
        toString layouts ++ " layout files, " ++ toString classes ++ " classes, " ++
        toString handlers ++ " onClick handlers\n" := by
  have hdone : highlighted color "Done," =
      if color then "\x1b[1;32mDone,\x1b[0m" else "Done," := by
    cases color <;> decide
  rw [Summary.render, hdone]

/-! ## The tool -/

theorem outcome_runLayoutTool {fallback : String} {color : Bool} {env : Environment}
    {t : FileTree} {args : Arguments} {result : FileTree × Summary}
    (hargs : Arguments.ofEnvironment env = .ok args)
    (hwrite : writeDatabase args.disassembled (args.database.getD fallback) t = .ok result) :
    (runLayoutTool fallback color env t).outcome =
      .ok (some (Dict.empty.insert layoutDatabase.name
        (.string (args.database.getD fallback)))) := by
  rw [runLayoutTool, hargs]
  dsimp only
  rw [hwrite]

theorem run_layoutTool (fallback : String) (color : Bool) :
    (layoutTool fallback color).run = runLayoutTool fallback color := rfl

/-- The layout tool says what it needs, or fails, or has written a database and hands back its
path. -/
theorem runLayoutTool_cases (fallback : String) (color : Bool) (env : Environment) (t : FileTree) :
    (∃ e : ArgumentError,
      runLayoutTool fallback color env t = ⟨e.message ++ "\n", t, .ok none⟩) ∨
    (∃ e : AnalysisError, runLayoutTool fallback color env t = ⟨"", t, .error e.message⟩) ∨
    ∃ args t' summary, Arguments.ofEnvironment env = .ok args ∧
      writeDatabase args.disassembled (args.database.getD fallback) t = .ok (t', summary) ∧
      runLayoutTool fallback color env t =
        ⟨summary.render color, t', .ok (some (Dict.empty.insert layoutDatabase.name
          (.string (args.database.getD fallback))))⟩ := by
  unfold runLayoutTool
  cases hargs : Arguments.ofEnvironment env with
  | error e => exact .inl ⟨e, rfl⟩
  | ok args =>
    dsimp only
    cases hwrite : writeDatabase args.disassembled (args.database.getD fallback) t with
    | error e => exact .inr (.inl ⟨e, rfl⟩)
    | ok result => exact .inr (.inr ⟨args, result.1, result.2, rfl, hwrite, rfl⟩)

/-- A layout tool that hands back parameters has written a database, and hands back its path. -/
theorem runLayoutTool_of_update {fallback : String} {color : Bool} {env update : Environment}
    {t : FileTree} (h : (runLayoutTool fallback color env t).outcome = .ok (some update)) :
    ∃ args summary, Arguments.ofEnvironment env = .ok args ∧
      writeDatabase args.disassembled (args.database.getD fallback) t =
        .ok ((runLayoutTool fallback color env t).tree, summary) ∧
      (runLayoutTool fallback color env t).output = summary.render color ∧
      update = Dict.empty.insert layoutDatabase.name
        (.string (args.database.getD fallback)) := by
  rcases runLayoutTool_cases fallback color env t with
    ⟨e, hrun⟩ | ⟨e, hrun⟩ | ⟨args, t', summary, hargs, hwrite, hrun⟩
  · rw [hrun] at h
    cases h
  · rw [hrun] at h
    cases h
  · rw [hrun] at h ⊢
    exact ⟨args, summary, hargs, hwrite, rfl, (Option.some.inj (Except.ok.inj h)).symm⟩

theorem get?_defaultTools (fallback : String) (color : Bool) :
    (defaultTools fallback color).get? "parse_layout" = some (layoutTool fallback color) := by
  rw [defaultTools, Registry.register, Dict.get?_insert]
  exact if_pos rfl

theorem isWord_layoutTool : IsWord "parse_layout".toList where
  ne_nil := by decide
  noSpace := Text.forall_mem_of_all (by decide)
  noHost := by decide
  noHelp := by decide

/-- **The layout command leaves the database of the app's layouts where it says.** It prints the
arguments that it ignores, and then the path of the database, the number of the layouts, and the
numbers of the classes and of the handlers that the database holds. -/
theorem execute_layoutTool (fallback : String) (color : Bool) (host : Host) (s : State)
    (args : String) {update : Environment}
    (h : ((layoutTool fallback color).run (s.envFor args) s.tree).outcome = .ok (some update)) :
    ∃ app path layouts d,
      let after := Shell.execute ⟨defaultTools fallback color, host⟩ s ("parse_layout " ++ args)
      (s.envFor args).get? "disassembled" = some (.string app) ∧ app ≠ "" ∧
      ((s.envFor args).get? "layout_database").getD (.string fallback) = .string path ∧
      after.state.env.get? "layout_database" = some (.string path) ∧
      (∀ key, key ≠ "layout_database" → after.state.env.get? key = (s.envFor args).get? key) ∧
      Saves s.tree after.state.tree app path layouts d ∧
      after.printed =
        [.session (String.join ((Extras.parse args.toList).ignored.map fun word =>
          "Ignoring argument `" ++ word ++ "` (expected key=value)\n")),
        .session ((if color then "\x1b[1;32mDone,\x1b[0m" else "Done,") ++ " saved to " ++ path ++
          "\n  " ++ toString layouts.length ++ " layout files, " ++ toString d.classes.length ++
          " classes, " ++ toString d.handlers.length ++ " onClick handlers\n")] ∧
      after.flow = .ok .next := by
  have hexecute : Shell.execute ⟨defaultTools fallback color, host⟩ s ("parse_layout " ++ args) =
      Shell.runTool (layoutTool fallback color) args.toList s :=
    Shell.execute_append isWord_layoutTool (by decide) (get?_defaultTools fallback color) s args
  obtain ⟨arguments, summary, harguments, hwrite, houtput, rfl⟩ := runLayoutTool_of_update h
  obtain ⟨happ, hdatabase⟩ := Arguments.ofEnvironment_eq_ok harguments
  obtain ⟨happ, hne⟩ := Parameter.requiredPath_eq_ok_iff.1 happ
  obtain ⟨hdatabase, -⟩ := Parameter.optionalPath_eq_ok_iff.1 hdatabase
  obtain ⟨layouts, d, hsaves, rfl⟩ := saves_of_writeDatabase hwrite
  refine ⟨arguments.disassembled, arguments.database.getD fallback, layouts, d, ?_⟩
  rw [hexecute, Shell.runTool_of_update h]
  refine ⟨happ, hne, ?_, ?_, fun key hkey => ?_, hsaves, ?_, rfl⟩
  · rw [show (s.envFor args).get? "layout_database" = _ from hdatabase]
    cases arguments.database <;> rfl
  · exact (Dict.get?_insert _ _ _ _).trans (if_pos rfl)
  · exact (Dict.get?_insert _ _ _ _).trans (if_neg hkey)
  · rw [show ((layoutTool fallback color).run (s.envFor args) s.tree).output = _ from houtput,
      render_summary]
    rfl

/-! The database may replace one of the layouts that it is collected from. -/

namespace InPlace

def layout : String := "<a.Map/>"

def tree : FileTree :=
  { entries := Dict.ofList [(["app"], .directory), (["app", "res"], .directory),
      (["app", "res", "layout"], .directory),
      (["app", "res", "layout", "main.xml"], .file (Text.encode layout.toList))] }

def state : State := ⟨Dict.empty.insert "disassembled" (.string "old"), tree⟩

def args : String := "disassembled=app layout_database=app/res/layout/main.xml now "

theorem locate_main :
    tree.locate "app/res/layout/main.xml" = .ok ["app", "res", "layout", "main.xml"] :=
  FileTree.locate_of_leads (by decide) (by decide)

theorem findLayouts_tree :
    findLayouts tree (resourcesOf "app") = .ok ["app/res/layout/main.xml"] := by
  have hlayout : LayoutDirectory tree (resourcesOf "app") "layout" ["app", "res", "layout"] :=
    ⟨by decide, by decide, FileTree.locate_of_leads (by decide) (by decide), by decide⟩
  have hlocate : tree.locate (resourcesOf "app") = .ok ["app", "res"] :=
    FileTree.locate_of_leads (by decide) (by decide)
  rw [findLayouts_of_children hlocate (by decide) (by decide) hlayout (by decide)]
  decide

theorem fileHas_main : FileHas tree "app/res/layout/main.xml" ⟨NameSet.ofList ["a.Map"], ∅⟩ :=
  fileHas_of_entry locate_main (by rfl) (by decide +kernel : References.parse layout.toList = _)

/-- What a new analyzer collects. -/
def names : References := References.empty.union ⟨NameSet.ofList ["a.Map"], ∅⟩

theorem run_absorb_tree :
    (Analyzer.absorb tree (resourcesOf "app")).run.run References.empty = (.ok 1, names) :=
  run_absorb_of_fileHas findLayouts_tree fileHas_main References.empty

theorem destination_main : tree.destination "app/res/layout/main.xml" =
    .ok ["app", "res", "layout", "main.xml"] := by
  have hentry : tree.entry? ["app", "res", "layout", "main.xml"] =
      some (.file (Text.encode layout.toList)) := by decide +kernel
  have hsteps : Path.steps "app/res/layout/main.xml" = ["app", "res", "layout"] ++ ["main.xml"] ∧
      Path.endsInSlash "app/res/layout/main.xml" = false := by decide +kernel
  exact FileTree.destination_of_leads (by decide +kernel) hsteps (by decide +kernel)
    (by decide +kernel) (by decide) fun e he => ⟨_, (Option.some.inj (hentry.symm.trans he)).symm⟩

theorem exists_writeDatabase {path : String} {l : Location} (hl : tree.destination path = .ok l) :
    ∃ content summary,
      writeDatabase "app" path tree = .ok (tree.put l (.file content), summary) := by
  have hanalyze := Collection.analyze_eq_ok_iff.2 run_absorb_tree
  exact ⟨_, _, bind_eq_ok_iff.2 ⟨_, hanalyze, bind_eq_ok_iff.2
    ⟨_, mapError_eq_ok_iff.2 (FileTree.write_of_destination hl _), rfl⟩⟩⟩

theorem ofEnvironment_env : Arguments.ofEnvironment (state.envFor args) =
    .ok ⟨"app", some "app/res/layout/main.xml"⟩ := by
  decide +kernel

theorem ignored_args : (Extras.parse args.toList).ignored = ["now"] := by
  decide +kernel

theorem exists_update :
    ∃ update, ((layoutTool "layouts.json" false).run (state.envFor args) tree).outcome =
      .ok (some update) := by
  obtain ⟨_, _, hwrite⟩ := exists_writeDatabase destination_main
  exact ⟨_, outcome_runLayoutTool ofEnvironment_env hwrite⟩

end InPlace

theorem execute_layoutTool_inPlace :
    (∃ update, ((layoutTool "layouts.json" false).run (InPlace.state.envFor InPlace.args)
      InPlace.tree).outcome = .ok (some update)) ∧
    let after := Shell.execute ⟨defaultTools "layouts.json" false, fun _ t => (t, [])⟩
      InPlace.state ("parse_layout " ++ InPlace.args)
    Saves InPlace.tree after.state.tree "app" "app/res/layout/main.xml"
      ["app/res/layout/main.xml"] ⟨[], ["a.Map"]⟩ ∧
    after.printed = [.session "Ignoring argument `now` (expected key=value)\n",
      .session ("Done, saved to app/res/layout/main.xml\n" ++
        "  1 layout files, 1 classes, 0 onClick handlers\n")] := by
  obtain ⟨update, hupdate⟩ := InPlace.exists_update
  obtain ⟨app, path, layouts, d, happ, -, hpath, -, -, hsaves, hprinted, -⟩ :=
    execute_layoutTool "layouts.json" false (fun _ t => (t, [])) InPlace.state InPlace.args hupdate
  obtain ⟨happ', hpath'⟩ := Arguments.ofEnvironment_eq_ok InPlace.ofEnvironment_env
  obtain ⟨happ', -⟩ := Parameter.requiredPath_eq_ok_iff.1 happ'
  obtain ⟨hpath', -⟩ := Parameter.optionalPath_eq_ok_iff.1 hpath'
  obtain rfl := Value.string.inj (Option.some.inj (happ'.symm.trans happ))
  rw [show (InPlace.state.envFor InPlace.args).get? "layout_database" = _ from hpath'] at hpath
  obtain rfl := Value.string.inj hpath
  obtain rfl := Except.ok.inj (InPlace.findLayouts_tree.symm.trans hsaves.listed)
  obtain rfl : d = ⟨[], ["a.Map"]⟩ := hsaves.eq_database InPlace.run_absorb_tree
  refine ⟨⟨update, hupdate⟩, hsaves, hprinted.trans ?_⟩
  rw [InPlace.ignored_args]
  decide

end LayoutShell.Session
