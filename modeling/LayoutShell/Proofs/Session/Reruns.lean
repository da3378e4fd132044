import LayoutShell.Proofs.Layout.Rediscoveries
import LayoutShell.Proofs.Session.LayoutEffects

/-!
# Running the layout command again

A layout command leaves behind what it was told: the app and the path of its database are in the
environment afterwards. Typed again without parameters, it does the same work once more.

* `Undisturbed` says that a change of the files has left the layouts of a resource directory alone.
  `collect_of_perm`: then the same references are collected.
* `writeDatabase_again`: a database that did not disturb its layouts is written again as it is.
* `execute_layoutTool_again`: the second command changes nothing and prints the same summary.
-/

namespace LayoutShell.Session

open Files Json Layout

/-! ## The layouts afterwards -/

/-- From `t` to `t'` no layout of the resource directory was added, removed or changed. -/
structure Undisturbed (t t' : FileTree) (resources : String) : Prop where
  listed : ∀ paths paths', findLayouts t resources = .ok paths →
    findLayouts t' resources = .ok paths' → paths'.Perm paths
  read_eq : ∀ paths, findLayouts t resources = .ok paths →
    ∀ path ∈ paths, t'.read path = t.read path

theorem fileHas_iff_of_read_eq {t t' : FileTree} {path : String} (h : t'.read path = t.read path)
    (r : References) : FileHas t' path r ↔ FileHas t path r := by
  have htext : t'.readText path = t.readText path := by
    rw [FileTree.readText, h, ← FileTree.readText]
  rw [FileHas, htext, ← FileHas]

/-- The same files with the same contents give the same references, in whatever order. -/
theorem collect_of_perm {t t' : FileTree} {paths paths' : List String} {found : References}
    (hperm : paths'.Perm paths) (hread : ∀ path ∈ paths, t'.read path = t.read path)
    (h : collect t paths = .ok found) : collect t' paths' = .ok found := by
  obtain ⟨hgood, hadds⟩ := collect_eq_ok h
  have hhas : ∀ path ∈ paths', ∀ r, FileHas t' path r ↔ FileHas t path r :=
    fun path hpath => fileHas_iff_of_read_eq (hread path (hperm.mem_iff.1 hpath))
  have hgood' : ∀ path ∈ paths', ∃ r, FileHas t' path r := by
    intro path hpath
    obtain ⟨r, hr⟩ := hgood path (hperm.mem_iff.1 hpath)
    exact ⟨r, (hhas path hpath r).2 hr⟩
  obtain ⟨found', hfound'⟩ := exists_collect_eq_ok hgood'
  obtain ⟨-, hadds'⟩ := collect_eq_ok hfound'
  have hiff : ∀ P : References → Prop, (∃ path ∈ paths', ∃ r, FileHas t' path r ∧ P r) ↔
      ∃ path ∈ paths, ∃ r, FileHas t path r ∧ P r := by
    intro P
    constructor
    · rintro ⟨path, hpath, r, hr, hP⟩
      exact ⟨path, hperm.mem_iff.1 hpath, r, (hhas path hpath r).1 hr, hP⟩
    · rintro ⟨path, hpath, r, hr, hP⟩
      have hpath' := hperm.mem_iff.2 hpath
      exact ⟨path, hpath', r, (hhas path hpath' r).2 hr, hP⟩
  rw [hfound', (hadds'.congr (fun n => hiff _) fun n => hiff _).unique hadds]

/-- **A database that is written again is left as it is**, if the layouts are still the same. -/
theorem writeDatabase_again {app path : String} {t t' : FileTree} {summary : Summary}
    (h : writeDatabase app path t = .ok (t', summary))
    (hsame : Undisturbed t t' (resourcesOf app)) :
    writeDatabase app path t' = .ok (t', summary) := by
  obtain ⟨⟨c, n⟩, hanalyze, h⟩ := bind_eq_ok_iff.1 h
  obtain ⟨t₁, houtput, h⟩ := bind_eq_ok_iff.1 h
  obtain ⟨rfl, rfl⟩ := Prod.mk.inj (Except.ok.inj h)
  have hwrite := mapError_eq_ok_iff.1 houtput
  obtain ⟨paths, found, hpaths, hfound, rfl, rfl⟩ :=
    collect_of_run_absorb (Collection.analyze_eq_ok_iff.1 hanalyze)
  obtain ⟨paths', hpaths'⟩ := exists_findLayouts_of_write hwrite hpaths
  have hperm := hsame.listed paths paths' hpaths hpaths'
  have hfound' := collect_of_perm hperm (hsame.read_eq paths hpaths) hfound
  have hrun := run_absorb_of_collect hpaths' hfound' References.empty
  rw [hperm.length_eq] at hrun
  refine bind_eq_ok_iff.2 ⟨_, Collection.analyze_eq_ok_iff.2 hrun, ?_⟩
  exact bind_eq_ok_iff.2 ⟨_, mapError_eq_ok_iff.2 (FileTree.write_again hwrite), rfl⟩

/-! ## The command -/

/-- The parameters that a layout command leaves behind are those that it has used. -/
theorem ofEnvironment_again {env : Environment} {args : Arguments} {path : String}
    (h : Arguments.ofEnvironment env = .ok args) (hpath : path ≠ "") :
    Arguments.ofEnvironment (env.merge (Dict.empty.insert layoutDatabase.name (.string path))) =
      .ok ⟨args.disassembled, some path⟩ := by
  obtain ⟨happ, -⟩ := Arguments.ofEnvironment_eq_ok h
  rw [Parameter.requiredPath_eq_ok_iff] at happ
  have hkept : disassembled.requiredPath
      (env.merge (Dict.empty.insert layoutDatabase.name (.string path))) =
        .ok args.disassembled := by
    rw [Parameter.requiredPath_eq_ok_iff, Dict.get?_merge, Dict.get?_insert,
      if_neg (show disassembled.name ≠ layoutDatabase.name by decide)]
    exact happ
  have hnew : layoutDatabase.optionalPath
      (env.merge (Dict.empty.insert layoutDatabase.name (.string path))) = .ok (some path) := by
    rw [Parameter.optionalPath_eq_ok_iff, Dict.get?_merge, Dict.get?_insert, if_pos rfl]
    exact ⟨rfl, fun hsome => hpath (Option.some.inj hsome)⟩
  rw [Arguments.ofEnvironment, hkept, hnew]
  rfl

/-- What is handed back a second time is in the environment already. -/
theorem merge_merge (env update : Environment) :
    (env.merge update).merge update = env.merge update := by
  apply Dict.ext_get?
  intro key
  rw [Dict.get?_merge, Dict.get?_merge]
  cases update.get? key <;> rfl

/-- A tool that runs without parameters and hands back what is in the environment leaves the
environment as it is. -/
theorem runTool_of_merge_eq {tool : Tool} {env update : Environment} {t t' : FileTree}
    {output : String} (hrun : tool.run env t = ⟨output, t', .ok (some update)⟩)
    (hupdate : env.merge update = env) :
    Shell.runTool tool "".toList ⟨env, t⟩ =
      ⟨⟨env, t'⟩, [.session "", .session output], .ok .next⟩ := by
  have hbare : State.envFor ⟨env, t⟩ "" = env := rfl
  rw [Shell.runTool_of_run hrun, hbare, ToolRun.leaves]
  dsimp only
  rw [hupdate]
  rfl

/-- A layout command that does not refuse has written its database. -/
theorem runLayoutTool_of_not_refuses {fallback : String} {color : Bool} {s : State} {args : String}
    (h : ¬(Shell.runTool (layoutTool fallback color) args.toList s).Refuses) :
    ∃ arguments t' summary, Arguments.ofEnvironment (s.envFor args) = .ok arguments ∧
      writeDatabase arguments.disassembled (arguments.database.getD fallback) s.tree =
        .ok (t', summary) ∧
      (layoutTool fallback color).run (s.envFor args) s.tree =
        ⟨summary.render color, t', .ok (some (Dict.empty.insert layoutDatabase.name
          (.string (arguments.database.getD fallback))))⟩ := by
  have hcases := runLayoutTool_cases fallback color (s.envFor args) s.tree
  rw [← run_layoutTool] at hcases
  rcases hcases with ⟨e, hrun⟩ | ⟨e, hrun⟩ | hdone
  · rw [Shell.runTool_of_run hrun] at h
    exact absurd (.inr ⟨e, List.mem_cons_of_mem _ List.mem_cons_self⟩) h
  · rw [Shell.runTool_of_run hrun] at h
    exact absurd (.inl ⟨e.message, rfl⟩) h
  · exact hdone

/-- The layout tool hands back the path of its database, and so finds it when it runs again. -/
theorem runLayoutTool_again {fallback : String} (color : Bool) {env : Environment}
    {args : Arguments} {t t' : FileTree} {summary : Summary}
    (hargs : Arguments.ofEnvironment env = .ok args)
    (hwrite : writeDatabase args.disassembled (args.database.getD fallback) t = .ok (t', summary))
    (hsame : Undisturbed t t' (resourcesOf args.disassembled)) :
    let update : Environment :=
      Dict.empty.insert layoutDatabase.name (.string (args.database.getD fallback))
    (layoutTool fallback color).run (env.merge update) t' =
      ⟨summary.render color, t', .ok (some update)⟩ := by
  intro update
  have hpath : args.database.getD fallback ≠ "" := by
    obtain ⟨c, -, h⟩ := bind_eq_ok_iff.1 hwrite
    obtain ⟨t₁, houtput, -⟩ := bind_eq_ok_iff.1 h
    exact FileTree.ne_empty_of_write (mapError_eq_ok_iff.1 houtput)
  rw [run_layoutTool, runLayoutTool, ofEnvironment_again hargs hpath]
  dsimp only
  rw [Option.getD_some, writeDatabase_again hwrite hsame]

theorem runTool_layoutTool_again {fallback : String} {color : Bool} {s : State} {args : String}
    {first : Outcome} (hfirst : Shell.runTool (layoutTool fallback color) args.toList s = first)
    (hsuccess : ¬first.Refuses)
    (hsame : ∀ app, (s.envFor args).get? "disassembled" = some (.string app) →
      Undisturbed s.tree first.state.tree (resourcesOf app)) :
    ∃ summary : Summary,
      first.printed = [.session (Shell.ignoredText (Extras.parse args.toList).ignored),
        .session (summary.render color)] ∧
      Shell.runTool (layoutTool fallback color) "".toList first.state =
        ⟨first.state, [.session "", .session (summary.render color)], .ok .next⟩ := by
  rw [← hfirst] at hsuccess
  obtain ⟨arguments, t', summary, harguments, hwrite, hrun⟩ := runLayoutTool_of_not_refuses hsuccess
  rw [Shell.runTool_of_run hrun] at hfirst
  subst hfirst
  obtain ⟨happ, -⟩ := Arguments.ofEnvironment_eq_ok harguments
  have hundisturbed := hsame _ (Parameter.requiredPath_eq_ok_iff.1 happ).1
  exact ⟨summary, rfl, runTool_of_merge_eq
    (runLayoutTool_again color harguments hwrite hundisturbed) (merge_merge _ _)⟩

/-- **A layout command that is typed again without its parameters changes nothing.** -/
theorem execute_layoutTool_again (fallback : String) (color : Bool) (host : Host) (s : State)
    {line : String} (h : commandWord line = "parse_layout") :
    let shell : Shell := ⟨defaultTools fallback color, host⟩
    let first := shell.execute s line
    ¬first.Refuses →
    (∀ app, (s.envFor (argumentText line)).get? "disassembled" = some (.string app) →
      Undisturbed s.tree first.state.tree (resourcesOf app)) →
    ∃ summary : Summary,
      first.printed = [.session (Shell.ignoredText (Extras.parse (argumentText line).toList).ignored),
        .session (summary.render color)] ∧
      shell.execute first.state "parse_layout" =
        ⟨first.state, [.session "", .session (summary.render color)], .ok .next⟩ := by
  intro shell first hsuccess hsame
  have hexecute : ∀ s line, commandWord line = "parse_layout" → shell.execute s line =
      Shell.runTool (layoutTool fallback color) (argumentText line).toList s := by
    intro s line hline
    exact Shell.execute_of_commandWord isWord_layoutTool (by decide)
      (get?_defaultTools fallback color) s hline
  have hbare : argumentText "parse_layout" = "" := by decide
  rw [hexecute _ "parse_layout" (by decide), hbare]
  exact runTool_layoutTool_again (hexecute s line h).symm hsuccess hsame

/-! The same file tree, with a database that stands beside the app. -/

namespace InPlace

def besideLine : String := " parse_layout disassembled=app layout_database=out.json now"

theorem ofEnvironment_besideLine :
    commandWord besideLine = "parse_layout" ∧
      Arguments.ofEnvironment (state.envFor (argumentText besideLine)) =
        .ok ⟨"app", some "out.json"⟩ ∧
      (Extras.parse (argumentText besideLine).toList).ignored = ["now"] := by
  decide +kernel

theorem destination_out : tree.destination "out.json" = .ok ["out.json"] := by
  have hfree : FileTree.Free tree ["out.json"] := by
    intro e he
    rw [show FileTree.entry? tree ["out.json"] = none by decide] at he
    cases he
  have hsteps : Path.steps "out.json" = [] ++ ["out.json"] ∧
      Path.endsInSlash "out.json" = false := by decide
  exact FileTree.destination_of_leads (by decide) hsteps (by decide) (by decide) (by decide) hfree

theorem undisturbed_out (content : List UInt8) :
    Undisturbed tree (tree.put ["out.json"] (.file content)) (resourcesOf "app") := by
  have hproper : tree.Proper := FileTree.proper_of_names (by decide)
  have hwrite := FileTree.write_of_destination destination_out content
  obtain ⟨⟨⟩, -, htarget⟩ := bind_eq_ok_iff.1 destination_out
  have hfree := (FileTree.creates_of_target htarget).free
  refine ⟨fun paths paths' => perm_findLayouts_of_write hproper destination_out ?_ hwrite, ?_⟩
  · intro parent stem heq
    have hname : "out.json" = stem ++ ".xml" := by
      have hlast := congrArg List.getLast? heq
      rw [List.getLast?_append] at hlast
      exact Option.some.inj hlast
    have hsuffix : ¬".xml".toList <:+ "out.json".toList := by decide
    exact hsuffix ⟨stem.toList, by rw [hname, String.toList_append]⟩
  · intro paths hpaths path hpath
    obtain rfl := Except.ok.inj (findLayouts_tree.symm.trans hpaths)
    rw [List.mem_singleton] at hpath
    subst hpath
    exact FileTree.read_put_of_ne hfree content locate_main (by decide)

theorem execute_besideLine :
    ¬(shell.execute state besideLine).Refuses ∧
      ∃ content, (shell.execute state besideLine).state.tree =
        tree.put ["out.json"] (.file content) := by
  obtain ⟨hword, hargs, -⟩ := ofEnvironment_besideLine
  obtain ⟨content, summary, hwrite⟩ := exists_writeDatabase destination_out
  have hexecute : shell.execute state besideLine =
      Shell.runTool (layoutTool "layouts.json" false) (argumentText besideLine).toList state :=
    Shell.execute_of_commandWord isWord_layoutTool (by decide) (get?_defaultTools _ _) state hword
  have hno : ¬(shell.execute state besideLine).Refuses := by
    rw [hexecute]
    rcases runTool_layoutTool_cases "layouts.json" false (argumentText besideLine) state with
      ⟨-, hnone, -⟩ | ⟨hno, -⟩
    · rw [run_layoutTool] at hnone
      exact absurd (outcome_runLayoutTool hargs hwrite) (hnone _)
    · exact hno
  refine ⟨hno, content, ?_⟩
  rw [hexecute] at hno ⊢
  obtain ⟨arguments, t', summary', harguments, hwrite', hrun⟩ := runLayoutTool_of_not_refuses hno
  obtain rfl := Except.ok.inj (hargs.symm.trans harguments)
  obtain ⟨rfl, -⟩ := Prod.mk.inj (Except.ok.inj (hwrite.symm.trans hwrite'))
  rw [Shell.runTool_of_run hrun]

end InPlace

theorem execute_layoutTool_again_inPlace :
    let first := InPlace.shell.execute InPlace.state InPlace.besideLine
    (commandWord InPlace.besideLine = "parse_layout" ∧ ¬first.Refuses ∧
      Undisturbed InPlace.tree first.state.tree (resourcesOf "app")) ∧
    ∃ summary : Summary,
      first.printed = [.session (Shell.ignoredText ["now"]), .session (summary.render false)] ∧
      InPlace.shell.execute first.state "parse_layout" =
        ⟨first.state, [.session "", .session (summary.render false)], .ok .next⟩ := by
  obtain ⟨hword, hargs, hignored⟩ := InPlace.ofEnvironment_besideLine
  obtain ⟨hno, content, htree⟩ := InPlace.execute_besideLine
  have hsame := InPlace.undisturbed_out content
  rw [← htree] at hsame
  dsimp only
  rw [InPlace.shell] at hno hsame ⊢
  have hagain := execute_layoutTool_again "layouts.json" false (fun _ t => (t, [])) InPlace.state
    hword hno
  rw [hignored] at hagain
  refine ⟨⟨hword, hno, hsame⟩, hagain ?_⟩
  intro app happ
  obtain ⟨happ', -⟩ := Arguments.ofEnvironment_eq_ok hargs
  obtain ⟨happ', -⟩ := Parameter.requiredPath_eq_ok_iff.1 happ'
  obtain rfl := Value.string.inj (Option.some.inj (happ'.symm.trans happ))
  exact hsame

end LayoutShell.Session
