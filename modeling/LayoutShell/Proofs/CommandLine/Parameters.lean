import LayoutShell.CommandLine.Run
import LayoutShell.Proofs.Session.Frames
import LayoutShell.Proofs.Session.LayoutCommand

/-!
# Three ways to give parameters

Parameters can be given to a tool by options of the command line, by lines that set them and by
words after the name of the tool.

* `parseFrom_append` and `parseFrom_options`: options that give parameters extend what other
  arguments ask for.
* `session_setLines` and `execute_toolLine` are the lines that set parameters and the line that
  gives them to a tool.
* `parameters_agree`: in all three ways the tool runs on the same environment, and its outcome is
  the same.
-/

namespace LayoutShell.CommandLine

open Files Json Session Text

/-- A parameter that can be given in every way: its name and its value are words, and the name
holds no equals sign. -/
structure IsGivable (p : String × String) : Prop where
  name : IsToken p.1.toList
  noEquals : '=' ∉ p.1.toList
  value : IsToken p.2.toList

/-- The word that gives a parameter to a tool. -/
def parameterWord (p : String × String) : String := p.1 ++ "=" ++ p.2

/-- The option that gives a parameter to a session. -/
def parameterOption (p : String × String) : String := "--env=" ++ parameterWord p

/-- The line that sets a parameter. -/
def setLine (p : String × String) : String := "set " ++ p.1 ++ " " ++ p.2

/-- The line that runs a tool on parameters. -/
def toolLine (name : String) (ps : List (String × String)) : String :=
  " ".intercalate (name :: ps.map parameterWord)

variable {p : String × String} {ps : List (String × String)}

theorem IsGivable.gives (h : IsGivable p) : Gives (parameterWord p).toList p.1 p.2 := by
  refine ⟨by simp [parameterWord], fun hnil => h.name.ne_nil ?_, h.noEquals⟩
  rw [hnil]
  rfl

theorem IsGivable.splitAssignment (h : IsGivable p) :
    splitAssignment (parameterWord p).toList = some (p.1.toList, p.2.toList) :=
  splitAssignment_eq_some_iff.2 (by simpa using h.gives)

theorem IsGivable.isToken (h : IsGivable p) : IsToken (parameterWord p).toList := by
  have hchars : (parameterWord p).toList = p.1.toList ++ '=' :: p.2.toList := by
    simp [parameterWord]
  rw [hchars]
  refine ⟨by simp, List.forall_mem_append.2 ⟨h.name.noSpace, List.forall_mem_cons.2 ⟨?_, ?_⟩⟩⟩
  · decide
  · exact h.value.noSpace

/-! ## Options

The reading of arguments that ask for a session never stops early, so that more of them can
follow. -/

namespace Options

theorem take_ne_done {o o' : Options} {meaning : Meaning} :
    o.take meaning ≠ .ok (.done (.session o')) := by
  cases meaning with
  | verbose | quiet =>
    rw [take]
    split <;> simp
  | _ => simp [take]

theorem takeLetters_ne_done {o o' : Options} {letters : List Char} :
    o.takeLetters letters ≠ .ok (.done (.session o')) := by
  induction letters generalizing o with
  | nil => simp [takeLetters]
  | cons c rest ih =>
    intro h
    unfold takeLetters at h
    split at h
    · cases h
    · obtain ⟨_, -, h⟩ := bind_eq_ok_iff.1 h
      cases h
    · obtain ⟨_, -, h⟩ := bind_eq_ok_iff.1 h
      cases h
    · obtain ⟨progress, htake, h⟩ := bind_eq_ok_iff.1 h
      split at h
      · exact ih h
      · obtain rfl := Except.ok.inj h
        exact take_ne_done htake

theorem takeLong_ne_done {o o' : Options} {argument : List Char} :
    o.takeLong argument ≠ .ok (.done (.session o')) := by
  intro h
  rw [takeLong] at h
  split at h
  · cases h
  · exact take_ne_done h
  · obtain ⟨_, -, h⟩ := bind_eq_ok_iff.1 h
    cases h
  · cases h

theorem takeArgument_ne_done {o o' : Options} {argument : String} :
    o.takeArgument argument ≠ .ok (.done (.session o')) := by
  rw [takeArgument]
  split
  · exact takeLong_ne_done
  · exact takeLetters_ne_done
  · simp

theorem takeArgument_parameterOption (o : Options) (h : IsGivable p) :
    o.takeArgument (parameterOption p) = .ok (.next { o with env := o.env ++ [p] }) := by
  have hchars : (parameterOption p).toList =
      '-' :: '-' :: ("env".toList ++ '=' :: (parameterWord p).toList) := by
    simp [parameterOption]
  have hgive : o.give (parameterWord p) .env = .ok { o with env := o.env ++ [p] } := by
    simp [give, h.splitAssignment]
  rw [takeArgument, hchars]
  change (do return Progress.next (← o.give (String.ofList (parameterWord p).toList) .env)) = _
  rw [String.ofList_toList, hgive]
  rfl

end Options

namespace Request

theorem parseFrom_next_cons (o : Options) {argument : String} (h : argument ≠ "--")
    (rest : List String) :
    parseFrom (.next o) (argument :: rest) =
      o.takeArgument argument >>= fun progress => parseFrom progress rest := by
  rw [parseFrom.eq_def]
  exact if_neg h

/-- Arguments that ask for a session leave the reading at its options. -/
theorem parseFrom_append {progress : Progress} {arguments : List String} {o : Options}
    (hprogress : ∀ o, progress ≠ .done (.session o))
    (h : parseFrom progress arguments = .ok (.session o)) (hend : "--" ∉ arguments)
    (more : List String) :
    parseFrom progress (arguments ++ more) = parseFrom (.next o) more := by
  induction arguments generalizing progress with
  | nil =>
    cases progress with
    | next o' =>
      obtain rfl : o' = o := by simpa [parseFrom] using h
      rfl
    | awaiting option o' => simp [parseFrom] at h
    | done request => exact absurd (congrArg _ (Except.ok.inj h)) (hprogress o)
  | cons argument arguments ih =>
    rw [List.mem_cons, not_or] at hend
    cases progress with
    | next o' =>
      rw [parseFrom_next_cons o' (Ne.symm hend.1)] at h
      obtain ⟨progress, htake, h⟩ := bind_eq_ok_iff.1 h
      rw [List.cons_append, parseFrom_next_cons o' (Ne.symm hend.1), htake]
      exact ih (fun o hdone => Options.takeArgument_ne_done (hdone ▸ htake)) h hend.2
    | awaiting option o' =>
      rw [parseFrom] at h
      split at h
      · cases h
      · next hoption =>
        obtain ⟨o'', hgive, h⟩ := bind_eq_ok_iff.1 h
        rw [List.cons_append, parseFrom, if_neg hoption, hgive]
        exact ih (fun o => nofun) h hend.2
    | done request => exact absurd (congrArg _ (Except.ok.inj h)) (hprogress o)

theorem parseFrom_options (o : Options) (h : ∀ p ∈ ps, IsGivable p) :
    parseFrom (.next o) (ps.map parameterOption) =
      .ok (.session { o with env := o.env ++ ps }) := by
  induction ps generalizing o with
  | nil => simp [parseFrom]
  | cons p ps ih =>
    rw [List.forall_mem_cons] at h
    have hne : parameterOption p ≠ "--" := fun heq => by
      have hchars := congrArg String.toList heq
      simp [parameterOption] at hchars
    rw [List.map_cons, parseFrom_next_cons o hne, o.takeArgument_parameterOption h.1]
    refine (ih _ h.2).trans ?_
    rw [List.append_assoc]
    rfl

end Request

/-! ## Settings -/

theorem settings_eq (o : Options) (t : FileTree) :
    settings o t = (o.config?.elim (Settings.loadFrom t ".") (Settings.load t)).map fun s =>
      { s with env := s.env.merge (Dict.ofList o.env) } := by
  unfold settings
  cases o.config? <;> rfl

/-- More parameters count before those there are. -/
theorem settings_append {o : Options} {t : FileTree} {s : Settings} (h : settings o t = .ok s)
    (ps : List (String × String)) :
    ∃ s', settings { o with env := o.env ++ ps } t = .ok s' ∧ s'.shell = s.shell ∧
      s'.layout = s.layout ∧
      ∀ key, s'.env.get? key = (ps.reverse.lookup key).or (s.env.get? key) := by
  rw [settings_eq] at h
  obtain ⟨base, hbase, rfl⟩ := map_eq_ok_iff.1 h
  refine ⟨_, (settings_eq _ t).trans (map_eq_ok_iff.2 ⟨base, hbase, rfl⟩), rfl, rfl, fun key => ?_⟩
  simp only [Dict.get?_merge, Dict.get?_ofList, List.reverse_append, List.lookup_append,
    Option.or_assoc]

theorem lookup_map_snd {κ α β : Type} [BEq κ] (f : α → β) (l : List (κ × α)) (k : κ) :
    (l.map fun e => (e.1, f e.2)).lookup k = (l.lookup k).map f := by
  induction l with
  | nil => rfl
  | cons e l ih =>
    rw [List.map_cons, List.lookup_cons, List.lookup_cons, ih]
    split <;> rfl

theorem get?_environment (s : Settings) (key : String) :
    (Dialogue.environment s).get? key = (s.env.get? key).map .string := by
  rw [Dialogue.environment, Dict.get?_ofList, ← List.map_reverse, lookup_map_snd,
    Dict.lookup_reverse s.env.sorted]
  rfl

/-! ## Lines -/

/-- The parameters as entries of an environment. -/
def values (ps : List (String × String)) : List (String × Value) :=
  ps.map fun p => (p.1, .string p.2)

theorem get?_merge_values (env : Environment) (ps : List (String × String)) (key : String) :
    (env.merge (Dict.ofList (values ps))).get? key =
      ((ps.reverse.lookup key).map .string).or (env.get? key) := by
  rw [Dict.get?_merge, Dict.get?_ofList, values, ← List.map_reverse, lookup_map_snd]

theorem execute_setLine (shell : Shell) (s : State) (h : IsGivable p) :
    shell.execute s (setLine p) =
      Shell.say ⟨s.env.insert p.1 (.string p.2), s.tree⟩ (p.1 ++ " => " ++ p.2 ++ "\n") := by
  have htrim := h.value.trimmed.trim_eq
  have hline := isAssignment_set h.name p.2 (by rw [htrim]; exact h.value.ne_nil)
  rw [htrim, String.ofList_toList] at hline
  rw [Shell.execute, setLine, Command.ofLine_of_isAssignment hline]
  rfl

/-- Lines that set parameters say so, and the session goes on with them. -/
theorem session_setLines (shell : Shell) (s : State) (h : ∀ p ∈ ps, IsGivable p)
    (rest : List String) :
    ∃ sets : List Outcome,
      sets.map Outcome.shown =
          ps.map (fun p => ([.session (p.1 ++ " => " ++ p.2 ++ "\n")], .ok .next)) ∧
      shell.session s (ps.map setLine ++ rest) =
        sets ++ shell.session ⟨s.env.merge (Dict.ofList (values ps)), s.tree⟩ rest := by
  simp only [Dict.merge_ofList]
  induction ps generalizing s with
  | nil => exact ⟨[], rfl, rfl⟩
  | cons p ps ih =>
    rw [List.forall_mem_cons] at h
    have hset := execute_setLine shell s h.1
    obtain ⟨sets, hshown, hsession⟩ := ih (shell.execute s (setLine p)).state h.2
    refine ⟨shell.execute s (setLine p) :: sets, ?_, ?_⟩
    · rw [List.map_cons, List.map_cons, hshown, hset]
      rfl
    · have hflow : (shell.execute s (setLine p)).flow = .ok .next := by rw [hset]; rfl
      rw [List.map_cons, List.cons_append, Shell.session_cons_of_next hflow, hsession,
        List.cons_append, hset]
      rfl

/-- The outcome of a line that runs a tool on this environment and these files. -/
def outcomeOn (tool : Tool) (env : Environment) (t : FileTree) : Outcome where
  state := ⟨(tool.run env t).leaves env, (tool.run env t).tree⟩
  printed := [.session "", .session (tool.run env t).output]
  flow := (tool.run env t).outcome.map fun _ => .next

theorem foldl_add_parameterWord (h : ∀ p ∈ ps, IsGivable p) (e : Extras) :
    (ps.map fun p => (parameterWord p).toList).foldl Extras.add e =
      ⟨(values ps).foldl (fun d e => d.insert e.1 e.2) e.update, e.ignored⟩ := by
  induction ps generalizing e with
  | nil => rfl
  | cons p ps ih =>
    rw [List.forall_mem_cons] at h
    have hadd : e.add (parameterWord p).toList =
        ⟨e.update.insert p.1 (.string p.2), e.ignored⟩ := by
      simp [Extras.add, h.1.splitAssignment]
    rw [List.map_cons, List.foldl_cons, ih h.2, hadd]
    rfl

theorem words_toolLine {name : String} (hname : IsToken name.toList) (h : ∀ p ∈ ps, IsGivable p) :
    words (toolLine name ps).toList =
      name.toList :: ps.map fun p => (parameterWord p).toList := by
  rw [toolLine, String.toList_intercalate, List.map_cons, List.map_map]
  refine words_intercalate (List.forall_mem_cons.2 ⟨hname, List.forall_mem_map.2 fun p hp => ?_⟩)
  exact (h p hp).isToken

/-- **A tool that is given parameters after its name runs on the environment with them.** -/
theorem execute_toolLine {shell : Shell} {name : String} {tool : Tool} (hname : IsWord name.toList)
    (hfree : name.toList ∉ reserved) (htool : shell.tools.get? name = some tool) (s : State)
    (h : ∀ p ∈ ps, IsGivable p) :
    shell.execute s (toolLine name ps) =
      outcomeOn tool (s.env.merge (Dict.ofList (values ps))) s.tree := by
  have hline : IsToolLine shell.tools (toolLine name ps) name tool
      (ps.map fun p => (parameterWord p).toList) :=
    ⟨words_toolLine hname.isToken h, hname.noHost, hname.noHelp, hfree, htool⟩
  have hextras : Extras.parse (argumentText (toolLine name ps)).toList =
      ⟨Dict.ofList (values ps), []⟩ := by
    rw [Extras.parse, hline.commandWord_eq.2, foldl_add_parameterWord h]
    rfl
  rw [Shell.execute_of_isToolLine hline, Shell.runTool_of_run rfl, State.envFor, hextras]
  rfl

/-! ## The three ways -/

/-- The tool is given the parameters in three ways and comes to the same outcome: by options of the
command line, which start the session in the state `s'` and not in `s`; by lines that set them, and
that say so; and by words after its name. -/
structure Agree (shell : Shell) (name : String) (ps : List (String × String)) (s s' : State)
    (o : Outcome) : Prop where
  options : shell.session s' [name] = [o]
  sets : ∃ sets : List Outcome,
    sets.map Outcome.shown =
        ps.map (fun p => ([.session (p.1 ++ " => " ++ p.2 ++ "\n")], .ok .next)) ∧
      shell.session s (ps.map setLine ++ [name]) = sets ++ [o]
  words : shell.session s [toolLine name ps] = [o]

theorem session_singleton (shell : Shell) (s : State) (line : String) :
    shell.session s [line] = [shell.execute s line] := by
  by_cases h : (shell.execute s line).flow = .ok .next
  · rw [Shell.session_cons_of_next h]
    rfl
  · rw [Shell.session_cons_of_ne h]

theorem session_tool {shell : Shell} {name : String} {tool : Tool} (hname : IsWord name.toList)
    (hfree : name.toList ∉ reserved) (htool : shell.tools.get? name = some tool) (s : State) :
    shell.session s [name] = [outcomeOn tool s.env s.tree] := by
  have hline := execute_toolLine hname hfree htool s (List.forall_mem_nil IsGivable)
  rw [session_singleton]
  exact congrArg (fun o => [o]) hline

/-- **Parameters may be given to a tool by options, by lines that set them or by words after its
name.** It runs on the same environment, in which the last value of a parameter counts, and the
session comes to the same state, with the same output and flow. -/
theorem parameters_agree {arguments : List String} {o : Options} {t : FileTree} {s : Settings}
    (harguments : Request.parse arguments = .ok (.session o)) (hend : "--" ∉ arguments)
    (hsettings : settings o t = .ok s) (hps : ∀ p ∈ ps, IsGivable p) {shell : Shell}
    {name : String} {tool : Tool} (hname : IsWord name.toList) (hfree : name.toList ∉ reserved)
    (htool : shell.tools.get? name = some tool) :
    ∃ o' s' env, Request.parse (arguments ++ ps.map parameterOption) = .ok (.session o') ∧
      settings o' t = .ok s' ∧ s'.shell = s.shell ∧ s'.layout = s.layout ∧
      (∀ key, env.get? key =
        ((ps.reverse.lookup key).map .string).or ((Dialogue.environment s).get? key)) ∧
      Agree shell name ps (Dialogue.start s t).state (Dialogue.start s' t).state
        (outcomeOn tool env t) := by
  obtain ⟨s', hs', hshell, hlayout, henv⟩ := settings_append hsettings ps
  have hparse : Request.parse (arguments ++ ps.map parameterOption) =
      .ok (.session { o with env := o.env ++ ps }) := by
    have hinitial : ∀ o, Progress.next {} ≠ .done (.session o) := fun _ => nofun
    rw [Request.parse, Request.parseFrom_append hinitial harguments hend,
      Request.parseFrom_options o hps]
  have hget := get?_merge_values (Dialogue.environment s) ps
  have hstart : Dialogue.environment s' =
      (Dialogue.environment s).merge (Dict.ofList (values ps)) := by
    refine Dict.ext_get? fun key => ?_
    rw [get?_environment, henv, hget, get?_environment, Option.map_or]
  refine ⟨_, s', _, hparse, hs', hshell, hlayout, hget, ?_, ?_, ?_⟩
  · rw [session_tool hname hfree htool, ← hstart]
    rfl
  · obtain ⟨sets, hshown, hsession⟩ := session_setLines shell (Dialogue.start s t).state hps [name]
    refine ⟨sets, hshown, ?_⟩
    rw [hsession, session_tool hname hfree htool]
    rfl
  · rw [session_singleton, execute_toolLine hname hfree htool _ hps]
    rfl

/-! ## Without settings files

The empty tree has no settings file, so that only the options count there. -/

theorem existsAt_empty {name : String}
    (hpath : FileTree.checkPath (Path.join "." name) = .ok () ∧
      FileTree.stepsOf (Path.join "." name) = [".", name] ∧
      FileTree.startOf [] (Path.join "." name) = [])
    (hname : name ≠ "." ∧ name ≠ ".." ∧ name ≠ "/" ∧ name.utf8ByteSize ≤ maxName) :
    FileTree.empty.existsAt (Path.join "." name) = false := by
  obtain ⟨hdot, hdots, hroot, hshort⟩ := hname
  have hdir : FileTree.empty.isDirectory [] = true := rfl
  have hentry : FileTree.empty.entry? [name] = none :=
    if_neg (by simp [FileTree.systemRoot, hroot])
  have hlocate : FileTree.empty.locate (Path.join "." name) = .error .notFound := by
    rw [FileTree.locate_eq_follow hpath, FileTree.follow_dot hdir, FileTree.follow]
    simp [hdir, hdot, hdots, Nat.not_lt.2 hshort, hentry]
  rw [FileTree.existsAt, hlocate]

theorem find?_candidates_empty :
    (Settings.candidates ".").find? FileTree.empty.existsAt = none := by
  refine List.find?_eq_none.2 (List.forall_mem_map.2 ?_)
  simp only [Settings.defaultNames, List.forall_mem_cons, Bool.not_eq_true]
  refine ⟨existsAt_empty ?_ ?_, existsAt_empty ?_ ?_, existsAt_empty ?_ ?_, existsAt_empty ?_ ?_,
    existsAt_empty ?_ ?_, existsAt_empty ?_ ?_, List.forall_mem_nil _⟩
  all_goals decide

theorem settings_empty {o : Options} (h : o.config? = none) :
    settings o FileTree.empty = .ok { env := Dict.ofList o.env } := by
  have hload : Settings.loadFrom FileTree.empty "." = .ok {} := by
    unfold Settings.loadFrom
    rw [find?_candidates_empty]
  rw [settings_eq, h, Option.elim_none, hload]
  exact congrArg (fun env => Except.ok ({ env := env } : Settings)) (Dict.merge_ofList ∅ o.env)

theorem isGivable_k {value : String} (h : IsToken value.toList) : IsGivable ("k", value) := by
  have hname : IsToken "k".toList := ⟨by decide, forall_mem_of_all (by decide)⟩
  have hequals : '=' ∉ "k".toList := by decide
  exact ⟨hname, hequals, h⟩

theorem parameters_agree_repeated :
    ∃ s' env, env.get? "k" = some (.string "é") ∧
      Agree ⟨defaultTools "layouts.json" false, fun _ t => (t, [])⟩ "parse_layout"
        [("k", "a=b"), ("k", "é")]
        (Dialogue.start { env := Dict.ofList [("k", "old")] } FileTree.empty).state
        (Dialogue.start s' FileTree.empty).state
        (outcomeOn (layoutTool "layouts.json" false) env FileTree.empty) := by
  have harguments : Request.parse ["-v", "--env=k=old"] =
      .ok (.session { env := [("k", "old")], verbose := true }) := by decide
  have hps : ∀ p ∈ [("k", "a=b"), ("k", "é")], IsGivable p := by
    simp only [List.forall_mem_cons]
    refine ⟨isGivable_k ⟨by decide, ?_⟩, isGivable_k ⟨by decide, ?_⟩, List.forall_mem_nil _⟩
    all_goals exact forall_mem_of_all (by decide)
  have hshell : Shell.tools ⟨defaultTools "layouts.json" false, fun _ t => (t, [])⟩ =
      defaultTools "layouts.json" false := rfl
  obtain ⟨o', s', env, -, -, -, -, henv, hagree⟩ :=
    parameters_agree harguments (by decide) (settings_empty rfl) hps isWord_layoutTool (by decide)
      (hshell ▸ get?_defaultTools "layouts.json" false)
  exact ⟨s', env, (henv "k").trans rfl, hagree⟩

/-- A tool without a name. -/
def nameless : Tool := ⟨"", "Do nothing", fun _ t => ⟨"", t, .ok none⟩⟩

/-- **No line names a tool without a name.** Its name alone is a blank line, and followed by
parameters it is taken for another command. -/
theorem not_agree_nameless :
    Request.parse [parameterOption ("k", "v")] = .ok (.session { env := [("k", "v")] }) ∧
      settings {} FileTree.empty = .ok { env := Dict.ofList [] } ∧
      settings { env := [("k", "v")] } FileTree.empty = .ok { env := Dict.ofList [("k", "v")] } ∧
      IsGivable ("k", "v") ∧ (∀ c ∈ nameless.name.toList, isSpace c = false) ∧
      nameless.name.toList.head? ≠ some '!' ∧ nameless.name.toList.head? ≠ some '?' ∧
      nameless.name.toList ∉ reserved ∧
      (Registry.register ∅ nameless).get? nameless.name = some nameless ∧
      ∀ host o, ¬Agree ⟨Registry.register ∅ nameless, host⟩ nameless.name [("k", "v")]
        (Dialogue.start { env := Dict.ofList [] } FileTree.empty).state
        (Dialogue.start { env := Dict.ofList [("k", "v")] } FileTree.empty).state o := by
  refine ⟨by decide, settings_empty rfl, settings_empty rfl,
    isGivable_k ⟨by decide, forall_mem_of_all (by decide)⟩, List.forall_mem_nil _, by decide,
    by decide, by decide, (Dict.get?_insert _ _ _ _).trans (if_pos rfl), fun host o hagree => ?_⟩
  have hblank : Command.ofLine nameless.name = .blank := by decide
  have hother : Command.ofLine (toolLine nameless.name [("k", "v")]) =
      .other "k=v".toList [] "k=v" := by decide
  have hunknown : (Registry.register ∅ nameless).get? (String.ofList "k=v".toList) = none :=
    (Dict.get?_insert _ _ _ _).trans (if_neg (by decide))
  have hprinted := congrArg (List.map Outcome.printed) (hagree.options.trans hagree.words.symm)
  rw [session_singleton, session_singleton, Shell.execute, Shell.execute, hblank, hother, Shell.run,
    Shell.run, hunknown] at hprinted
  cases hprinted

end LayoutShell.CommandLine
