import LayoutShell.Proofs.Session.Lines

/-!
# Help and the commands that are known

Three lists say which commands there are: the words that a line is compared with, the table of the
shell's own commands, and the registered tools. A line is answered by the first and the third, and
help by the second and the third.

* `get?_registryOf`: of the tools that are registered under a name, the last one counts.
* `describe?_eq_none_iff` and `describe?_of_tool` say what help finds, `mem_sortedCatalogue_iff` and
  `sorted_sortedCatalogue` what it lists, and `helpListing_eq` how the list is printed.
* `IsUnknown` says that a line is answered by nothing that the shell knows, and `isUnknown_iff` that
  its first word decides that.
* `help_knows_commands`: help and the shell know the same commands.
-/

namespace LayoutShell.Session

open Text

/-! ## Registered tools -/

/-- The registry after tools were registered one after another. -/
def registryOf (registered : List Tool) : Registry := registered.foldl Registry.register ∅

theorem get?_foldl_register_of_ne {c : String} {later : List Tool} (h : ∀ t ∈ later, t.name ≠ c)
    (tools : Registry) : (later.foldl Registry.register tools).get? c = tools.get? c := by
  induction later generalizing tools with
  | nil => rfl
  | cons t later ih =>
    obtain ⟨ht, hlater⟩ := List.forall_mem_cons.1 h
    rw [List.foldl_cons, ih hlater, Registry.register, Dict.get?_insert, if_neg ht.symm]

/-- The last tool of a name replaces those before it. -/
theorem get?_registryOf {c : String} {earlier later : List Tool} {tool : Tool}
    (hname : tool.name = c) (hlater : ∀ t ∈ later, t.name ≠ c) :
    (registryOf (earlier ++ tool :: later)).get? c = some tool := by
  rw [registryOf, List.foldl_append, List.foldl_cons, get?_foldl_register_of_ne hlater,
    Registry.register, Dict.get?_insert, if_pos hname.symm]

/-! ## What help finds -/

theorem mem_reserved_iff {c : String} : c.toList ∈ reserved ↔ c ∈ builtins.map (·.1) := by
  simp only [reserved, builtins, List.map_cons, List.map_nil, List.mem_cons, List.not_mem_nil,
    or_false, String.toList_inj]
  tauto

theorem find?_catalogue_eq_none_iff {rows : List (String × String)} {c : String} :
    rows.find? (·.1 = c) = none ↔ c ∉ rows.map (·.1) := by
  rw [List.find?_eq_none, List.mem_map]
  constructor
  · rintro h ⟨row, hrow, rfl⟩
    exact h row hrow (decide_eq_true rfl)
  · intro h row hrow hc
    exact h ⟨row, hrow, of_decide_eq_true hc⟩

/-- The rows of tools are searched as the tools are. -/
theorem find?_tools (entries : List (String × Tool)) (c : String) :
    (entries.map fun (name, tool) => (name, tool.description)).find? (·.1 = c) =
      (entries.lookup c).map fun tool => (c, tool.description) := by
  induction entries with
  | nil => rfl
  | cons entry entries ih =>
    obtain ⟨name, tool⟩ := entry
    rw [List.map_cons, List.find?_cons, List.lookup_cons]
    by_cases h : c = name
    · simp [h]
    · simp [Ne.symm h, beq_eq_false_iff_ne.2 h, ih]

/-- Help has nothing on a command exactly if it is neither one of the shell nor a tool. -/
theorem describe?_eq_none_iff {tools : Registry} {c : String} :
    describe? tools c = none ↔ c ∉ builtins.map (·.1) ∧ tools.get? c = none := by
  rw [describe?, Option.map_eq_none_iff, catalogue, List.find?_append, Option.or_eq_none_iff,
    find?_catalogue_eq_none_iff, find?_tools, Option.map_eq_none_iff, Dict.get?]

/-- What help says of a tool, unless a command of the shell has its name. -/
theorem describe?_of_tool {tools : Registry} {c : String} {tool : Tool}
    (hfree : c ∉ builtins.map (·.1)) (htool : tools.get? c = some tool) :
    describe? tools c = some tool.description := by
  rw [describe?, catalogue, List.find?_append, find?_catalogue_eq_none_iff.2 hfree, Option.none_or,
    find?_tools, ← Dict.get?, htool]
  rfl

/-- The list of help has a row for each command of the shell and for each tool. -/
theorem mem_sortedCatalogue_iff {tools : Registry} {c description : String} :
    (c, description) ∈ sortedCatalogue tools ↔
      (c, description) ∈ builtins ∨
        ∃ tool, tools.get? c = some tool ∧ tool.description = description := by
  simp only [sortedCatalogue, List.mem_mergeSort, catalogue, List.mem_append, List.mem_map,
    Prod.exists, Prod.mk.injEq, Dict.get?_eq_some_iff]
  refine or_congr_right ⟨?_, ?_⟩
  · rintro ⟨_, tool, htool, rfl, hdescription⟩
    exact ⟨tool, htool, hdescription⟩
  · rintro ⟨tool, htool, hdescription⟩
    exact ⟨c, tool, htool, rfl, hdescription⟩

theorem exists_mem_sortedCatalogue_iff {tools : Registry} {c : String} :
    (∃ description, (c, description) ∈ sortedCatalogue tools) ↔ describe? tools c ≠ none := by
  rw [Ne, describe?_eq_none_iff, not_and_or, not_not, ← Ne, Option.ne_none_iff_exists',
    List.mem_map]
  simp only [mem_sortedCatalogue_iff, exists_or, Prod.exists, exists_and_right, exists_eq_right]
  refine or_congr_right ⟨?_, ?_⟩
  · rintro ⟨-, tool, htool, -⟩
    exact ⟨tool, htool⟩
  · rintro ⟨tool, htool⟩
    exact ⟨_, tool, htool, rfl⟩

theorem sorted_sortedCatalogue (tools : Registry) :
    (sortedCatalogue tools).Pairwise fun a b => a.1 ≤ b.1 := by
  have hle : ∀ a b : String × String, (!decide (b.1 < a.1)) = true ↔ a.1 ≤ b.1 := by
    intro a b
    rw [Bool.not_eq_true', decide_eq_false_iff_not, Std.not_lt]
  have hsorted : (sortedCatalogue tools).Pairwise fun a b => (!decide (b.1 < a.1)) = true := by
    apply List.pairwise_mergeSort
    · intro a b c hab hbc
      exact (hle a c).2 (Std.le_trans ((hle a b).1 hab) ((hle b c).1 hbc))
    · intro a b
      rw [Bool.or_eq_true, hle, hle]
      exact Std.le_total
  exact hsorted.imp fun {a b} h => (hle a b).1 h

/-- Each row of the list is a line, in which the name is filled up to the size of the largest. -/
theorem helpListing_eq (tools : Registry) :
    ∃ width, (∀ row ∈ sortedCatalogue tools, row.1.utf8ByteSize ≤ width) ∧
      (∃ row ∈ sortedCatalogue tools, row.1.utf8ByteSize = width) ∧
      helpListing tools = "Commands (type help <command>):\n" ++
        String.join ((sortedCatalogue tools).map fun row =>
          "  " ++ row.1 ++ String.ofList (List.replicate (width - row.1.length) ' ') ++ "  " ++
            row.2 ++ "\n") := by
  have hne : (sortedCatalogue tools).map (·.1.utf8ByteSize) ≠ [] := by
    obtain ⟨row, hrow⟩ : ∃ row, row ∈ builtins := ⟨_, List.mem_cons_self⟩
    exact List.ne_nil_of_mem (List.mem_map_of_mem (mem_sortedCatalogue_iff.2 (.inl hrow)))
  obtain ⟨width, hwidth⟩ := Option.isSome_iff_exists.1 (List.isSome_max?_iff.2 hne)
  obtain ⟨hmem, hle⟩ := List.max?_eq_some_iff.1 hwidth
  refine ⟨width, fun row hrow => hle _ (List.mem_map_of_mem hrow), List.mem_map.1 hmem, ?_⟩
  unfold helpListing
  simp only [List.foldl_max, hwidth, Option.getD_some, Nat.zero_max]
  rfl

/-! ## What the shell knows -/

/-- The command of the line is none of the shell itself, and no tool has its name. -/
def IsUnknown (tools : Registry) (line : String) : Prop :=
  ∃ word args text, Command.ofLine line = .other word args text ∧
    tools.get? (String.ofList word) = none

theorem isUnknown_iff {tools : Registry} {line c : String} (hc : IsWord c.toList)
    (hline : commandWord line = c) :
    IsUnknown tools line ↔ c ∉ builtins.map (·.1) ∧ tools.get? c = none := by
  rw [← mem_reserved_iff, IsUnknown, Command.ofLine_of_commandWord hline hc]
  constructor
  · rintro ⟨word, args, text, hother, hnone⟩
    rcases Command.ofWord_cases (trim line.toList) c.toList (argumentText line).toList with
      ⟨_, h⟩ | ⟨_, h⟩ | ⟨-, h⟩ | ⟨-, h⟩ | ⟨hfree, h⟩
    case inr.inr.inr.inr =>
      injection h.symm.trans hother with hword
      rw [← hword, String.ofList_toList] at hnone
      exact ⟨hfree, hnone⟩
    case inr.inr.inr.inl =>
      rcases Command.ofAssignment_cases (argumentText line).toList with
        ⟨-, h'⟩ | ⟨_, _, -, h'⟩ | ⟨-, h'⟩ <;> cases (hother.symm.trans h).trans h'
    all_goals cases hother.symm.trans h
  · rintro ⟨hfree, hnone⟩
    refine ⟨_, _, _, Command.ofWord_of_not_reserved hfree _ _, ?_⟩
    rwa [String.ofList_toList]

section

variable (shell : Shell) (s : State) {c : String}

theorem execute_of_unknown (hc : IsWord c.toList) {line : String} (hline : commandWord line = c)
    (hunknown : IsUnknown shell.tools line) : shell.execute s line =
      Shell.say s ("*** Unknown syntax: " ++ String.ofList (trim line.toList) ++ "\n") := by
  obtain ⟨hfree, hnone⟩ := (isUnknown_iff hc hline).1 hunknown
  rw [Shell.execute, Command.ofLine_of_commandWord hline hc,
    Command.ofWord_of_not_reserved (mt mem_reserved_iff.1 hfree), Shell.run, String.ofList_toList,
    hnone]

theorem isWord_help : IsWord "help".toList where
  ne_nil := by decide
  noSpace := forall_mem_of_all (by decide)
  noHost := by decide
  noHelp := by decide

/-- A topic is taken as it stands, without the white space around it. -/
theorem execute_help (hc : IsToken c.toList) :
    shell.execute s ("help " ++ c) = Shell.say s (helpText shell.tools c) := by
  have hline : "help " ++ c = String.ofList ("help".toList ++ ' ' :: c.toList) := by
    apply String.toList_inj.1
    simp
  obtain ⟨hword, hargs⟩ := Command.commandWord_append isWord_help c.toList
  have htrim : trim (trimRight c.toList) = c.toList := by
    rw [trimRight, dropRightWhile_of_not hc.noSpace]
    exact hc.trimmed.trim_eq
  rw [String.ofList_toList] at hword
  have hofWord : ∀ line args, Command.ofWord line "help".toList args =
      .help (String.ofList (trim args)) := fun _ _ => rfl
  rw [hline, Shell.execute, Command.ofLine_of_commandWord hword isWord_help, hargs, hofWord,
    String.toList_ofList, htrim, String.ofList_toList, Shell.run]

theorem execute_bareHelp : shell.execute s "help" = Shell.say s (helpListing shell.tools) := by
  have hline : Command.ofLine "help" = .help "" := by decide
  rw [Shell.execute, hline]
  rfl

end

/-- **Help and the shell know the same commands.** Help has no entry for a word exactly if the shell
knows no command for the lines that begin with it, and then both say so. Of a tool that is no
command of the shell itself, help says what the last tool registered under that name is for, which
is the one that the line runs. The list of all commands is sorted, with a row for each word that is
known: its name, filled up to the size of the largest, and its description. -/
theorem help_knows_commands (registered : List Tool) (host : Host) {c line : String}
    (hc : IsWord c.toList) (hline : commandWord line = c) :
    (describe? (registryOf registered) c = none ↔ IsUnknown (registryOf registered) line) ∧
    (IsUnknown (registryOf registered) line → ∀ s,
      Shell.execute ⟨registryOf registered, host⟩ s ("help " ++ c) =
        ⟨s, [.session ("*** No help on " ++ c ++ "\n")], .ok .next⟩ ∧
      Shell.execute ⟨registryOf registered, host⟩ s line =
        ⟨s, [.session ("*** Unknown syntax: " ++ String.ofList (trim line.toList) ++ "\n")],
          .ok .next⟩) ∧
    (∀ earlier tool later, registered = earlier ++ tool :: later → tool.name = c →
      (∀ t ∈ later, t.name ≠ c) → c ∉ builtins.map (·.1) → ∀ s,
        Shell.execute ⟨registryOf registered, host⟩ s ("help " ++ c) =
          ⟨s, [.session (tool.description ++ "\n")], .ok .next⟩ ∧
        Shell.execute ⟨registryOf registered, host⟩ s line =
          Shell.runTool tool (argumentText line).toList s ∧
        ∃ run, tool.run (s.envFor (argumentText line)) s.tree = run ∧
          (Shell.execute ⟨registryOf registered, host⟩ s line).state.tree = run.tree ∧
          (Shell.execute ⟨registryOf registered, host⟩ s line).printed.getLast? =
            some (.session run.output)) ∧
    (∃ width, (∀ row ∈ sortedCatalogue (registryOf registered), row.1.utf8ByteSize ≤ width) ∧
      (∃ row ∈ sortedCatalogue (registryOf registered), row.1.utf8ByteSize = width) ∧
      ∀ s, Shell.execute ⟨registryOf registered, host⟩ s "help" =
        ⟨s, [.session ("Commands (type help <command>):\n" ++
          String.join ((sortedCatalogue (registryOf registered)).map fun row =>
            "  " ++ row.1 ++ String.ofList (List.replicate (width - row.1.length) ' ') ++ "  " ++
              row.2 ++ "\n"))], .ok .next⟩) ∧
    (sortedCatalogue (registryOf registered)).Pairwise (fun a b => a.1 ≤ b.1) ∧
    (∀ description, (c, description) ∈ sortedCatalogue (registryOf registered) ↔
      (c, description) ∈ builtins ∨ ∃ tool, (registryOf registered).get? c = some tool ∧
        tool.description = description) ∧
    ((∃ description, (c, description) ∈ sortedCatalogue (registryOf registered)) ↔
      ¬IsUnknown (registryOf registered) line) := by
  have hagree : describe? (registryOf registered) c = none ↔
      IsUnknown (registryOf registered) line :=
    describe?_eq_none_iff.trans (isUnknown_iff hc hline).symm
  have hne : c.isEmpty = false := by
    rw [Bool.eq_false_iff, Ne, String.isEmpty_iff]
    rintro rfl
    exact hc.ne_nil rfl
  obtain ⟨width, hle, hlargest, hlisting⟩ := helpListing_eq (registryOf registered)
  refine ⟨hagree, fun hunknown s => ⟨?_, ?_⟩, ?_, ⟨width, hle, hlargest, fun s => ?_⟩,
    sorted_sortedCatalogue _, fun _ => mem_sortedCatalogue_iff,
    exists_mem_sortedCatalogue_iff.trans (not_congr hagree)⟩
  · rw [execute_help _ s hc.isToken, helpText, hne, hagree.2 hunknown]
    rfl
  · exact execute_of_unknown ⟨registryOf registered, host⟩ s hc hline hunknown
  · rintro earlier tool later rfl hname hlater hfree s
    have htool : (registryOf (earlier ++ tool :: later)).get? c = some tool :=
      get?_registryOf hname hlater
    have hexecute : Shell.execute ⟨registryOf (earlier ++ tool :: later), host⟩ s line =
        Shell.runTool tool (argumentText line).toList s :=
      Shell.execute_of_commandWord hc (mt mem_reserved_iff.1 hfree) htool s hline
    refine ⟨?_, hexecute, _, rfl, ?_, ?_⟩
    · rw [execute_help _ s hc.isToken, helpText, hne, describe?_of_tool hfree htool]
      rfl
    · rw [hexecute, Shell.runTool_of_run rfl]
    · rw [hexecute, Shell.runTool_of_run rfl]
      rfl
  · rw [execute_bareHelp, hlisting]
    rfl

/-! A tool is replaced by a later one, and one with the name of a command of the shell cannot be
run. -/

namespace Replaced

def idle (name description : String) : Tool := ⟨name, description, fun _ t => ⟨"", t, .ok none⟩⟩

def tools : List Tool := [idle "scan" "once", idle "set" "never", idle "scan" "again"]

theorem isWord_scan : IsWord "scan".toList where
  ne_nil := by decide
  noSpace := forall_mem_of_all (by decide)
  noHost := by decide
  noHelp := by decide

theorem commandWord_scan : commandWord " scan all" = "scan" := by decide

/-- The description of the help command. -/
def aboutHelp : String :=
  "List available commands with \"help\" or detailed help with \"help <command>\" (also \"?\")"

theorem sortedCatalogue_tools : sortedCatalogue (registryOf tools) =
    [("help", aboutHelp), ("quit", "Say goodbye"), ("scan", "again"),
      ("set", "set key value; if none, print all current parameters"), ("set", "never"),
      ("shell", "Invoke a shell command (also \"!<command>\")")] := by
  have hcatalogue : catalogue (registryOf tools) =
      [("help", aboutHelp), ("quit", "Say goodbye"),
        ("set", "set key value; if none, print all current parameters"),
        ("shell", "Invoke a shell command (also \"!<command>\")"), ("scan", "again"),
        ("set", "never")] := by
    decide
  rw [sortedCatalogue, hcatalogue]
  simp only [List.mergeSort, List.MergeSort.Internal.splitInTwo, List.length_cons, List.length_nil,
    List.splitAt_eq, List.take, List.drop, List.merge, String.reduceLT, decide_true, decide_false,
    Bool.not_true, Bool.not_false, if_true, if_false, Bool.false_eq_true]

theorem utf8ByteSize_le : ∀ row ∈ sortedCatalogue (registryOf tools), row.1.utf8ByteSize ≤ 5 := by
  rw [sortedCatalogue_tools]
  decide

end Replaced

theorem help_knows_commands_replaced :
    IsWord "scan".toList ∧ commandWord " scan all" = "scan" ∧
      (∀ t ∈ ([] : List Tool), t.name ≠ "scan") ∧ "scan" ∉ builtins.map (·.1) ∧
      ∀ s, Shell.execute ⟨registryOf Replaced.tools, fun _ t => (t, [])⟩ s ("help " ++ "scan") =
          ⟨s, [.session "again\n"], .ok .next⟩ ∧
        Shell.execute ⟨registryOf Replaced.tools, fun _ t => (t, [])⟩ s "help" =
          ⟨s, [.session ("Commands (type help <command>):\n" ++
            "  help   " ++ Replaced.aboutHelp ++ "\n" ++
            "  quit   Say goodbye\n" ++
            "  scan   again\n" ++
            "  set    set key value; if none, print all current parameters\n" ++
            "  set    never\n" ++
            "  shell  Invoke a shell command (also \"!<command>\")\n")], .ok .next⟩ := by
  have hfree : "scan" ∉ builtins.map (·.1) := by decide
  obtain ⟨-, -, hlast, ⟨width, hle, hlargest, hlisting⟩, -⟩ :=
    help_knows_commands Replaced.tools (fun _ t => (t, [])) Replaced.isWord_scan
      Replaced.commandWord_scan
  obtain rfl : width = 5 := by
    obtain ⟨row, hrow, hwidth⟩ := hlargest
    have hshell : ("shell", "Invoke a shell command (also \"!<command>\")") ∈ builtins := by decide
    exact Nat.le_antisymm (hwidth ▸ Replaced.utf8ByteSize_le row hrow)
      (hle _ (mem_sortedCatalogue_iff.2 (.inl hshell)))
  refine ⟨Replaced.isWord_scan, Replaced.commandWord_scan, by simp, hfree, fun s => ⟨?_, ?_⟩⟩
  · exact (hlast [Replaced.idle "scan" "once", Replaced.idle "set" "never"]
      (Replaced.idle "scan" "again") [] rfl rfl (by simp) hfree s).1
  · rw [hlisting, Replaced.sortedCatalogue_tools]
    rfl

end LayoutShell.Session
