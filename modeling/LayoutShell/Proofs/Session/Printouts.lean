import LayoutShell.Proofs.Json.Values
import LayoutShell.Proofs.Session.Frames

/-!
# What is printed of an environment

The bare word `set` prints the environment as a JSON text.

* `Environment.read_render` and `Environment.membersIn_render` read the text back, as a value and in
  the order of its members.
* `Environment.render_injective`: environments with the same text are the same.
* `execute_set` and `execute_assignment` are the two lines: one prints the environment, the other
  changes it.
* `render_determines` is all of this together.
-/

namespace LayoutShell.Session

open Files Json Text

namespace Environment

/-- Every value is determined by its text. -/
def IsExact (env : Environment) : Prop := ∀ m ∈ env.entries, Exact m.2

theorem toList_render (env : Environment) :
    env.render.toList = (Value.object env.entries).prettyAt 2 0 := by
  rw [render, Value.pretty, String.toList_ofList]

/-- The text of an environment is a JSON text of it. -/
theorem read_render {env : Environment} (h : env.IsExact) :
    Value.read (encode env.render.toList) = .ok (.object env.entries) := by
  rw [toList_render, read_prettyAt (.object env.sorted h)]

theorem membersIn_render {env : Environment} (h : env.IsExact) :
    membersIn (encode env.render.toList) = .ok env.entries := by
  rw [toList_render, membersIn_prettyAt h]

theorem render_injective {env env' : Environment} (h : env.IsExact) (h' : env'.IsExact)
    (heq : env'.render = env.render) : env' = env := by
  have hread := read_render h'
  rw [heq, read_render h] at hread
  exact Dict.ext_entries (Value.object.inj (Except.ok.inj hread)).symm

theorem IsExact.insert {env : Environment} (h : env.IsExact) {name : String} {v : Value}
    (hv : Exact v) : IsExact (env.insert name v) := by
  rintro ⟨key, w⟩ hm
  have hget := Dict.get?_eq_some_iff.2 hm
  rw [Dict.get?_insert] at hget
  split at hget
  · obtain rfl := Option.some.inj hget
    exact hv
  · exact h _ (Dict.get?_eq_some_iff.1 hget)

end Environment

theorem execute_set (shell : Shell) (s : State) :
    (shell.execute s "set").printed = [.session (s.env.render ++ "\n")] := by
  have hline : Command.ofLine "set" = .display := by decide
  rw [Shell.execute, hline]
  rfl

theorem execute_assignment (shell : Shell) (s : State) {line name value : String}
    (h : IsAssignment line name value) :
    (shell.execute s line).state = ⟨s.env.insert name (.string value), s.tree⟩ := by
  rw [Shell.execute, Command.ofLine_of_isAssignment h]
  rfl

/-- **What is printed of an environment determines it.** The text is a JSON text of the environment,
its keys stand there in increasing order, and no other environment has it. After a line
that sets a parameter, the text that is printed has the new value and all others as before. -/
theorem render_determines {env : Environment} (h : env.IsExact) :
    Value.read (encode env.render.toList) = .ok (.object env.entries) ∧
    (∃ members, membersIn (encode env.render.toList) = .ok members ∧
      (members.map Prod.fst).Pairwise (· < ·)) ∧
    (∀ env' : Environment, env'.IsExact → env'.render = env.render → env' = env) ∧
    ∀ (shell : Shell) (t : FileTree),
      (shell.execute ⟨env, t⟩ "set").printed = [.session (env.render ++ "\n")] ∧
      ∀ name value : String, IsToken name.toList → trim value.toList ≠ [] →
        ∃ env' members,
          (shell.execute ⟨env, t⟩ ("set " ++ name ++ " " ++ value)).state = ⟨env', t⟩ ∧
          (shell.execute ⟨env', t⟩ "set").printed = [.session (env'.render ++ "\n")] ∧
          Value.read (encode env'.render.toList) = .ok (.object members) ∧
          members.lookup name = some (.string (String.ofList (trim value.toList))) ∧
          ∀ other, other ≠ name → members.lookup other = env.get? other := by
  refine ⟨env.read_render h, ⟨env.entries, env.membersIn_render h, ?_⟩,
    fun env' h' => Environment.render_injective h h',
    fun shell t => ⟨execute_set shell _, fun name value hname hvalue => ?_⟩⟩
  · exact List.pairwise_map.2 env.sorted
  · have hline := isAssignment_set hname value hvalue
    refine ⟨_, _, execute_assignment shell _ hline, execute_set shell _,
      Environment.read_render (h.insert (.string _)), ?_, fun other hother => ?_⟩
    · exact (Dict.get?_insert _ _ _ _).trans (if_pos rfl)
    · exact (Dict.get?_insert _ _ _ _).trans (if_neg hother)

/-- Values at both ends of the range and names that need escapes, nested and empty. -/
def varied : Environment where
  entries :=
    [("", .array [.null, .number (.int (-0x8000000000000000)), .number (.int 0xFFFFFFFFFFFFFFFF),
        .bool false]),
      ("\"\n\\", .object [("", .array []), ("\x00", .object []), ("😀", .string "\x1f\t")]),
      ("é", .string "")]
  sorted := by decide

theorem isExact_varied : varied.IsExact := by
  have hinner : [("", Value.array []), ("\x00", .object []), ("😀", .string "\x1f\t")].Pairwise
      fun a b => a.1 < b.1 := by decide
  simp only [Environment.IsExact, varied, List.forall_mem_cons]
  refine ⟨.array ?_, .object hinner ?_, .string "", List.forall_mem_nil _⟩
  · simp only [List.forall_mem_cons]
    exact ⟨.null, .int ⟨by decide, by decide⟩, .int ⟨by decide, by decide⟩, .bool false,
      List.forall_mem_nil _⟩
  · simp only [List.forall_mem_cons]
    exact ⟨.array (List.forall_mem_nil _), .object .nil (List.forall_mem_nil _), .string _,
      List.forall_mem_nil _⟩

/-- The name is there already, and white space around the value is dropped. -/
theorem render_determines_varied :
    varied.IsExact ∧ IsToken "é".toList ∧ trim "  two words ".toList ≠ [] ∧
      Value.read (encode varied.render.toList) = .ok (.object varied.entries) ∧
      ∀ (shell : Shell) (t : FileTree), ∃ env' members,
        (shell.execute ⟨varied, t⟩ ("set " ++ "é" ++ " " ++ "  two words ")).state = ⟨env', t⟩ ∧
        Value.read (encode env'.render.toList) = .ok (.object members) ∧
        members.lookup "é" = some (.string "two words") ∧
        members.lookup "" = varied.get? "" := by
  have hname : IsToken "é".toList := ⟨by decide, forall_mem_of_all (by decide)⟩
  have hvalue : trim "  two words ".toList ≠ [] := by decide
  have htrim : String.ofList (trim "  two words ".toList) = "two words" := by decide
  obtain ⟨hread, -, -, hset⟩ := render_determines isExact_varied
  refine ⟨isExact_varied, hname, hvalue, hread, fun shell t => ?_⟩
  obtain ⟨env', members, hstate, -, hread', hlookup, hothers⟩ := (hset shell t).2 _ _ hname hvalue
  exact ⟨env', members, hstate, hread', htrim ▸ hlookup, hothers "" (by decide)⟩

/-- **An empty name is not set.** The line has a value but no name in front of it. -/
theorem not_set_nameless :
    (∀ c ∈ "".toList, isSpace c = false) ∧ trim "v".toList ≠ [] ∧
      ∀ (shell : Shell) (t : FileTree),
        (shell.execute ⟨∅, t⟩ ("set " ++ "" ++ " " ++ "v")).state = ⟨∅, t⟩ ∧
        (shell.execute ⟨∅, t⟩ "set").printed = [.session (Environment.render ∅ ++ "\n")] ∧
        Value.read (encode (Environment.render ∅).toList) = .ok (.object []) := by
  have hline : Command.ofLine ("set " ++ "" ++ " " ++ "v") = .assignUsage := by decide
  refine ⟨List.forall_mem_nil _, by decide, fun shell t => ⟨?_, execute_set shell _, ?_⟩⟩
  · rw [Shell.execute, hline]
    rfl
  · exact Environment.read_render (List.forall_mem_nil _)

end LayoutShell.Session
