import LayoutShell.Settings.Yaml

/-!
# YAML documents without settings

Settings are a mapping whose keys are scalars, or nothing at all. The first tokens of a text may
show that it is something else.

* `NoSettings` lists such first tokens, and `Unfit` the nodes that they begin (`unfit_of_node`).
* `settings_of_noSettings`: a text that begins so has no settings.
-/

namespace LayoutShell.Yaml

/-- Tokens that do not begin like settings. -/
inductive NoSettings : List Token → Prop
  | scalar {isPlain : Bool} {text : List Char} {rest : List Token}
      (h : isPlain = true → text ≠ []) : NoSettings (.scalar isPlain text :: rest)
  | flow {rest : List Token} : NoSettings (.flowSequence :: rest)
  | block {rest : List Token} : NoSettings (.blockSequence :: rest)
  | key {rest : List Token} : NoSettings (.key :: rest)
  /-- The first key is no scalar. -/
  | flowKey {rest : List Token} : NoSettings (.blockMapping :: .key :: .flowSequence :: rest)
  /-- The first key has two scalars. -/
  | twoScalars {isPlain isPlain' : Bool} {text text' : List Char} {rest : List Token} :
      NoSettings (.blockMapping :: .key :: .scalar isPlain text :: .scalar isPlain' text' :: rest)

theorem NoSettings.mono {first ts : List Token} (h : NoSettings first) (hts : first <+: ts) :
    NoSettings ts := by
  obtain ⟨rest, rfl⟩ := hts
  cases h with
  | scalar h => exact .scalar h
  | flow => exact .flow
  | block => exact .block
  | key => exact .key
  | flowKey => exact .flowKey
  | twoScalars => exact .twoScalars

/-- Nodes that are no settings. -/
inductive Unfit : Node → Prop
  | scalar {isPlain : Bool} {text : List Char} (h : isPlain = true → text ≠ []) :
      Unfit (.scalar none none isPlain text)
  | sequence {items : List Node} : Unfit (.sequence none items)
  | mapping {items : List Node} {value : Node} {entries : List (Node × Node)} :
      Unfit (.mapping none ((.sequence none items, value) :: entries))

/-! ## Reading a node -/

namespace Reading

variable {fuel : Nat} {block indentless : Bool} {r r' : Reading} {n : Node} {rest : List Token}

theorem tokens_skip {t : Token} (h : r.tokens = t :: rest) : r.skip.tokens = rest := by
  rw [skip, h, List.tail_cons]

theorem node_scalar {isPlain : Bool} {text : List Char}
    (h : r.tokens = .scalar isPlain text :: rest) :
    node (fuel + 1) block indentless r = some (.scalar none none isPlain text, r.skip) := by
  rw [node.eq_def]
  simp [h, properties]

theorem node_flowSequence (h : r.tokens = .flowSequence :: rest)
    (hn : node fuel block indentless r = some (n, r')) : ∃ items, n = .sequence none items := by
  cases fuel with
  | zero => cases hn
  | succ fuel =>
    rw [node.eq_def] at hn
    simp only [h, properties, Option.bind_eq_bind, Option.bind_some, Option.bind_eq_some_iff] at hn
    obtain ⟨⟨items, r₁⟩, -, hn⟩ := hn
    cases hn
    exact ⟨items, rfl⟩

theorem node_blockSequence (h : r.tokens = .blockSequence :: rest)
    (hn : node fuel block indentless r = some (n, r')) : ∃ items, n = .sequence none items := by
  cases fuel with
  | zero => cases hn
  | succ fuel =>
    rw [node.eq_def] at hn
    simp [h, properties, Option.bind_eq_some_iff] at hn
    obtain ⟨-, items, -, rfl⟩ := hn
    exact ⟨items, rfl⟩

theorem node_key (h : r.tokens = .key :: rest) : node fuel block indentless r = none := by
  cases fuel with
  | zero => rfl
  | succ fuel =>
    rw [node.eq_def]
    simp [h, properties]

theorem node_blockMapping (h : r.tokens = .blockMapping :: rest)
    (hn : node (fuel + 1) block indentless r = some (n, r')) :
    ∃ entries, blockEntries fuel r.skip = some (entries, r') ∧ n = .mapping none entries := by
  rw [node.eq_def] at hn
  simp [h, properties, Option.bind_eq_some_iff] at hn
  obtain ⟨-, entries, hentries, rfl⟩ := hn
  exact ⟨entries, hentries, rfl⟩

/-- A first key in brackets is no scalar. -/
theorem blockEntries_flowKey {entries : List (Node × Node)}
    (h : r.tokens = .key :: .flowSequence :: rest)
    (hn : blockEntries fuel r = some (entries, r')) :
    ∃ items value more, entries = (.sequence none items, value) :: more := by
  rcases fuel with _ | _ | fuel
  · cases hn
  · rw [blockEntries.eq_def] at hn
    simp [sees, h, nodeUnless] at hn
  · have hskip := tokens_skip h
    have hsees : r.sees [.key] = true := by simp [sees, h]
    have hends : r.skip.sees [.key, .value, .blockEnd] = false := by simp [sees, hskip]
    rw [blockEntries.eq_def] at hn
    simp only [hsees, if_true, nodeUnless, hends, Bool.false_eq_true, if_false] at hn
    obtain ⟨⟨key, r₁⟩, hkey, hn⟩ := Option.bind_eq_some_iff.1 hn
    obtain ⟨items, rfl⟩ := node_flowSequence hskip hkey
    split at hn
    all_goals
      obtain ⟨⟨value, r₂⟩, -, hn⟩ := Option.bind_eq_some_iff.1 hn
      obtain ⟨⟨more, r₃⟩, -, hn⟩ := Option.bind_eq_some_iff.1 hn
      cases hn
      exact ⟨items, value, more, rfl⟩

/-- No value and no further key follows a key with two scalars. -/
theorem blockEntries_twoScalars {isPlain isPlain' : Bool} {text text' : List Char}
    (h : r.tokens = .key :: .scalar isPlain text :: .scalar isPlain' text' :: rest) :
    blockEntries fuel r = none := by
  rcases fuel with _ | _ | _ | fuel
  · rfl
  · rw [blockEntries.eq_def]
    simp [sees, h, nodeUnless]
  · rw [blockEntries.eq_def]
    simp [sees, h, nodeUnless, skip, node]
  · have hskip := tokens_skip h
    have hskip' := tokens_skip hskip
    have hsees : r.sees [.key] = true := by simp [sees, h]
    have hends : r.skip.sees [.key, .value, .blockEnd] = false := by simp [sees, hskip]
    have hafter : ∀ ts, r.skip.skip.sees ts = ts.contains (.scalar isPlain' text') := by
      simp [sees, hskip']
    rw [blockEntries.eq_def]
    simp only [hsees, if_true, nodeUnless, hends, Bool.false_eq_true, if_false, node_scalar hskip]
    rw [Option.bind_eq_bind, Option.bind_some]
    simp [hafter, blockEntries]

theorem unfit_of_node (hts : NoSettings r.tokens)
    (hn : node fuel block indentless r = some (n, r')) :
    Unfit n := by
  rcases fuel with _ | fuel
  · cases hn
  generalize hr : r.tokens = ts at hts
  cases hts with
  | scalar htext =>
    cases (node_scalar hr).symm.trans hn
    exact .scalar htext
  | flow =>
    obtain ⟨items, rfl⟩ := node_flowSequence hr hn
    exact .sequence
  | block =>
    obtain ⟨items, rfl⟩ := node_blockSequence hr hn
    exact .sequence
  | key => cases (node_key hr).symm.trans hn
  | flowKey =>
    obtain ⟨entries, hentries, rfl⟩ := node_blockMapping hr hn
    obtain ⟨items, value, more, rfl⟩ := blockEntries_flowKey (tokens_skip hr) hentries
    exact .mapping
  | twoScalars =>
    obtain ⟨entries, hentries, rfl⟩ := node_blockMapping hr hn
    cases (blockEntries_twoScalars (tokens_skip hr)).symm.trans hentries

end Reading

/-! ## Documents -/

namespace Document

theorem fields_of_unfit {d : Document} {names : List String} {n : Node} (h : Unfit n) :
    d.fields names n = none := by
  cases h with
  | @scalar isPlain text htext =>
    have hentries : d.entries (.scalar none none isPlain text) = none := by
      unfold entries target
      split
      next h => cases h
      next h =>
        cases h
        exact absurd rfl (htext rfl)
      next => rfl
    rw [fields, hentries]
    rfl
  | sequence => rfl
  | mapping => rfl

theorem unfit_of_content {ts : List Token} (h : NoSettings ts) {explicit : Bool}
    {handles : List (List Char × List Char)} {d : Document}
    (hd : content explicit handles ts = some d) : ∃ root, d = ⟨some root⟩ ∧ Unfit root := by
  have hcontent : content explicit handles ts =
      (Reading.node (3 * ts.length + 3) true false ⟨ts, ∅, handles ++ knownHandles⟩).bind
        fun root =>
          if root.2.tokens.all (· == .documentEnd) then some ⟨some root.1⟩ else none := by
    cases h <;> simp [content]
  rw [hcontent] at hd
  obtain ⟨⟨root, r⟩, hroot, hd⟩ := Option.bind_eq_some_iff.1 hd
  split at hd
  · cases hd
    exact ⟨root, rfl, Reading.unfit_of_node h hroot⟩
  · cases hd

theorem settings_of_content {ts : List Token} (h : NoSettings ts) (explicit : Bool)
    (handles : List (List Char × List Char)) :
    (content explicit handles ts).bind settings = none := by
  rw [Option.eq_none_iff_forall_ne_some]
  intro settings hsettings
  obtain ⟨d, hd, hsettings⟩ := Option.bind_eq_some_iff.1 hsettings
  obtain ⟨root, rfl, hroot⟩ := unfit_of_content h hd
  unfold Document.settings at hsettings
  simp [fields_of_unfit hroot] at hsettings

/-- **A text that does not begin like settings has none.** -/
theorem settings_of_noSettings {ts : List Token} (h : NoSettings ts) :
    (ofTokens ts).bind settings = none := by
  have htokens : ofTokens ts = content false [] ts := by
    cases h <;> simp [ofTokens, directives]
  rw [htokens]
  exact settings_of_content h false []

theorem settings_of_documentStart {ts : List Token} (h : NoSettings ts) :
    (ofTokens (.documentStart :: ts)).bind settings = none :=
  settings_of_content h true []

end Document

end LayoutShell.Yaml
