import LayoutShell.Yaml.Token
import Mathlib.Data.List.InsertIdx

/-!
# The first tokens of a YAML text

Tokens are added at the end of those that were read, but for the two that a key adds where it began.
So the first tokens of a scan stay first, unless a key may have begun at the very start of the text.

* `Begins` says which tokens come first and where the possible keys would add theirs.
* `Begins.readToken` says that a token that is read keeps the first tokens, or is a colon that puts
  those of a key before them. `Begins.run` and `Begins.run_early` follow this to the end of the
  text.
-/

namespace LayoutShell.Yaml.Scanner

/-- The possible keys, the innermost first, would add their tokens after the first `n`. If `early`
holds, the outermost one may also add them before all others. -/
def Placed (n : Nat) (early : Prop) : List (Option PossibleKey) → Prop
  | [] => True
  | [last] => ∀ k, last = some k → n ≤ k.position ∨ early ∧ k.position = 0
  | k? :: k'? :: rest => (∀ k, k? = some k → n ≤ k.position) ∧ Placed n early (k'? :: rest)

namespace Placed

variable {n : Nat} {early : Prop} {k? : Option PossibleKey} {keys : List (Option PossibleKey)}

theorem none_cons (h : Placed n early (k? :: keys)) : Placed n early (none :: keys) := by
  cases keys with
  | nil =>
    intro k hk
    cases hk
  | cons k'? keys => exact ⟨by simp, h.2⟩

/-- The innermost key may be replaced by a later one. -/
theorem replace (h : Placed n early keys) {k : PossibleKey} (hk : n ≤ k.position) :
    Placed n early (some k :: keys.tail) := by
  rcases keys with _ | ⟨k?, _ | ⟨k'?, keys⟩⟩
  · rintro _ ⟨⟩
    exact .inl hk
  · rintro _ ⟨⟩
    exact .inl hk
  · refine ⟨?_, h.2⟩
    rintro _ ⟨⟩
    exact hk

theorem push (h : Placed n early keys) : Placed n early (none :: keys) := by
  cases keys with
  | nil =>
    intro k hk
    cases hk
  | cons k'? keys => exact ⟨by simp, h⟩

theorem tail (h : Placed n early keys) : Placed n early keys.tail := by
  rcases keys with _ | ⟨k?, _ | ⟨k'?, keys⟩⟩
  · trivial
  · trivial
  · exact h.2

/-- Possible keys may be given up. -/
theorem map (h : Placed n early keys) {f : Option PossibleKey → Option PossibleKey}
    (hf : ∀ k?, f k? = none ∨ f k? = k?) : Placed n early (keys.map f) := by
  induction keys with
  | nil => trivial
  | cons k? keys ih =>
    rcases hf k? with hnone | hsame
    · rw [List.map_cons, hnone]
      exact (ih h.tail).push
    · rw [List.map_cons, hsame]
      cases keys with
      | nil => exact h
      | cons k'? keys => exact ⟨h.1, ih h.2⟩

end Placed

/-- The tokens begin with `first`, and possible keys would add theirs after these or, if `early`
holds, before all. -/
structure Begins (first : List Token) (early : Prop) (s : Scanner) : Prop where
  tokens : first <+: s.tokens.toList
  keys : Placed first.length early s.keys

/-- A key was put before the first tokens. -/
def Keyed (first : List Token) (s : Scanner) : Prop :=
  Begins (.key :: first) False s ∨ Begins (.blockMapping :: .key :: first) False s

theorem toList_insertIdxIfInBounds (tokens : Array Token) (position : Nat) (t : Token) :
    (tokens.insertIdxIfInBounds position t).toList = tokens.toList.insertIdx position t := by
  cases tokens with
  | mk tokens => rw [List.insertIdxIfInBounds_toArray]

theorem prefix_insertIdx {first tokens : List Token} (h : first <+: tokens) {position : Nat}
    (hposition : first.length ≤ position) (t : Token) : first <+: tokens.insertIdx position t := by
  rw [List.prefix_iff_eq_take] at h ⊢
  rw [List.take_insertIdx_eq_take_of_le _ _ _ _ hposition]
  exact h

theorem prefix_unrollFrom (column indent : Int) (tokens : Array Token) (outer : List Int) :
    tokens.toList <+: (unrollFrom column indent tokens outer).1.toList := by
  fun_induction unrollFrom column indent tokens outer with
  | case1 => exact List.prefix_refl _
  | case2 indent tokens i outer _ ih => exact (by simp : tokens.toList <+: _).trans ih
  | case3 => exact List.prefix_refl _

/-- Moving to the next token changes neither tokens nor keys. -/
theorem toNextToken_eq (fuel : Nat) (s : Scanner) :
    ∃ c allowed, toNextToken fuel s = { s with cursor := c, keyAllowed := allowed } := by
  fun_induction toNextToken fuel s with
  | case1 s => exact ⟨_, _, rfl⟩
  | case2 fuel s c₀ c₁ c₂ c₃ hbreak ih =>
    obtain ⟨c, allowed, h⟩ := ih
    exact ⟨c, allowed, h⟩
  | case3 => exact ⟨_, _, rfl⟩

/-- The scan at the next token: possible keys that are too far back are given up, and deeper blocks
are closed. -/
def ready (s : Scanner) : Option Scanner := do
  let s ← (toNextToken (s.cursor.rest.length + 1) s).dropStaleKeys
  return s.unroll s.cursor.column

/-- A scan ends at the next token, or reads it and goes on. -/
theorem run_cases {fuel : Nat} {s : Scanner} {tokens : Array Token}
    (h : run (fuel + 1) s = some tokens) :
    ∃ s₁, s.ready = some s₁ ∧
      (s₁.cursor.next? = none ∧ s₁.finish = some tokens ∨
        ∃ ch s₂, s₁.cursor.next? = some ch ∧ s₁.readToken ch = some s₂ ∧
          run fuel s₂ = some tokens) := by
  obtain ⟨⟨next?, s₁⟩, hstep, h⟩ := Option.bind_eq_some_iff.1 h
  obtain ⟨s₀, hstale, hstep⟩ := Option.bind_eq_some_iff.1 hstep
  refine ⟨s₀.unroll s₀.cursor.column, Option.bind_eq_some_iff.2 ⟨s₀, hstale, rfl⟩, ?_⟩
  dsimp only at hstep
  split at hstep
  next hend =>
    cases hstep
    exact .inl ⟨hend, h⟩
  next ch hch =>
    obtain ⟨s₂, hread, hstep⟩ := Option.bind_eq_some_iff.1 hstep
    cases hstep
    exact .inr ⟨ch, s₂, hch, hread, h⟩

namespace Begins

variable {first : List Token} {early : Prop} {s s' : Scanner}

theorem of_eq (hs : Begins first early s) (htokens : s.tokens.toList <+: s'.tokens.toList)
    (hkeys : s'.keys = s.keys) : Begins first early s' :=
  ⟨hs.tokens.trans htokens, hkeys ▸ hs.keys⟩

theorem length_le (hs : Begins first early s) : first.length ≤ s.tokens.size :=
  hs.tokens.length_le

theorem roll (hs : Begins first early s) (column : Nat) {position : Nat}
    (hposition : first.length ≤ position) (t : Token) :
    Begins first early (s.roll column position t) := by
  unfold Scanner.roll
  split
  · refine ⟨?_, hs.keys⟩
    rw [toList_insertIdxIfInBounds]
    exact prefix_insertIdx hs.tokens hposition t
  · exact hs

theorem unroll (hs : Begins first early s) (column : Int) :
    Begins first early (s.unroll column) := by
  unfold Scanner.unroll
  split
  · exact hs
  · exact hs.of_eq (prefix_unrollFrom column s.indent s.tokens s.outer) rfl

theorem dropKey (hs : Begins first early s) (h : s.dropKey = some s') : Begins first early s' := by
  unfold Scanner.dropKey at h
  split at h
  next k rest hkeys =>
    split at h
    · cases h
    · cases h
      exact ⟨hs.tokens, (hkeys ▸ hs.keys).none_cons⟩
  next => exact Option.some.inj h ▸ hs

/-- A key that may begin at the next token adds its tokens there. -/
theorem saveKey (hs : Begins first early s) (h : s.saveKey = some s') : Begins first early s' := by
  unfold Scanner.saveKey at h
  split at h
  · obtain ⟨s₁, hdrop, h⟩ := Option.bind_eq_some_iff.1 h
    have hs₁ := hs.dropKey hdrop
    cases h
    exact ⟨hs₁.tokens, hs₁.keys.replace hs₁.length_le⟩
  · exact Option.some.inj h ▸ hs

theorem dropStaleKeys (hs : Begins first early s) (h : s.dropStaleKeys = some s') :
    Begins first early s' := by
  unfold Scanner.dropStaleKeys at h
  dsimp only at h
  split at h
  · cases h
  · cases h
    refine ⟨hs.tokens, hs.keys.map fun k? => ?_⟩
    split
    · exact .inl rfl
    · exact .inr rfl

theorem endBlocks (hs : Begins first early s) (h : s.endBlocks = some s') :
    Begins first early s' := by
  obtain ⟨s₁, hdrop, h⟩ := Option.bind_eq_some_iff.1 h
  cases h
  exact ((hs.unroll (-1)).dropKey hdrop).of_eq (List.prefix_refl _) rfl

theorem finish (hs : Begins first early s) {tokens : Array Token} (h : s.finish = some tokens) :
    first <+: tokens.toList := by
  obtain ⟨s₁, hdrop, h⟩ := Option.bind_eq_some_iff.1 h
  cases h
  exact ((hs.unroll (-1)).dropKey hdrop).tokens

/-- A token is added at the end, whatever becomes of the place and of what may follow. -/
theorem push (hs : Begins first early s) (t : Token) (c : Cursor) (allowed : Bool) :
    Begins first early { s.push t with cursor := c, keyAllowed := allowed } :=
  hs.of_eq (by simp [Scanner.push]) rfl

theorem readDirective (hs : Begins first early s) (h : s.readDirective = some s') :
    Begins first early s' := by
  obtain ⟨s₁, hend, h⟩ := Option.bind_eq_some_iff.1 h
  obtain ⟨⟨d, c⟩, -, h⟩ := Option.bind_eq_some_iff.1 h
  cases h
  exact (hs.endBlocks hend).push _ _ _

theorem readMarker (hs : Begins first early s) {t : Token} (h : s.readMarker t = some s') :
    Begins first early s' := by
  obtain ⟨s₁, hend, h⟩ := Option.bind_eq_some_iff.1 h
  cases h
  exact (hs.endBlocks hend).push _ _ _

theorem openFlow (hs : Begins first early s) {t : Token} (h : s.openFlow t = some s') :
    Begins first early s' := by
  obtain ⟨s₁, hsave, h⟩ := Option.bind_eq_some_iff.1 h
  cases h
  have hs₁ := (hs.saveKey hsave).push t (s₁.cursor.advanceBy 1) true
  exact ⟨hs₁.tokens, hs₁.keys.push⟩

theorem closeFlow (hs : Begins first early s) {t : Token} (h : s.closeFlow t = some s') :
    Begins first early s' := by
  obtain ⟨s₁, hdrop, h⟩ := Option.bind_eq_some_iff.1 h
  cases h
  have hs₁ := (hs.dropKey hdrop).push t (s₁.cursor.advanceBy 1) false
  refine ⟨hs₁.tokens, ?_⟩
  dsimp only
  split
  · exact hs₁.keys.tail
  · exact hs₁.keys

theorem readFlowEntry (hs : Begins first early s) (h : s.readFlowEntry = some s') :
    Begins first early s' := by
  obtain ⟨s₁, hdrop, h⟩ := Option.bind_eq_some_iff.1 h
  cases h
  exact (hs.dropKey hdrop).push _ _ _

theorem readBlockEntry (hs : Begins first early s) (h : s.readBlockEntry = some s') :
    Begins first early s' := by
  unfold Scanner.readBlockEntry at h
  split at h
  · cases h
  · obtain ⟨s₁, hdrop, h⟩ := Option.bind_eq_some_iff.1 h
    cases h
    exact ((hs.roll _ hs.length_le _).dropKey hdrop).push _ _ _

theorem readKey (hs : Begins first early s) (h : s.readKey = some s') : Begins first early s' := by
  unfold Scanner.readKey at h
  split at h
  · cases h
  · obtain ⟨s₁, hdrop, h⟩ := Option.bind_eq_some_iff.1 h
    cases h
    exact ((hs.roll _ hs.length_le _).dropKey hdrop).push _ _ _

theorem readAnchor (hs : Begins first early s) {token : List Char → Token}
    (h : s.readAnchor token = some s') : Begins first early s' := by
  obtain ⟨s₁, hsave, h⟩ := Option.bind_eq_some_iff.1 h
  obtain ⟨⟨name, c⟩, -, h⟩ := Option.bind_eq_some_iff.1 h
  cases h
  exact (hs.saveKey hsave).push _ _ _

theorem readTag (hs : Begins first early s) (h : s.readTag = some s') : Begins first early s' := by
  obtain ⟨s₁, hsave, h⟩ := Option.bind_eq_some_iff.1 h
  obtain ⟨⟨handle, suffix, c⟩, -, h⟩ := Option.bind_eq_some_iff.1 h
  cases h
  exact (hs.saveKey hsave).push _ _ _

theorem readBlockScalar (hs : Begins first early s) {literal : Bool}
    (h : s.readBlockScalar literal = some s') : Begins first early s' := by
  obtain ⟨s₁, hdrop, h⟩ := Option.bind_eq_some_iff.1 h
  obtain ⟨⟨text, c⟩, -, h⟩ := Option.bind_eq_some_iff.1 h
  cases h
  exact (hs.dropKey hdrop).push _ _ _

theorem readQuoted (hs : Begins first early s) {quote : Char} (h : s.readQuoted quote = some s') :
    Begins first early s' := by
  obtain ⟨s₁, hsave, h⟩ := Option.bind_eq_some_iff.1 h
  obtain ⟨⟨text, c⟩, -, h⟩ := Option.bind_eq_some_iff.1 h
  cases h
  exact (hs.saveKey hsave).push _ _ _

theorem readPlain (hs : Begins first early s) (h : s.readPlain = some s') :
    Begins first early s' := by
  obtain ⟨s₁, hsave, h⟩ := Option.bind_eq_some_iff.1 h
  obtain ⟨⟨text, broken, c⟩, -, h⟩ := Option.bind_eq_some_iff.1 h
  cases h
  exact (hs.saveKey hsave).push _ _ _

/-- The tokens of a key go where it began. -/
theorem insertKey (hs : Begins first early s) {k : PossibleKey}
    {rest : List (Option PossibleKey)} (hkeys : s.keys = some k :: rest)
    (hposition : first.length ≤ k.position) :
    Begins first early
      { s with tokens := s.tokens.insertIdxIfInBounds k.position .key, keys := none :: rest } := by
  refine ⟨?_, (hkeys ▸ hs.keys).none_cons⟩
  rw [toList_insertIdxIfInBounds]
  exact prefix_insertIdx hs.tokens hposition _

theorem insertKey_first (hs : Begins first early s) {k : PossibleKey} (hposition : k.position = 0) :
    Begins (.key :: first) False
      { s with tokens := s.tokens.insertIdxIfInBounds k.position .key, keys := [none] } := by
  refine ⟨?_, by simp [Placed]⟩
  rw [toList_insertIdxIfInBounds, hposition, List.insertIdx_zero]
  exact List.cons_prefix_cons.2 ⟨rfl, hs.tokens⟩

theorem roll_first (hs : Begins first False s) (hkeys : s.keys = [none]) (column : Nat)
    (t : Token) :
    Begins first False (s.roll column 0 t) ∨ Begins (t :: first) False (s.roll column 0 t) := by
  unfold Scanner.roll
  split
  · refine .inr ⟨?_, ?_⟩
    · rw [toList_insertIdxIfInBounds, List.insertIdx_zero]
      exact List.cons_prefix_cons.2 ⟨rfl, hs.tokens⟩
    · simp [hkeys, Placed]
  · exact .inl hs

/-- A colon is the one mark that may put tokens before the first ones. -/
theorem readValue (hs : Begins first early s) (h : s.readValue = some s') :
    Begins first early s' ∨ early ∧ Keyed first s' := by
  unfold Scanner.readValue at h
  split at h
  next k rest hkeys =>
    cases h
    have hplaced := hs.keys
    rw [hkeys] at hplaced
    have hlater : first.length ≤ k.position ∨ early ∧ k.position = 0 ∧ rest = [] := by
      cases rest with
      | nil => exact (hplaced k rfl).imp_right fun hfirst => ⟨hfirst.1, hfirst.2, rfl⟩
      | cons k'? rest => exact .inl (hplaced.1 k rfl)
    rcases hlater with hlater | ⟨hearly, hfirst, rfl⟩
    · exact .inl (((hs.insertKey hkeys hlater).roll _ hlater _).push _ _ _)
    · refine .inr ⟨hearly, ?_⟩
      have hkeyed := hs.insertKey_first hfirst
      rw [hfirst] at hkeyed ⊢
      exact (hkeyed.roll_first rfl k.column .blockMapping).imp (fun h => h.push _ _ _)
        fun h => h.push _ _ _
  next =>
    split at h
    · cases h
    · cases h
      exact .inl ((hs.roll _ hs.length_le _).push _ _ _)

theorem readToken (hs : Begins first early s) {ch : Char} (h : s.readToken ch = some s') :
    Begins first early s' ∨ early ∧ Keyed first s' := by
  unfold Scanner.readToken at h
  rcases ite_eq_iff.1 h with ⟨-, h⟩ | ⟨-, h⟩
  · exact .inl (hs.readDirective h)
  rcases ite_eq_iff.1 h with ⟨-, h⟩ | ⟨-, h⟩
  · exact .inl (hs.readMarker h)
  rcases ite_eq_iff.1 h with ⟨-, h⟩ | ⟨-, h⟩
  · exact .inl (hs.readMarker h)
  rcases ite_eq_iff.1 h with ⟨-, h⟩ | ⟨-, h⟩
  · exact .inl (hs.openFlow h)
  rcases ite_eq_iff.1 h with ⟨-, h⟩ | ⟨-, h⟩
  · exact .inl (hs.openFlow h)
  rcases ite_eq_iff.1 h with ⟨-, h⟩ | ⟨-, h⟩
  · exact .inl (hs.closeFlow h)
  rcases ite_eq_iff.1 h with ⟨-, h⟩ | ⟨-, h⟩
  · exact .inl (hs.closeFlow h)
  rcases ite_eq_iff.1 h with ⟨-, h⟩ | ⟨-, h⟩
  · exact .inl (hs.readFlowEntry h)
  rcases ite_eq_iff.1 h with ⟨-, h⟩ | ⟨-, h⟩
  · exact .inl (hs.readBlockEntry h)
  rcases ite_eq_iff.1 h with ⟨-, h⟩ | ⟨-, h⟩
  · exact .inl (hs.readKey h)
  rcases ite_eq_iff.1 h with ⟨-, h⟩ | ⟨-, h⟩
  · exact hs.readValue h
  rcases ite_eq_iff.1 h with ⟨-, h⟩ | ⟨-, h⟩
  · exact .inl (hs.readAnchor h)
  rcases ite_eq_iff.1 h with ⟨-, h⟩ | ⟨-, h⟩
  · exact .inl (hs.readAnchor h)
  rcases ite_eq_iff.1 h with ⟨-, h⟩ | ⟨-, h⟩
  · exact .inl (hs.readTag h)
  rcases ite_eq_iff.1 h with ⟨-, h⟩ | ⟨-, h⟩
  · exact .inl (hs.readBlockScalar h)
  rcases ite_eq_iff.1 h with ⟨-, h⟩ | ⟨-, h⟩
  · exact .inl (hs.readBlockScalar h)
  rcases ite_eq_iff.1 h with ⟨-, h⟩ | ⟨-, h⟩
  · exact .inl (hs.readQuoted h)
  rcases ite_eq_iff.1 h with ⟨-, h⟩ | ⟨-, h⟩
  · exact .inl (hs.readPlain h)
  · cases h

theorem ready (hs : Begins first early s) (h : s.ready = some s') : Begins first early s' := by
  obtain ⟨s₁, hstale, h⟩ := Option.bind_eq_some_iff.1 h
  cases h
  obtain ⟨c, allowed, hnext⟩ := toNextToken_eq (s.cursor.rest.length + 1) s
  rw [hnext] at hstale
  have hs₀ : Begins first early { s with cursor := c, keyAllowed := allowed } :=
    hs.of_eq (List.prefix_refl _) rfl
  exact (hs₀.dropStaleKeys hstale).unroll _

/-- **The first tokens of a scan stay first**, if no possible key began before them. -/
theorem run (hs : Begins first False s) {fuel : Nat} {tokens : Array Token}
    (h : run fuel s = some tokens) : first <+: tokens.toList := by
  induction fuel generalizing s with
  | zero => cases h
  | succ fuel ih =>
    obtain ⟨s₁, hready, ⟨-, hfinish⟩ | ⟨ch, s₂, -, hread, hrun⟩⟩ := run_cases h
    · exact (hs.ready hready).finish hfinish
    · rcases (hs.ready hready).readToken hread with hs₂ | ⟨⟨⟩, -⟩
      exact ih hs₂ hrun

/-- Otherwise a key may come before them. -/
theorem run_early (hs : Begins first True s) {fuel : Nat} {tokens : Array Token}
    (h : Scanner.run fuel s = some tokens) :
    first <+: tokens.toList ∨ .key :: first <+: tokens.toList ∨
      .blockMapping :: .key :: first <+: tokens.toList := by
  induction fuel generalizing s with
  | zero => cases h
  | succ fuel ih =>
    obtain ⟨s₁, hready, ⟨-, hfinish⟩ | ⟨ch, s₂, -, hread, hrun⟩⟩ := run_cases h
    · exact .inl ((hs.ready hready).finish hfinish)
    · rcases (hs.ready hready).readToken hread with hs₂ | ⟨-, hkeyed | hkeyed⟩
      · exact ih hs₂ hrun
      · exact .inr (.inl (hkeyed.run hrun))
      · exact .inr (.inr (hkeyed.run hrun))

end Begins

end LayoutShell.Yaml.Scanner
