import LayoutShell.Proofs.Layout.DatabaseParts

/-!
# Handlers in any spelling

The handlers of a database are a member of an object of their own, which may hold others besides in
any order and with values of any kind.

* `MethodMember` is a member of this object, and `Spells` relates it to its bytes.
* `readMethods_spelled`: if the handlers are there once, they are read.
* `passes_readMethods`: if they are not, the object is wrong in itself.
* `passes_readMethods_of_isValue`: so is any other value in place of the object, unless it is read
  up to its end.
-/

namespace LayoutShell.Layout.Database

open Files Json Text

/-! ## Members -/

/-- The bytes of a member: its key, a colon and its value. -/
inductive SpellsMember (key : String) (SpellsValue : List UInt8 → Prop) : List UInt8 → Prop
  | intro {k ws ws' v : List UInt8} (hkey : SpellsString key k) (hws : IsBlank ws)
      (hws' : IsBlank ws') (hvalue : SpellsValue v) :
      SpellsMember key SpellsValue (k ++ (ws ++ byte ':' :: (ws' ++ v)))

/-- A member of the object of handlers: the handlers of clicks, or a member with any key and
value. -/
inductive MethodMember
  | onClick (handlers : List String)
  | other (key : String)

namespace MethodMember

def key : MethodMember → String
  | onClick _ => "onClick"
  | other key => key

def isOnClick (m : MethodMember) : Bool := m.key = "onClick"

theorem isOnClick_iff {m : MethodMember} : m.isOnClick = true ↔ m.key = "onClick" :=
  decide_eq_true_iff

def SpellsValue : MethodMember → List UInt8 → Prop
  | onClick handlers => SpellsNames handlers
  | other _ => IsValue

def Spells (m : MethodMember) : List UInt8 → Prop := SpellsMember m.key m.SpellsValue

/-- The member holds these handlers. -/
def Holds (m : MethodMember) (handlers : List String) : Prop := m = onClick handlers

end MethodMember

/-- A member that may occur once has the value `a`: it has been read, or it is the only one that is
still to come. -/
inductive Awaits {μ α : Type} (Holds : μ → α → Prop) : Option α → List μ → α → Prop
  | read {a : α} : Awaits Holds (some a) [] a
  | ahead {m : μ} {a : α} (h : Holds m a) : Awaits Holds none [m] a

namespace Awaits

variable {μ α : Type} {Holds : μ → α → Prop} {old : Option α} {m : μ} {members : List μ} {a : α}

theorem of_nil (h : Awaits Holds old [] a) : old = some a := by
  cases h with
  | read => rfl

theorem of_cons (h : Awaits Holds old (m :: members) a) :
    old = none ∧ Holds m a ∧ Awaits Holds (some a) members a := by
  cases h with
  | ahead h => exact ⟨rfl, h, .read⟩

end Awaits

/-! ## Handlers -/

section

variable {fuel : Nat} {first : Bool} {old : Option (List String)}
  {lead ws s tail rest : List UInt8}

theorem readMethodMembers_of_key {key : String} {t : List UInt8}
    (hkey : nextKey first s = .ok (some (key, t))) (fuel : Nat) (old : Option (List String)) :
    readMethodMembers (fuel + 1) first old s =
      if key = "onClick" then
        memberOf old readNames t >>= fun a => readMethodMembers fuel false a.1 a.2
      else valueOf ignored t >>= fun a => readMethodMembers fuel false old a.2 := by
  rw [readMethodMembers.eq_def]
  show (nextKey first s >>= _) = _
  rw [hkey]
  rfl

/-- One member: the handlers are taken, anything else is passed over. -/
theorem exists_readMethodMembers_member {m : MethodMember} {members : List MethodMember}
    {handlers : List String} (hlead : Lead first lead) (hws : IsBlank ws) (hm : m.Spells s)
    (htail : Delimited tail)
    (honce : Awaits MethodMember.Holds old ((m :: members).filter MethodMember.isOnClick)
      handlers) :
    ∃ old', Awaits MethodMember.Holds old' (members.filter MethodMember.isOnClick) handlers ∧
      ∀ fuel, readMethodMembers (fuel + 1) first old (lead ++ (ws ++ (s ++ tail))) =
        readMethodMembers fuel false old' tail := by
  obtain @⟨k, ws₁, ws₂, v, hkey, hws₁, hws₂, hvalue⟩ := hm
  simp only [List.append_assoc, List.cons_append]
  have hstep := readMethodMembers_of_key
    (nextKey_spelled hlead hws hkey (ws₁ ++ byte ':' :: (ws₂ ++ (v ++ tail))))
  by_cases hname : m.key = "onClick"
  · rw [List.filter_cons_of_pos (MethodMember.isOnClick_iff.2 hname)] at honce
    obtain ⟨rfl, rfl, hread⟩ := honce.of_cons
    refine ⟨some handlers, hread, fun fuel => ?_⟩
    rw [hstep, if_pos hname, memberOf_append hws₁, readNames_spelled hvalue hws₂]
    rfl
  · rw [List.filter_cons_of_neg (mt MethodMember.isOnClick_iff.1 hname)] at honce
    cases m with
    | onClick names => exact absurd rfl hname
    | other key =>
      refine ⟨old, honce, fun fuel => ?_⟩
      rw [hstep, if_neg hname, valueOf_append hws₁, ignored_append hws₂ hvalue htail]
      rfl

theorem readMethods_opening (s : List UInt8) :
    readMethods (Bracket.object.opening :: s) =
      readMethodMembers (s.length + 1) true none s := by
  rw [readMethods, skipBlank_cons (by decide)]
  exact (if_neg (by decide)).trans (if_pos rfl)

/-- **The handlers are read from each of their spellings, whatever follows.** -/
theorem readMethods_spelled {members : List MethodMember} {handlers : List String}
    (hws : IsBlank ws) (h : Enclosed .object MethodMember.Spells members s)
    (honce : members.filter MethodMember.isOnClick = [.onClick handlers]) :
    readMethods (ws ++ (s ++ rest)) = .ok (handlers, rest) := by
  rw [readMethods_blank hws]
  refine read_enclosed readMethodMembers (fun old members r =>
    Awaits MethodMember.Holds old (members.filter MethodMember.isOnClick) handlers →
      r = .ok (handlers, rest)) ?_ ?_ none readMethods_opening h (honce ▸ .ahead rfl)
  · intro fuel first old ws hws honce
    obtain rfl := honce.of_nil
    exact readMethodMembers_end hws fuel first handlers rest
  · intro fuel first old lead ws s tail m members hlead hws hm htail hmore honce
    obtain ⟨old', honce', hstep⟩ := exists_readMethodMembers_member hlead hws hm htail honce
    exact (hstep fuel).trans (hmore old' honce')

/-! ## Handlers that are not there once -/

theorem passes_readMethodMembers_end (hws : IsBlank ws) :
    Passes (fun a => a.2 = rest ∧ old.toList.length = 1)
      (readMethodMembers (fuel + 1) first old (ws ++ byte '\x7d' :: rest)) := by
  cases old with
  | some handlers => exact .of_eq_ok (readMethodMembers_end hws fuel first handlers rest) ⟨rfl, rfl⟩
  | none =>
    rw [readMethodMembers, nextKey_end hws]
    exact .malformed

/-- One member whose key satisfies `K`. -/
theorem passes_readMethodMembers_member {K : String → Prop} {Q : List String × List UInt8 → Prop}
    {ws' v : List UInt8} (hws : IsBlank ws)
    (hkey : Passes (fun a => ∃ key, K key ∧ a = some (key, ws ++ byte ':' :: (ws' ++ (v ++ tail))))
      (nextKey first s))
    (hknown : K "onClick" → Passes (fun a => a.2 = tail) (readNames (ws' ++ (v ++ tail))) ∧
      (old = none → ∀ handlers, Passes Q (readMethodMembers fuel false (some handlers) tail)))
    (hother : ∀ key, K key → key ≠ "onClick" → ignored (ws' ++ (v ++ tail)) = .ok ((), tail) ∧
      Passes Q (readMethodMembers fuel false old tail)) :
    Passes Q (readMethodMembers (fuel + 1) first old s) := by
  rcases hkey with hkey | ⟨_, hkey, key, hK, rfl⟩
  · rw [readMethodMembers.eq_def]
    show Passes Q (nextKey first s >>= _)
    rw [hkey]
    exact .malformed
  · rw [readMethodMembers_of_key hkey]
    by_cases hname : key = "onClick"
    · subst hname
      rw [if_pos rfl]
      refine (passes_memberOf hws (hknown hK).1).bind ?_
      rintro ⟨_, _⟩ ⟨hold, handlers, rfl, rfl⟩
      exact (hknown hK).2 hold handlers
    · rw [if_neg hname, valueOf_append hws, (hother key hK hname).1]
      exact (hother key hK hname).2

/-- One member of a spelled object. The handlers that were read and those to come stay as many as
they are. -/
theorem passes_readMethodMembers_spelled {m : MethodMember} {members : List MethodMember}
    (hlead : Lead first lead) (hws : IsBlank ws) (hm : m.Spells s) (htail : Delimited tail)
    (hmore : ∀ old' : Option (List String),
      Passes (fun a => a.2 = rest ∧ old'.toList.length + members.countP MethodMember.isOnClick = 1)
        (readMethodMembers fuel false old' tail)) :
    Passes (fun a => a.2 = rest ∧
        old.toList.length + (m :: members).countP MethodMember.isOnClick = 1)
      (readMethodMembers (fuel + 1) first old (lead ++ (ws ++ (s ++ tail)))) := by
  obtain @⟨k, ws₁, ws₂, v, hkey, hws₁, hws₂, hvalue⟩ := hm
  simp only [List.append_assoc, List.cons_append]
  refine passes_readMethodMembers_member (K := (· = m.key)) hws₁
    (.of_eq_ok (nextKey_spelled hlead hws hkey _) ⟨_, rfl, rfl⟩) (fun hK => ⟨?_, ?_⟩) ?_
  · cases m with
    | onClick names => exact .of_eq_ok (readNames_spelled hvalue hws₂) rfl
    | other key => exact passes_readNames hvalue hws₂ htail
  · rintro rfl handlers
    have hfirst : m.isOnClick = true := MethodMember.isOnClick_iff.2 hK.symm
    refine (hmore (some handlers)).mono fun a ha => ⟨ha.1, ?_⟩
    have hcount : 1 + members.countP MethodMember.isOnClick = 1 := ha.2
    rw [List.countP_cons_of_pos hfirst, Option.toList_none, List.length_nil]
    omega
  · rintro _ rfl hname
    rw [List.countP_cons_of_neg (mt MethodMember.isOnClick_iff.1 hname)]
    refine ⟨?_, hmore old⟩
    cases m with
    | onClick names => exact absurd rfl hname
    | other key => exact ignored_append hws₂ hvalue htail

/-- One member of any object. -/
theorem passes_readMethodMembers_item (hlead : Lead first lead) (hws : IsBlank ws)
    (h : IsItem .object s) (htail : Delimited tail)
    (hmore : ∀ old' : Option (List String),
      Passes (fun a => a.2 = rest) (readMethodMembers fuel false old' tail)) :
    Passes (fun a => a.2 = rest)
      (readMethodMembers (fuel + 1) first old (lead ++ (ws ++ (s ++ tail)))) := by
  cases h with
  | @member key ws₁ ws₂ v hkey hws₁ hws₂ h =>
    simp only [List.append_assoc, List.cons_append]
    exact passes_readMethodMembers_member (K := fun _ => True) hws₁
      ((passes_nextKey hlead hws hkey _).mono fun _ ⟨name, ha⟩ => ⟨name, trivial, ha⟩)
      (fun _ => ⟨passes_readNames h hws₂ htail, fun _ _ => hmore _⟩)
      fun _ _ _ => ⟨ignored_append hws₂ h htail, hmore old⟩

theorem readMethods_refused {b : UInt8} (hb : BeginsScalar b) (t : List UInt8) :
    readMethods (b :: t) = .error (refusal (b :: t)) := by
  rw [readMethods, skipBlank_cons hb.notBlank]
  exact (if_neg (hb.notOpening .array)).trans (if_neg (hb.notOpening .object))

/-- An array in place of the object holds its one value. -/
theorem passes_readMethods_array {as : List Unit}
    (h : Separated (fun _ => IsItem .array) as s) :
    Passes (fun a => a.2 = rest)
      (readMethods (Bracket.array.opening :: (s ++ byte ']' :: rest))) := by
  have hitem : ∃ ws v tail, IsBlank ws ∧ IsValue v ∧ Delimited tail ∧
      s ++ byte ']' :: rest = ws ++ (v ++ tail) ∧
        Passes (fun t => t = rest) (endArray tail) := by
    cases h with
    | @last _ ws v ws' hws h hws' =>
      obtain ⟨h⟩ := h
      refine ⟨ws, v, ws' ++ byte ']' :: rest, hws, h,
        (delimited_closing .array rest).append_left hws', by simp, ?_⟩
      exact .of_eq_ok (endArray_append hws' rest) rfl
    | @more _ _ ws v ws' t hws h hws' _ =>
      obtain ⟨h⟩ := h
      refine ⟨ws, v, ws' ++ byte ',' :: (t ++ byte ']' :: rest), hws, h,
        (delimited_comma _).append_left hws', by simp, ?_⟩
      rw [endArray, skipBlank_append_cons hws' (by decide)]
      exact .malformed
  obtain ⟨ws, v, tail, hws, h, htail, heq, hend⟩ := hitem
  have hnames := passes_readNames h isBlank_nil htail
  obtain ⟨b, t, rfl, hb⟩ := h.exists_cons
  rw [heq, readMethods, skipBlank_cons (by decide)]
  show Passes _ (nextItem true ([] ++ (ws ++ (b :: t ++ tail))) >>= _)
  rw [List.cons_append, nextItem_append .first hws hb]
  refine hnames.bind ?_
  rintro ⟨handlers, _⟩ rfl
  refine hend.bind ?_
  rintro _ rfl
  exact .ok rfl

theorem passes_readMethods_emptyArray (hws : IsBlank ws) :
    Passes (fun a => a.2 = rest)
      (readMethods (Bracket.array.opening :: (ws ++ byte ']' :: rest))) := by
  rw [readMethods, skipBlank_cons (by decide)]
  show Passes _ (nextItem true (ws ++ byte ']' :: rest) >>= _)
  rw [nextItem_end hws]
  exact .malformed

/-- **A value in place of the handlers is read up to its end or wrong in itself.** -/
theorem passes_readMethods_of_isValue (hws : IsBlank ws) (h : IsValue s) (hrest : Delimited rest) :
    Passes (fun a => a.2 = rest) (readMethods (ws ++ (s ++ rest))) := by
  rw [readMethods_blank hws]
  rcases h.scalar_or_enclosed with hscalar | ⟨_ | _, _, hitems⟩
  · have hrefusal := refusal_append h hrest
    obtain ⟨b, t, rfl, hb⟩ := hscalar.exists_cons
    rw [List.cons_append] at hrefusal ⊢
    rw [readMethods_refused hb, hrefusal]
    exact .malformed
  · cases hitems with
    | empty hws' => exact enclosed_append _ _ _ rest ▸ passes_readMethods_emptyArray hws'
    | items hitems => exact enclosed_append _ _ _ rest ▸ passes_readMethods_array hitems
  · refine read_enclosed readMethodMembers (fun _ _ r => Passes (fun a => a.2 = rest) r) ?_ ?_ none
      readMethods_opening hitems
    · intro fuel first old ws hws
      exact (passes_readMethodMembers_end hws).mono fun _ ha => ha.1
    · intro fuel first old lead ws s tail _ _ hlead hws h htail hmore
      exact passes_readMethodMembers_item hlead hws h htail hmore

/-- **Handlers that are not there once are wrong in themselves.** -/
theorem passes_readMethods {members : List MethodMember} (hws : IsBlank ws)
    (h : Enclosed .object MethodMember.Spells members s) :
    Passes (fun a => a.2 = rest ∧ members.countP MethodMember.isOnClick = 1)
      (readMethods (ws ++ (s ++ rest))) := by
  rw [readMethods_blank hws]
  have hcount := read_enclosed readMethodMembers
    (fun (old : Option (List String)) members r => Passes (fun a => a.2 = rest ∧
      old.toList.length + members.countP MethodMember.isOnClick = 1) r)
    passes_readMethodMembers_end passes_readMethodMembers_spelled none readMethods_opening h
  exact hcount.mono fun a ha => ⟨ha.1, by simpa using ha.2⟩

end

end LayoutShell.Layout.Database
