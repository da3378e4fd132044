import LayoutShell.Proofs.Layout.SpelledHandlers
import LayoutShell.Proofs.Text.Cutting

/-!
# Databases in any spelling

A JSON text of a database may have its members in any order and hold others besides, with values of
any kind and depth; it may have any white space and any escapes.

* `DatabaseMember` is a member of the outer object, and `SpellsMembers` relates members to their
  JSON texts.
* `Complete` says that each known member is there once and what database the members are then,
  `Incomplete` that one of them is missing or there more than once.
* `exists_readMembers_member` and `readDatabase_spelled` read one member and all of them.
* `passes_readMembers_member` and `passes_readDatabase` count the known ones.
* `load_of_spelled`: complete members are loaded, incomplete ones are wrong in themselves.
-/

namespace LayoutShell.Layout.Database

open Files Json Text

/-! ## Members -/

/-- A member of the outer object. -/
inductive DatabaseMember
  | methods (members : List MethodMember)
  | classes (names : List String)
  | other (key : String)

namespace DatabaseMember

def key : DatabaseMember → String
  | methods _ => "external_methods"
  | classes _ => "classes"
  | other key => key

def isMethods (m : DatabaseMember) : Bool := m.key = "external_methods"

def isClasses (m : DatabaseMember) : Bool := m.key = "classes"

theorem isMethods_iff {m : DatabaseMember} : m.isMethods = true ↔ m.key = "external_methods" :=
  decide_eq_true_iff

theorem isClasses_iff {m : DatabaseMember} : m.isClasses = true ↔ m.key = "classes" :=
  decide_eq_true_iff

def SpellsValue : DatabaseMember → List UInt8 → Prop
  | methods members => Enclosed .object MethodMember.Spells members
  | classes names => SpellsNames names
  | other _ => IsValue

def Spells (m : DatabaseMember) : List UInt8 → Prop := SpellsMember m.key m.SpellsValue

/-- The member holds these handlers, and holds them once. -/
def HoldsHandlers (m : DatabaseMember) (handlers : List String) : Prop :=
  ∃ inner, m = methods inner ∧ inner.filter MethodMember.isOnClick = [.onClick handlers]

/-- The member holds these classes. -/
def HoldsClasses (m : DatabaseMember) (names : List String) : Prop := m = classes names

end DatabaseMember

/-- A JSON text of an object with these members. -/
inductive SpellsMembers (members : List DatabaseMember) : List UInt8 → Prop
  | intro {ws s ws' : List UInt8} (hws : IsBlank ws)
      (h : Enclosed .object DatabaseMember.Spells members s) (hws' : IsBlank ws') :
      SpellsMembers members (ws ++ (s ++ ws'))

/-- Each known member is there once, with the names of the database. -/
structure Complete (members : List DatabaseMember) (d : Database) : Prop where
  methods : ∃ inner, members.filter DatabaseMember.isMethods = [.methods inner] ∧
    inner.filter MethodMember.isOnClick = [.onClick d.handlers]
  classes : members.filter DatabaseMember.isClasses = [.classes d.classes]

/-- A known member is missing or there more than once. -/
inductive Incomplete (members : List DatabaseMember) : Prop
  | methods (h : members.countP DatabaseMember.isMethods ≠ 1)
  | onClick {inner : List MethodMember} (hinner : .methods inner ∈ members)
      (h : inner.countP MethodMember.isOnClick ≠ 1)
  | classes (h : members.countP DatabaseMember.isClasses ≠ 1)

/-! ## Members that are there once -/

section

variable {fuel : Nat} {first : Bool} {handlers? classes? : Option (List String)}
  {lead ws s tail rest : List UInt8}

theorem readMembers_of_key {key : String} {t : List UInt8}
    (hkey : nextKey first s = .ok (some (key, t))) (fuel : Nat)
    (handlers? classes? : Option (List String)) :
    readMembers (fuel + 1) first handlers? classes? s =
      if key = "external_methods" then
        memberOf handlers? readMethods t >>= fun a => readMembers fuel false a.1 classes? a.2
      else if key = "classes" then
        memberOf classes? readNames t >>= fun a => readMembers fuel false handlers? a.1 a.2
      else valueOf ignored t >>= fun a => readMembers fuel false handlers? classes? a.2 := by
  rw [readMembers.eq_def]
  show (nextKey first s >>= _) = _
  rw [hkey]
  rfl

/-- The members are those of the database, as far as they have not been read. -/
structure Remain (handlers? classes? : Option (List String)) (members : List DatabaseMember)
    (d : Database) : Prop where
  methods : Awaits DatabaseMember.HoldsHandlers handlers?
    (members.filter DatabaseMember.isMethods) d.handlers
  classes : Awaits DatabaseMember.HoldsClasses classes?
    (members.filter DatabaseMember.isClasses) d.classes

theorem exists_readMembers_member {m : DatabaseMember} {members : List DatabaseMember}
    {d : Database} (hlead : Lead first lead) (hws : IsBlank ws) (hm : m.Spells s)
    (htail : Delimited tail) (h : Remain handlers? classes? (m :: members) d) :
    ∃ handlers?' classes?', Remain handlers?' classes?' members d ∧
      ∀ fuel, readMembers (fuel + 1) first handlers? classes? (lead ++ (ws ++ (s ++ tail))) =
        readMembers fuel false handlers?' classes?' tail := by
  obtain @⟨k, ws₁, ws₂, v, hkey, hws₁, hws₂, hvalue⟩ := hm
  obtain ⟨hmethods, hclasses⟩ := h
  simp only [List.append_assoc, List.cons_append]
  have hstep := readMembers_of_key
    (nextKey_spelled hlead hws hkey (ws₁ ++ byte ':' :: (ws₂ ++ (v ++ tail))))
  by_cases hname : m.key = "external_methods"
  · have hname' : m.key ≠ "classes" := by simp [hname]
    rw [List.filter_cons_of_pos (DatabaseMember.isMethods_iff.2 hname)] at hmethods
    rw [List.filter_cons_of_neg (mt DatabaseMember.isClasses_iff.1 hname')] at hclasses
    obtain ⟨rfl, ⟨inner, rfl, honce⟩, hread⟩ := hmethods.of_cons
    refine ⟨some d.handlers, classes?, ⟨hread, hclasses⟩, fun fuel => ?_⟩
    rw [hstep, if_pos hname, memberOf_append hws₁, readMethods_spelled hws₂ hvalue honce]
    rfl
  by_cases hname' : m.key = "classes"
  · rw [List.filter_cons_of_neg (mt DatabaseMember.isMethods_iff.1 hname)] at hmethods
    rw [List.filter_cons_of_pos (DatabaseMember.isClasses_iff.2 hname')] at hclasses
    obtain ⟨rfl, rfl, hread⟩ := hclasses.of_cons
    refine ⟨handlers?, some d.classes, ⟨hmethods, hread⟩, fun fuel => ?_⟩
    rw [hstep, if_neg hname, if_pos hname', memberOf_append hws₁, readNames_spelled hvalue hws₂]
    rfl
  · rw [List.filter_cons_of_neg (mt DatabaseMember.isMethods_iff.1 hname)] at hmethods
    rw [List.filter_cons_of_neg (mt DatabaseMember.isClasses_iff.1 hname')] at hclasses
    cases m with
    | methods inner => exact absurd rfl hname
    | classes names => exact absurd rfl hname'
    | other key =>
      refine ⟨handlers?, classes?, ⟨hmethods, hclasses⟩, fun fuel => ?_⟩
      rw [hstep, if_neg hname, if_neg hname', valueOf_append hws₁,
        ignored_append hws₂ hvalue htail]
      rfl

theorem readDatabase_blank (hws : IsBlank ws) (s : List UInt8) :
    readDatabase (ws ++ s) = readDatabase s := by
  rw [readDatabase, skipBlank_append hws, ← readDatabase]

theorem readDatabase_opening (s : List UInt8) :
    readDatabase (Bracket.object.opening :: s) =
      readMembers (s.length + 1) true none none s := by
  rw [readDatabase, skipBlank_cons (by decide)]
  exact (if_neg (by decide)).trans (if_pos rfl)

/-- The reader of members with what it has read so far as its state. -/
def readFrom (fuel : Nat) (first : Bool) (state : Option (List String) × Option (List String)) :
    List UInt8 → Except Failure (Database × List UInt8) :=
  readMembers fuel first state.1 state.2

theorem readDatabase_spelled {members : List DatabaseMember} {d : Database} (hws : IsBlank ws)
    (h : Enclosed .object DatabaseMember.Spells members s) (hremain : Remain none none members d) :
    readDatabase (ws ++ (s ++ rest)) = .ok (d, rest) := by
  rw [readDatabase_blank hws]
  refine read_enclosed readFrom
    (fun state members r => Remain state.1 state.2 members d → r = .ok (d, rest)) ?_ ?_ (none, none)
    readDatabase_opening h hremain
  · rintro fuel first ⟨handlers?, classes?⟩ ws hws ⟨hmethods, hclasses⟩
    obtain rfl := hmethods.of_nil
    obtain rfl := hclasses.of_nil
    exact readMembers_end hws d.handlers d.classes
  · intro fuel first state lead ws s tail m members hlead hws hm htail hmore hremain
    obtain ⟨handlers?, classes?, hremain', hstep⟩ :=
      exists_readMembers_member hlead hws hm htail hremain
    exact (hstep fuel).trans (hmore (handlers?, classes?) hremain')

/-! ## Members that are not there once -/

/-- Of what has been read and what is still to come, there is one of each kind. -/
structure Once (handlers? classes? : Option (List String)) (members : List DatabaseMember) :
    Prop where
  methods : handlers?.toList.length + members.countP DatabaseMember.isMethods = 1
  classes : classes?.toList.length + members.countP DatabaseMember.isClasses = 1
  onClick : ∀ inner, .methods inner ∈ members → inner.countP MethodMember.isOnClick = 1

namespace Once

variable {m : DatabaseMember} {members : List DatabaseMember}

theorem cons_methods {handlers : List String} (h : Once (some handlers) classes? members)
    (hname : m.key = "external_methods")
    (hinner : ∀ inner, m = .methods inner → inner.countP MethodMember.isOnClick = 1) :
    Once none classes? (m :: members) where
  methods := by
    have hcount := h.methods
    rw [List.countP_cons_of_pos (DatabaseMember.isMethods_iff.2 hname)]
    simp only [Option.toList_some, Option.toList_none, List.length_singleton,
      List.length_nil] at hcount ⊢
    omega
  classes := by
    have hname' : m.key ≠ "classes" := by simp [hname]
    rw [List.countP_cons_of_neg (mt DatabaseMember.isClasses_iff.1 hname')]
    exact h.classes
  onClick inner hmem := (List.mem_cons.1 hmem).elim (fun heq => hinner inner heq.symm)
    (h.onClick inner)

theorem cons_classes {classes : List String} (h : Once handlers? (some classes) members)
    (hname : m.key = "classes") : Once handlers? none (m :: members) where
  methods := by
    have hname' : m.key ≠ "external_methods" := by simp [hname]
    rw [List.countP_cons_of_neg (mt DatabaseMember.isMethods_iff.1 hname')]
    exact h.methods
  classes := by
    have hcount := h.classes
    rw [List.countP_cons_of_pos (DatabaseMember.isClasses_iff.2 hname)]
    simp only [Option.toList_some, Option.toList_none, List.length_singleton,
      List.length_nil] at hcount ⊢
    omega
  onClick inner hmem := by
    rcases List.mem_cons.1 hmem with rfl | hmem
    · simp [DatabaseMember.key] at hname
    · exact h.onClick inner hmem

theorem cons_other (h : Once handlers? classes? members) (hname : m.key ≠ "external_methods")
    (hname' : m.key ≠ "classes") : Once handlers? classes? (m :: members) where
  methods := by
    rw [List.countP_cons_of_neg (mt DatabaseMember.isMethods_iff.1 hname)]
    exact h.methods
  classes := by
    rw [List.countP_cons_of_neg (mt DatabaseMember.isClasses_iff.1 hname')]
    exact h.classes
  onClick inner hmem := by
    rcases List.mem_cons.1 hmem with rfl | hmem
    · exact absurd rfl hname
    · exact h.onClick inner hmem

end Once

theorem passes_readMembers_end (hws : IsBlank ws) :
    Passes (fun a => a.2 = rest ∧ Once handlers? classes? [])
      (readMembers (fuel + 1) first handlers? classes? (ws ++ byte '\x7d' :: rest)) := by
  cases handlers? with
  | none =>
    rw [readMembers.eq_def]
    show Passes _ (nextKey first _ >>= _)
    rw [nextKey_end hws]
    exact .malformed
  | some handlers =>
    cases classes? with
    | none =>
      rw [readMembers.eq_def]
      show Passes _ (nextKey first _ >>= _)
      rw [nextKey_end hws]
      exact .malformed
    | some classes =>
      refine .of_eq_ok (readMembers_end hws handlers classes) ⟨rfl, rfl, rfl, ?_⟩
      intro inner hinner
      cases hinner

/-- The values of the two known members, of whatever kind they are. -/
theorem passes_methods {m : DatabaseMember} (hname : m.key = "external_methods")
    (hvalue : m.SpellsValue s) (hws : IsBlank ws) (htail : Delimited tail) :
    Passes (fun a => a.2 = tail ∧ ∀ inner, m = .methods inner →
      inner.countP MethodMember.isOnClick = 1) (readMethods (ws ++ (s ++ tail))) := by
  cases m with
  | methods inner =>
    refine (passes_readMethods hws hvalue).mono fun a ha => ⟨ha.1, ?_⟩
    rintro _ ⟨⟩
    exact ha.2
  | classes names => simp [DatabaseMember.key] at hname
  | other key =>
    exact (passes_readMethods_of_isValue hws hvalue htail).mono fun a ha => ⟨ha, nofun⟩

theorem passes_classes {m : DatabaseMember} (hname : m.key = "classes")
    (hvalue : m.SpellsValue s) (hws : IsBlank ws) (htail : Delimited tail) :
    Passes (fun a => a.2 = tail) (readNames (ws ++ (s ++ tail))) := by
  cases m with
  | methods inner => simp [DatabaseMember.key] at hname
  | classes names => exact .of_eq_ok (readNames_spelled hvalue hws) rfl
  | other key => exact passes_readNames hvalue hws htail

theorem passes_readMembers_member {m : DatabaseMember} {members : List DatabaseMember}
    (hlead : Lead first lead) (hws : IsBlank ws) (hm : m.Spells s) (htail : Delimited tail)
    (hmore : ∀ handlers?' classes?',
      Passes (fun a => a.2 = rest ∧ Once handlers?' classes?' members)
        (readMembers fuel false handlers?' classes?' tail)) :
    Passes (fun a => a.2 = rest ∧ Once handlers? classes? (m :: members))
      (readMembers (fuel + 1) first handlers? classes? (lead ++ (ws ++ (s ++ tail)))) := by
  obtain @⟨k, ws₁, ws₂, v, hkey, hws₁, hws₂, hvalue⟩ := hm
  simp only [List.append_assoc, List.cons_append]
  rw [readMembers_of_key (nextKey_spelled hlead hws hkey _)]
  by_cases hname : m.key = "external_methods"
  · rw [if_pos hname]
    refine (passes_memberOf hws₁ (passes_methods hname hvalue hws₂ htail)).bind ?_
    rintro ⟨_, _⟩ ⟨rfl, handlers, rfl, rfl, hinner⟩
    exact (hmore (some handlers) classes?).mono fun a ha => ⟨ha.1, ha.2.cons_methods hname hinner⟩
  by_cases hname' : m.key = "classes"
  · rw [if_neg hname, if_pos hname']
    refine (passes_memberOf hws₁ (passes_classes hname' hvalue hws₂ htail)).bind ?_
    rintro ⟨_, _⟩ ⟨rfl, classes, rfl, rfl⟩
    exact (hmore handlers? (some classes)).mono fun a ha => ⟨ha.1, ha.2.cons_classes hname'⟩
  · rw [if_neg hname, if_neg hname', valueOf_append hws₁]
    cases m with
    | methods inner => exact absurd rfl hname
    | classes names => exact absurd rfl hname'
    | other key =>
      rw [ignored_append hws₂ hvalue htail]
      exact (hmore handlers? classes?).mono fun a ha => ⟨ha.1, ha.2.cons_other hname hname'⟩

theorem passes_readDatabase {members : List DatabaseMember} (hws : IsBlank ws)
    (h : Enclosed .object DatabaseMember.Spells members s) :
    Passes (fun a => a.2 = rest ∧ Once none none members) (readDatabase (ws ++ (s ++ rest))) := by
  rw [readDatabase_blank hws]
  refine read_enclosed readFrom
    (fun state members r => Passes (fun a => a.2 = rest ∧ Once state.1 state.2 members) r) ?_ ?_
    (none, none) readDatabase_opening h
  · intro fuel first state ws hws
    exact passes_readMembers_end hws
  · intro fuel first state lead ws s tail m members hlead hws hm htail hmore
    exact passes_readMembers_member hlead hws hm htail fun handlers? classes? =>
      hmore (handlers?, classes?)

/-! ## Files -/

/-- White space may follow the database. -/
theorem decode_of_readDatabase {d : Database} (h : readDatabase s = .ok (d, ws))
    (hws : IsBlank ws) : decode s = .ok d := by
  have hblank := skipBlank_append hws []
  rw [List.append_nil] at hblank
  rw [decode, h]
  simp only [bind, Except.bind, hblank]
  rfl

/-- **The members of a database are read from each of their spellings.** -/
theorem decode_of_complete {members : List DatabaseMember} {d : Database}
    (h : SpellsMembers members s) (hcomplete : Complete members d) : decode s = .ok d := by
  obtain ⟨⟨inner, hmethods, honce⟩, hclasses⟩ := hcomplete
  obtain @⟨ws, s, ws', hws, h, hws'⟩ := h
  refine decode_of_readDatabase (readDatabase_spelled hws h ⟨?_, ?_⟩) hws'
  · rw [hmethods]
    exact .ahead ⟨inner, rfl, honce⟩
  · rw [hclasses]
    exact .ahead rfl

/-- **If a known member is not there once, the text is wrong in itself.** -/
theorem decode_of_incomplete {members : List DatabaseMember} (h : SpellsMembers members s)
    (hincomplete : Incomplete members) : decode s = .error .malformed := by
  have honce : ¬Once none none members := by
    rintro ⟨hmethods, hclasses, honClick⟩
    cases hincomplete with
    | methods h => exact h (by simpa using hmethods)
    | onClick hinner h => exact h (honClick _ hinner)
    | classes h => exact h (by simpa using hclasses)
  obtain @⟨ws, s, ws', hws, h, hws'⟩ := h
  rcases passes_readDatabase hws h with hread | ⟨_, -, -, hone⟩
  · rw [decode, hread]
    rfl
  · exact absurd hone honce

/-- **A database is loaded from each of its spellings.** A text of which something is missing or
there more than once is wrong in itself. -/
theorem load_of_spelled {t : FileTree} {path : String} {text : List UInt8}
    (hread : t.read path = .ok text) {members : List DatabaseMember}
    (h : SpellsMembers members text) :
    (∀ d, Complete members d → load t path = .ok d) ∧
      (Incomplete members → load t path = .error (.content .malformed)) := by
  rw [load, hread]
  refine ⟨fun d hcomplete => ?_, fun hincomplete => ?_⟩
  · simp only [Except.mapError, bind, Except.bind, decode_of_complete h hcomplete]
  · simp only [Except.mapError, bind, Except.bind, decode_of_incomplete h hincomplete]

end

/-- Members in another order, with unknown ones among them. -/
def shuffled : List DatabaseMember :=
  [.other "z", .classes ["😀"], .other "z", .methods [.onClick []]]

/-- The members stand in the text as `"z":[{}],"\u0063lasses":["\ud83D\uDE00"],"z":-0` and, after a
new line, `,"external_methods":{"onClick":[]}`. -/
theorem exists_separated_shuffled : ∃ s, Separated DatabaseMember.Spells shuffled s := by
  have hlower : ∀ d < 16, IsHexDigit d (byte (Nat.digitChar d)) := fun d hd => ⟨hd, .inl rfl⟩
  have hupper : ∀ d < 16, IsHexDigit d (byte (Nat.digitChar d).toUpper) :=
    fun d hd => ⟨hd, .inr rfl⟩
  have hc : SpellsChar 'c' _ := .number (.intro (hlower 0 (by decide)) (hlower 0 (by decide))
    (hlower 6 (by decide)) (hlower 3 (by decide)))
  have hface : SpellsChar '😀' _ := @SpellsChar.pair '😀' 0xD83D 0xDE00 _ _ (by decide) (by decide)
    (by decide) (.intro (hlower 13 (by decide)) (hlower 8 (by decide)) (hlower 3 (by decide))
      (hupper 13 (by decide))) (.intro (hupper 13 (by decide)) (hupper 14 (by decide))
      (hlower 0 (by decide)) (hlower 0 (by decide)))
  have hlasses : SpellsText "lasses".toList _ := spellsText_encode (forall_mem_of_all (by decide))
  have hz : SpellsString "z" _ := .intro (spellsText_encode (forall_mem_of_all (by decide)))
  have houter : SpellsString "external_methods" _ :=
    .intro (spellsText_encode (forall_mem_of_all (by decide)))
  have hinner : SpellsString "onClick" _ :=
    .intro (spellsText_encode (forall_mem_of_all (by decide)))
  have hnested : IsValue _ := .nested (.last .array isBlank_nil
    (@IsPart.empty .object [] isBlank_nil) isBlank_nil)
  have hnumber : IsValue _ := .scalar (.number (.intro (.inr rfl) .zero .none .none))
  have hclasses : SpellsNames ["😀"] _ :=
    .items (.last isBlank_nil (.intro (.cons hface .nil)) isBlank_nil)
  have hhandlers : SpellsNames [] _ := .empty isBlank_nil
  have hmethods : Enclosed .object MethodMember.Spells [.onClick []] _ :=
    .items (.last isBlank_nil (.intro hinner isBlank_nil isBlank_nil hhandlers) isBlank_nil)
  exact ⟨_, .more isBlank_nil (.intro hz isBlank_nil isBlank_nil hnested) isBlank_nil
    (.more isBlank_nil (.intro (.intro (.cons hc hlasses)) isBlank_nil isBlank_nil hclasses)
      isBlank_nil
    (.more isBlank_nil (.intro hz isBlank_nil isBlank_nil hnumber) (isBlank_newline 0 0)
    (.last isBlank_nil (.intro houter isBlank_nil isBlank_nil hmethods) isBlank_nil)))⟩

/-- With one more member, even of a value that is no array, the classes are there twice. -/
theorem load_of_spelled_shuffled :
    ∃ (t u : FileTree) (text text' : List UInt8),
      t.read "out.json" = .ok text ∧ SpellsMembers shuffled text ∧
        Complete shuffled ⟨[], ["😀"]⟩ ∧ load t "out.json" = .ok ⟨[], ["😀"]⟩ ∧
      u.read "out.json" = .ok text' ∧ SpellsMembers (.other "classes" :: shuffled) text' ∧
        Incomplete (.other "classes" :: shuffled) ∧
        load u "out.json" = .error (.content .malformed) := by
  obtain ⟨s, hs⟩ := exists_separated_shuffled
  have hkey : SpellsString "classes" _ :=
    .intro (spellsText_encode (forall_mem_of_all (by decide)))
  have hnull : IsValue _ := .scalar (@IsScalar.word "null".toList (by simp))
  have htext : SpellsMembers shuffled _ := .intro isBlank_space (.items hs) isBlank_nil
  have htext' : SpellsMembers (.other "classes" :: shuffled) _ :=
    .intro isBlank_nil (.items (.more isBlank_nil
      (.intro hkey isBlank_nil isBlank_nil hnull) isBlank_nil hs)) isBlank_nil
  have hcomplete : Complete shuffled ⟨[], ["😀"]⟩ := ⟨⟨[.onClick []], rfl, rfl⟩, rfl⟩
  have hincomplete : Incomplete (.other "classes" :: shuffled) := .classes (by decide)
  obtain ⟨t, ht⟩ := exists_write_outJson ([byte ' '] ++ (Bracket.object.opening ::
    (s ++ [Bracket.object.closing]) ++ []))
  obtain ⟨u, hu⟩ := exists_write_outJson _
  have hread := FileTree.read_of_write ht
  have hread' := FileTree.read_of_write hu
  exact ⟨t, u, _, _, hread, htext, hcomplete, (load_of_spelled hread htext).1 _ hcomplete, hread',
    htext', hincomplete, (load_of_spelled hread' htext').2 hincomplete⟩

end LayoutShell.Layout.Database
