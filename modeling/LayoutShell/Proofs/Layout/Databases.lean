import LayoutShell.Layout.Database
import LayoutShell.Proofs.Files.Writing
import LayoutShell.Proofs.Json.Syntax

/-!
# Layout databases there and back

The text of a database is an object of two members on indented lines. White space between its parts
is skipped, so each part is read back from the bytes where it stands.

* `Lead` is what comes before an item; `nextItem_append` and `nextKey_append` go to the item.
* `readNames_append` and `readMethods_append` read the two members back, whatever follows.
* `decode_encode_render`: the text of a database decodes to the database.
* `load_of_save`: a database that was saved is loaded again.
* `render_readBack`: nothing is lost on the way to the text or to the file.
-/

namespace LayoutShell.Layout.Database

open Files Json Text Value

/-- What comes before the white space in front of an item: nothing at the first one, else a comma
that may follow white space. -/
inductive Lead : Bool → List UInt8 → Prop
  | first : Lead true []
  | next {ws : List UInt8} (hws : IsBlank ws) : Lead false (ws ++ [byte ','])

section

variable {first : Bool} {lead ws : List UInt8} (hws : IsBlank ws) (rest : List UInt8)

/-! ## Arrays of strings -/

theorem nextItem_append (hlead : Lead first lead) (hws : IsBlank ws) {b : UInt8} (hb : Begins b)
    (t : List UInt8) : nextItem first (lead ++ (ws ++ b :: t)) = .ok (some (b :: t)) := by
  cases hlead with
  | first =>
    rw [List.nil_append, nextItem, skipBlank_append_cons hws hb.notBlank]
    exact (if_neg hb.notClosing).trans (if_pos rfl)
  | next hws' =>
    rw [List.append_assoc, List.singleton_append, nextItem,
      skipBlank_append_cons hws' (by decide)]
    dsimp only
    rw [skipBlank_append_cons hws hb.notBlank]
    exact (if_neg (by decide)).trans ((if_neg (by decide)).trans ((if_pos rfl).trans
      (if_neg hb.notClosing)))

theorem begins_quote : Begins (byte '"') := ⟨by decide, by decide⟩

include hws

theorem nextItem_end (first : Bool) : nextItem first (ws ++ byte ']' :: rest) = .ok none := by
  rw [nextItem, skipBlank_append_cons hws (by decide)]
  exact if_pos rfl

theorem endArray_append : endArray (ws ++ byte ']' :: rest) = .ok rest := by
  rw [endArray, skipBlank_append_cons hws (by decide), expect, if_pos rfl]

omit hws

theorem readString_renderString (name : String) :
    readString (encode (renderString name) ++ rest) = .ok (name, rest) := by
  rw [encode_renderString, List.cons_append, List.append_assoc, readString,
    skipBlank_cons (by decide)]
  show (if _ then _ else _) = _
  rw [if_pos rfl, List.singleton_append, readText_flatMap_escapeChar]
  simp [Except.map]

end

/-- The bytes of the strings of an array after the first one. -/
def moreItems (width depth : Nat) (names : List String) : List UInt8 :=
  names.flatMap fun name =>
    byte ',' :: (encode (newline width depth) ++ encode (renderString name))

theorem length_moreItems (width depth : Nat) (names : List String) :
    names.length ≤ (moreItems width depth names).length := by
  induction names with
  | nil => exact Nat.zero_le _
  | cons name names ih =>
    rw [moreItems, List.flatMap_cons, List.length_append, ← moreItems, List.length_cons,
      List.length_cons]
    omega

theorem readStrings_end {ws : List UInt8} (hws : IsBlank ws) (fuel : Nat) (first : Bool)
    (rest : List UInt8) :
    readStrings (fuel + 1) first (ws ++ byte ']' :: rest) = .ok ([], rest) := by
  rw [readStrings, nextItem_end hws]
  show (endArray _ >>= _) = _
  rw [endArray_append hws]
  rfl

theorem readStrings_item {fuel : Nat} {first : Bool} {name : String} {names : List String}
    {s t rest rest' : List UInt8} (hitem : nextItem first s = .ok (some t))
    (hname : readString t = .ok (name, rest))
    (hrest : readStrings fuel false rest = .ok (names, rest')) :
    readStrings (fuel + 1) first s = .ok (name :: names, rest') := by
  rw [readStrings, hitem]
  show (readString _ >>= _) = _
  rw [hname]
  show (readStrings fuel false rest >>= _) = _
  rw [hrest]
  rfl

theorem readStrings_moreItems (width depth : Nat) {ws : List UInt8} (hws : IsBlank ws)
    (names : List String) (rest : List UInt8) {fuel : Nat} (hfuel : names.length < fuel) :
    readStrings fuel false (moreItems width depth names ++ (ws ++ byte ']' :: rest)) =
      .ok (names, rest) := by
  induction names generalizing fuel with
  | nil =>
    obtain ⟨fuel, rfl⟩ := Nat.exists_eq_add_of_lt hfuel
    exact readStrings_end hws _ false rest
  | cons name names ih =>
    obtain ⟨fuel, rfl⟩ := Nat.exists_eq_add_of_lt hfuel
    have hbytes : moreItems width depth (name :: names) ++ (ws ++ byte ']' :: rest) =
        byte ',' :: (encode (newline width depth) ++ (encode (renderString name) ++
          (moreItems width depth names ++ (ws ++ byte ']' :: rest)))) := by
      simp [moreItems]
    refine readStrings_item ?_ (readString_renderString _ name)
      (ih (by rw [List.length_cons]; omega))
    rw [hbytes, encode_renderString, List.cons_append]
    exact nextItem_append (.next isBlank_nil) (isBlank_newline width depth) begins_quote _

/-- Lines are a first one and others after commas. -/
theorem lines_cons (width depth : Nat) (t : List Char) (ts : List (List Char)) :
    lines width depth (t :: ts) =
      newline width depth ++ t ++ ts.flatMap fun t => ',' :: (newline width depth ++ t) := by
  induction ts generalizing t with
  | nil => rw [lines, List.flatMap_nil, List.append_nil]
  | cons u ts ih =>
    rw [lines, ih, List.flatMap_cons, List.cons_append]
    exact List.cons_ne_nil u ts

/-- The text of an array of strings. -/
def namesText (width depth : Nat) (names : List String) : List Char :=
  bracketed width depth '[' ']' (names.map renderString)

theorem encode_namesText_cons (width depth : Nat) (name : String) (names : List String)
    (rest : List UInt8) :
    encode (namesText width depth (name :: names)) ++ rest =
      byte '[' :: (encode (newline width (depth + 1)) ++ (encode (renderString name) ++
        (moreItems width (depth + 1) names ++
          (encode (newline width depth) ++ byte ']' :: rest)))) := by
  have hmore : encode (names.flatMap fun name =>
      ',' :: (newline width (depth + 1) ++ renderString name)) =
        moreItems width (depth + 1) names := by
    induction names with
    | nil => rfl
    | cons name names ih =>
      rw [List.flatMap_cons, encode_append, ih, encode_cons, encodeChar_eq_byte (by decide),
        encode_append]
      rfl
  rw [namesText, bracketed, if_neg (by simp), List.map_cons, lines_cons, List.flatMap_map]
  simp only [List.cons_append, encode_cons, encode_append, encode_nil, hmore, List.append_assoc,
    encodeChar_eq_byte (show '['.toNat < 0x80 by decide),
    encodeChar_eq_byte (show ']'.toNat < 0x80 by decide), List.nil_append]

/-- **An array of strings is read back, whatever follows.** -/
theorem readNames_append (width depth : Nat) (names : List String) (rest : List UInt8) :
    readNames (encode (namesText width depth names) ++ rest) = .ok (names, rest) := by
  cases names with
  | nil =>
    have hbytes : encode (namesText width depth []) ++ rest = byte '[' :: byte ']' :: rest := rfl
    rw [hbytes, readNames, skipBlank_cons (by decide)]
    exact (if_pos rfl).trans (readStrings_end isBlank_nil _ true rest)
  | cons name names =>
    rw [encode_namesText_cons, readNames, skipBlank_cons (by decide)]
    refine (if_pos rfl).trans (readStrings_item ?_ (readString_renderString _ name)
      (readStrings_moreItems width (depth + 1) (isBlank_newline width depth) names rest ?_))
    · rw [encode_renderString, List.cons_append]
      exact nextItem_append .first (isBlank_newline width (depth + 1)) begins_quote _
    · have := length_moreItems width (depth + 1) names
      simp only [List.length_append, List.length_cons]
      omega

/-! ## Objects -/

theorem nextKey_end {ws : List UInt8} (hws : IsBlank ws) (first : Bool) (rest : List UInt8) :
    nextKey first (ws ++ byte '\x7d' :: rest) = .ok none := by
  rw [nextKey, skipBlank_append_cons hws (by decide)]
  exact if_pos rfl

section

variable {first : Bool} {lead ws : List UInt8}

theorem nextKey_append (hlead : Lead first lead) (hws : IsBlank ws) (t : List UInt8) :
    nextKey first (lead ++ (ws ++ byte '"' :: t)) =
      (readText t).map fun a => some (String.ofList a.1, a.2) := by
  cases hlead with
  | first =>
    rw [List.nil_append, nextKey, skipBlank_append_cons hws (by decide)]
    show (readText t >>= _) = _
    cases readText t <;> rfl
  | next hws' =>
    rw [List.append_assoc, List.singleton_append, nextKey, skipBlank_append_cons hws' (by decide)]
    show (expect _ (skipBlank _) >>= _) = _
    rw [skipBlank_append_cons hws (by decide)]
    show (readText t >>= _) = _
    cases readText t <;> rfl

theorem nextKey_renderString (hlead : Lead first lead) (hws : IsBlank ws) (key : String)
    (rest : List UInt8) :
    nextKey first (lead ++ (ws ++ (encode (renderString key) ++ rest))) =
      .ok (some (key, rest)) := by
  rw [encode_renderString_append, nextKey_append hlead hws, readText_flatMap_escapeChar]
  simp [Except.map]

theorem nextKey_first (hws : IsBlank ws) (key : String) (rest : List UInt8) :
    nextKey true (ws ++ (encode (renderString key) ++ rest)) = .ok (some (key, rest)) :=
  nextKey_renderString .first hws key rest

theorem nextKey_next (hws : IsBlank ws) (key : String) (rest : List UInt8) :
    nextKey false (byte ',' :: (ws ++ (encode (renderString key) ++ rest))) =
      .ok (some (key, rest)) :=
  nextKey_renderString (.next isBlank_nil) hws key rest

variable {α : Type} {read : List UInt8 → Except Failure (α × List UInt8)} {s rest : List UInt8}

theorem valueOf_append (hws : IsBlank ws) : valueOf read (ws ++ byte ':' :: s) = read s := by
  rw [valueOf, skipBlank_append_cons hws (by decide), expect, if_pos rfl]
  rfl

theorem memberOf_append (hws : IsBlank ws) :
    memberOf none read (ws ++ byte ':' :: s) = (read s).map fun a => (some a.1, a.2) := by
  rw [memberOf, valueOf_append hws]

/-- The value of a member follows its colon. -/
theorem memberOf_none {value : α} (h : read s = .ok (value, rest)) :
    memberOf none read (byte ':' :: s) = .ok (some value, rest) := by
  refine (memberOf_append isBlank_nil).trans ?_
  rw [h]
  rfl

end

theorem readNames_blank {ws : List UInt8} (hws : IsBlank ws) (s : List UInt8) :
    readNames (ws ++ s) = readNames s := by
  rw [readNames, skipBlank_append hws, ← readNames]

theorem readMethods_blank {ws : List UInt8} (hws : IsBlank ws) (s : List UInt8) :
    readMethods (ws ++ s) = readMethods s := by
  rw [readMethods, skipBlank_append hws, ← readMethods]

/-- The text of a member. -/
def memberText (key : String) (value : List Char) : List Char :=
  renderString key ++ ':' :: ' ' :: value

theorem encode_memberText (key : String) (value : List Char) (rest : List UInt8) :
    encode (memberText key value) ++ rest =
      encode (renderString key) ++ byte ':' :: ([byte ' '] ++ (encode value ++ rest)) := by
  rw [memberText, encode_append, encode_cons, encode_cons, encodeChar_eq_byte (by decide),
    encodeChar_eq_byte (by decide)]
  simp

/-- The text of the handlers. -/
def methodsText (width depth : Nat) (handlers : List String) : List Char :=
  bracketed width depth '\x7b' '\x7d'
    [memberText "onClick" (namesText width (depth + 1) handlers)]

theorem encode_methodsText (width depth : Nat) (handlers : List String) (rest : List UInt8) :
    encode (methodsText width depth handlers) ++ rest =
      byte '\x7b' :: (encode (newline width (depth + 1)) ++
        (encode (renderString "onClick") ++ byte ':' :: ([byte ' '] ++
          (encode (namesText width (depth + 1) handlers) ++
            (encode (newline width depth) ++ byte '\x7d' :: rest))))) := by
  rw [methodsText, bracketed, if_neg (by simp), lines]
  simp only [List.cons_append, encode_cons, encode_append, encode_nil, List.append_assoc,
    encodeChar_eq_byte (show '\x7b'.toNat < 0x80 by decide),
    encodeChar_eq_byte (show '\x7d'.toNat < 0x80 by decide), List.nil_append, encode_memberText]

theorem readMethodMembers_end {ws : List UInt8} (hws : IsBlank ws) (fuel : Nat) (first : Bool)
    (handlers : List String) (rest : List UInt8) :
    readMethodMembers (fuel + 1) first (some handlers) (ws ++ byte '\x7d' :: rest) =
      .ok (handlers, rest) := by
  rw [readMethodMembers, nextKey_end hws]
  show (expect _ (skipBlank _) >>= _) = _
  rw [skipBlank_append_cons hws (by decide), expect, if_pos rfl]
  rfl

theorem readMethodMembers_onClick {fuel : Nat} {first : Bool} {handlers : List String}
    {s rest rest' : List UInt8} {result : List String × List UInt8}
    (hkey : nextKey first s = .ok (some ("onClick", byte ':' :: rest)))
    (hvalue : readNames rest = .ok (handlers, rest'))
    (hrest : readMethodMembers fuel false (some handlers) rest' = .ok result) :
    readMethodMembers (fuel + 1) first none s = .ok result := by
  rw [readMethodMembers, hkey]
  simp only [bind, Except.bind, if_true, memberOf_none hvalue, hrest]

/-- **The handlers are read back, whatever follows.** -/
theorem readMethods_append (width depth : Nat) (handlers : List String) (rest : List UInt8) :
    readMethods (encode (methodsText width depth handlers) ++ rest) = .ok (handlers, rest) := by
  rw [encode_methodsText, readMethods, skipBlank_cons (by decide)]
  refine (if_neg (by decide)).trans ((if_pos rfl).trans ?_)
  obtain ⟨fuel, hfuel⟩ : ∃ fuel, (encode (newline width (depth + 1)) ++
      (encode (renderString "onClick") ++ byte ':' :: ([byte ' '] ++
        (encode (namesText width (depth + 1) handlers) ++
          (encode (newline width depth) ++ byte '\x7d' :: rest))))).length = fuel + 1 :=
    ⟨_, by simp only [List.length_append, List.length_cons, ← Nat.add_assoc]; rfl⟩
  rw [hfuel]
  refine readMethodMembers_onClick (nextKey_first (isBlank_newline width (depth + 1)) _ _) ?_
    (readMethodMembers_end (isBlank_newline width depth) fuel false handlers rest)
  rw [readNames_blank isBlank_space, readNames_append]

/-! ## Databases -/

theorem prettyItems_string (width depth : Nat) (names : List String) :
    prettyItems width depth (names.map .string) = names.map renderString := by
  induction names with
  | nil => rfl
  | cons name names ih => rw [List.map_cons, prettyItems, ih, prettyAt, List.map_cons]

theorem prettyAt_toValue (d : Database) (width : Nat) :
    d.toValue.prettyAt width 0 = bracketed width 0 '\x7b' '\x7d'
      [memberText "external_methods" (methodsText width 1 d.handlers),
        memberText "classes" (namesText width 1 d.classes)] := by
  simp only [toValue, prettyAt, prettyMembers, prettyItems_string]
  rfl

theorem encode_prettyAt (d : Database) (width : Nat) :
    encode (d.toValue.prettyAt width 0) =
      byte '\x7b' :: (encode (newline width 1) ++
        (encode (renderString "external_methods") ++ byte ':' :: ([byte ' '] ++
          (encode (methodsText width 1 d.handlers) ++ byte ',' :: (encode (newline width 1) ++
            (encode (renderString "classes") ++ byte ':' :: ([byte ' '] ++
              (encode (namesText width 1 d.classes) ++
                (encode (newline width 0) ++ [byte '\x7d']))))))))) := by
  have hfirst := encode_memberText "external_methods" (methodsText width 1 d.handlers)
  have hsecond := encode_memberText "classes" (namesText width 1 d.classes)
  rw [prettyAt_toValue, bracketed, if_neg (by simp), lines, lines]
  · simp only [List.cons_append, encode_cons, encode_append, encode_nil, List.append_assoc,
      encodeChar_eq_byte (show '\x7b'.toNat < 0x80 by decide),
      encodeChar_eq_byte (show '\x7d'.toNat < 0x80 by decide),
      encodeChar_eq_byte (show ','.toNat < 0x80 by decide), List.nil_append, List.append_nil,
      hfirst, hsecond]
  · simp

section

variable {fuel : Nat} {first : Bool} {names : List String} {old : Option (List String)}
  {s rest rest' : List UInt8} {result : Database × List UInt8}

theorem readMembers_methods
    (hkey : nextKey first s = .ok (some ("external_methods", byte ':' :: rest)))
    (hvalue : readMethods rest = .ok (names, rest'))
    (hrest : readMembers fuel false (some names) old rest' = .ok result) :
    readMembers (fuel + 1) first none old s = .ok result := by
  rw [readMembers.eq_def]
  simp only [hkey, bind, Except.bind, if_true, memberOf_none hvalue, hrest]

theorem readMembers_classes
    (hkey : nextKey first s = .ok (some ("classes", byte ':' :: rest)))
    (hvalue : readNames rest = .ok (names, rest'))
    (hrest : readMembers fuel false old (some names) rest' = .ok result) :
    readMembers (fuel + 1) first old none s = .ok result := by
  have hne : ¬"classes" = "external_methods" := by decide
  rw [readMembers.eq_def]
  simp only [hkey, bind, Except.bind, if_neg hne, if_true, memberOf_none hvalue, hrest]

theorem readMembers_end {ws : List UInt8} (hws : IsBlank ws) (handlers classes : List String) :
    readMembers (fuel + 1) first (some handlers) (some classes) (ws ++ byte '\x7d' :: rest) =
      .ok (⟨handlers, classes⟩, rest) := by
  rw [readMembers, nextKey_end hws]
  show (expect _ (skipBlank _) >>= _) = _
  rw [skipBlank_append_cons hws (by decide), expect, if_pos rfl]
  rfl

end

/-- **The text of a database decodes to the database.** -/
theorem decode_encode_render (d : Database) : decode (encode d.render.toList) = .ok d := by
  have hread : readDatabase (encode (d.toValue.prettyAt 4 0)) = .ok (d, []) := by
    rw [encode_prettyAt, readDatabase, skipBlank_cons (by decide)]
    refine (if_neg (by decide)).trans ((if_pos rfl).trans ?_)
    -- the members of the object are read in turn, and the length of the text is fuel enough
    generalize hs : encode (newline 4 1) ++ _ = s
    obtain ⟨fuel, hfuel⟩ : ∃ fuel, s.length = fuel + 2 := by
      refine ⟨s.length - 2, (Nat.sub_add_cancel ?_).symm⟩
      rw [← hs]
      simp only [List.length_append, List.length_cons]
      omega
    rw [hfuel, ← hs]
    refine readMembers_methods (nextKey_first (isBlank_newline 4 1) _ _)
      (by rw [readMethods_blank isBlank_space, readMethods_append]) ?_
    refine readMembers_classes (nextKey_next (isBlank_newline 4 1) _ _)
      (by rw [readNames_blank isBlank_space, readNames_append]) ?_
    exact readMembers_end (isBlank_newline 4 0) d.handlers d.classes
  rw [render, pretty, String.toList_ofList, decode, hread]
  rfl

theorem load_of_save {d : Database} {t t' : FileTree} {path : String}
    (h : d.save t path = .ok t') : load t' path = .ok d := by
  rw [load, FileTree.read_of_write h]
  simp only [Except.mapError, bind, Except.bind, decode_encode_render]

/-- **A database is given back by its text and by its file.** The file holds the bytes of the text
and nothing else, and databases with the same text are the same. -/
theorem render_readBack (d : Database) :
    decode (encode d.render.toList) = .ok d ∧
      (∀ (t t' : FileTree) (path : String), d.save t path = .ok t' →
        t'.read path = .ok (encode d.render.toList) ∧ load t' path = .ok d) ∧
      ∀ d' : Database, d'.render = d.render → d' = d := by
  refine ⟨decode_encode_render d, fun t t' path h => ⟨?_, load_of_save h⟩, fun d' h => ?_⟩
  · exact FileTree.read_of_write h
  · have hdecode := decode_encode_render d'
    rw [h, decode_encode_render d] at hdecode
    exact (Except.ok.inj hdecode).symm

/-- A file with any content, for examples. -/
theorem exists_write_outJson (content : List UInt8) :
    ∃ t, FileTree.empty.write "out.json" content = .ok t :=
  FileTree.exists_write_empty (by decide) (by decide) rfl (by decide) content

/-- Names that need every kind of escape, in no order and with repetitions. -/
def unruly : Database where
  handlers := ["", "say \"hi\"", "C:\\tmp", "\x00\x1f\x08\n\t\x7f", "😀é"]
  classes := ["b", "a", "b"]

theorem render_readBack_unruly :
    ∃ t', unruly.save FileTree.empty "out.json" = .ok t' ∧
      t'.read "out.json" = .ok (encode unruly.render.toList) ∧ load t' "out.json" = .ok unruly := by
  have hsteps : Path.steps "out.json" = [] ++ ["out.json"] ∧
      Path.endsInSlash "out.json" = false := by decide
  have hdestination : FileTree.empty.destination "out.json" = .ok ["out.json"] :=
    FileTree.destination_of_leads (by decide) hsteps rfl rfl (by decide) nofun
  have hsave : unruly.save FileTree.empty "out.json" = _ :=
    FileTree.write_of_destination hdestination _
  exact ⟨_, hsave, (render_readBack unruly).2.1 _ _ _ hsave⟩

end LayoutShell.Layout.Database
