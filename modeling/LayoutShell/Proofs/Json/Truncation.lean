import LayoutShell.Proofs.Json.Strings

/-!
# JSON text that is cut short

A reader that is given only the beginning of a text either says that the text ends too early, or it
has read all it wants before the cut. It never finds the beginning wrong in itself if the whole text
is right.

* `AtCut` compares what is read from a beginning with what is read from the whole text, and
  `AtCut.bind` goes from one reader to the next.
* `expect_cut`, `readEscape_cut`, `readBytes_cut` and `readText_cut` are this for the parts of a
  string: a cut inside an escape or inside a character is a cut before the closing quote.
-/

namespace LayoutShell.Json

open Text

/-- If the whole text is read with the result `b`, its beginning is found to end too early or has a
result that belongs to `b`. -/
def AtCut {α β : Type} (R : α → β → Prop) (beginning : Except Failure α)
    (whole : Except Failure β) : Prop :=
  ∀ b, whole = .ok b → beginning = .error .truncated ∨ ∃ a, beginning = .ok a ∧ R a b

namespace AtCut

variable {α β γ δ : Type} {R : α → β → Prop} {S : γ → δ → Prop} {x x' : Except Failure α}
  {y y' : Except Failure β}

theorem truncated : AtCut R (.error .truncated) y := fun _ _ => .inl rfl

theorem error {e : Failure} : AtCut R x (.error e) := fun _ h => nomatch h

theorem ok {a : α} {b : β} (h : R a b) : AtCut R (.ok a) (.ok b) := by
  rintro _ ⟨⟩
  exact .inr ⟨a, rfl, h⟩

/-- One reader after another. -/
theorem bind (h : AtCut R x y) {f : α → Except Failure γ} {g : β → Except Failure δ}
    (hfg : ∀ a b, x = .ok a → R a b → AtCut S (f a) (g b)) : AtCut S (x >>= f) (y >>= g) := by
  intro d hd
  obtain ⟨b, hb, hd⟩ := bind_eq_ok_iff.1 hd
  rcases h b hb with rfl | ⟨a, rfl, hab⟩
  · exact .inl rfl
  · exact hfg a b rfl hab d hd

/-- A reader after one that has a known result on the whole text. -/
theorem bind_ok {b : β} (h : AtCut R x (.ok b)) {f : α → Except Failure γ} {z : Except Failure δ}
    (hf : ∀ a, R a b → AtCut S (f a) z) : AtCut S (x >>= f) z := by
  rcases h b rfl with rfl | ⟨a, rfl, hab⟩
  · exact truncated
  · exact hf a hab

theorem map (h : AtCut R x y) {f : α → γ} {g : β → δ} (hfg : ∀ a b, R a b → S (f a) (g b)) :
    AtCut S (x.map f) (y.map g) := by
  intro d hd
  obtain ⟨b, hb, rfl⟩ := map_eq_ok_iff.1 hd
  rcases h b hb with rfl | ⟨a, rfl, hab⟩
  · exact .inl rfl
  · exact .inr ⟨f a, rfl, hfg a b hab⟩

theorem ite {c : Prop} [Decidable c] (h : AtCut R x y) (h' : AtCut R x' y') :
    AtCut R (if c then x else x') (if c then y else y') := by
  split
  · exact h
  · exact h'

end AtCut

/-- The same was read before the cut, and the whole text goes on with `q` after it. -/
structure Before {α : Type} (q : List UInt8) (a b : α × List UInt8) : Prop where
  value : a.1 = b.1
  rest : a.2 ++ q = b.2

theorem Before.of_append {α : Type} (q : List UInt8) (value : α) (rest : List UInt8) :
    Before q (value, rest) (value, rest ++ q) := ⟨rfl, rfl⟩

/-! ## Escapes -/

section

variable (p q : List UInt8)

theorem expect_cut (b : UInt8) :
    AtCut (fun r s => r ++ q = s) (expect b p) (expect b (p ++ q)) := by
  cases p with
  | nil => exact .truncated
  | cons c p => exact .ite (.ok rfl) .error

theorem readHex4_cut : AtCut (Before q) (readHex4 p) (readHex4 (p ++ q)) := by
  match p with
  | [] | [_] | [_, _] | [_, _, _] => exact .truncated
  | b₁ :: b₂ :: b₃ :: b₄ :: p =>
    simp only [List.cons_append, readHex4]
    split
    · exact .ok (.of_append q _ p)
    · exact .error

theorem readUnicode_cut : AtCut (Before q) (readUnicode p) (readUnicode (p ++ q)) := by
  refine (readHex4_cut p q).bind ?_
  rintro ⟨high, r⟩ ⟨_, _⟩ - ⟨rfl, rfl⟩
  refine .ite .error (.ite (.ok (.of_append q _ r)) ((expect_cut r q _).bind ?_))
  rintro r _ - rfl
  refine (expect_cut r q _).bind ?_
  rintro r _ - rfl
  refine (readHex4_cut r q).bind ?_
  rintro ⟨low, r⟩ ⟨_, _⟩ - ⟨rfl, rfl⟩
  exact .ite (.ok (.of_append q _ r)) .error

theorem readEscape_cut : AtCut (Before q) (readEscape p) (readEscape (p ++ q)) := by
  cases p with
  | nil => exact .truncated
  | cons b p =>
    rw [List.cons_append, readEscape, readEscape]
    cases shortEscape? b with
    | some c => exact .ok (.of_append q c p)
    | none => exact .ite (readUnicode_cut p q) .error

/-! ## Strings -/

theorem readBytes_cons (b : UInt8) (s : List UInt8) :
    readBytes (b :: s) =
      if b = byte '"' then .ok ([], s)
      else if b = byte '\\' then
        readEscape s >>= fun a =>
          (readBytes a.2).map fun (bytes, rest) => (encodeChar a.1 ++ bytes, rest)
      else if b < 0x20 then .error .malformed
      else (readBytes s).map fun (bytes, rest) => (b :: bytes, rest) := by
  rw [readBytes]
  split
  · rfl
  split
  · cases readEscape s <;> rfl
  · rfl

theorem readBytes_cut (p q : List UInt8) :
    AtCut (Before q) (readBytes p) (readBytes (p ++ q)) := by
  cases p with
  | nil =>
    rw [readBytes]
    exact .truncated
  | cons b s =>
    rw [List.cons_append, readBytes_cons, readBytes_cons]
    refine .ite (.ok (.of_append q [] s)) (.ite ?_ (.ite .error ?_))
    · refine (readEscape_cut s q).bind ?_
      rintro ⟨c, r⟩ ⟨_, _⟩ hescape ⟨rfl, rfl⟩
      have := length_of_readEscape hescape
      refine (readBytes_cut r q).map ?_
      rintro ⟨bytes, r⟩ ⟨_, _⟩ ⟨rfl, rfl⟩
      exact .of_append q _ r
    · refine (readBytes_cut s q).map ?_
      rintro ⟨bytes, r⟩ ⟨_, _⟩ ⟨rfl, rfl⟩
      exact .of_append q _ r
termination_by p.length

theorem readText_cut : AtCut (Before q) (readText p) (readText (p ++ q)) := by
  refine (readBytes_cut p q).bind ?_
  rintro ⟨bytes, r⟩ ⟨_, _⟩ - ⟨rfl, rfl⟩
  dsimp only
  cases decode bytes with
  | some text => exact .ok (.of_append q text r)
  | none => exact .error

end

end LayoutShell.Json
