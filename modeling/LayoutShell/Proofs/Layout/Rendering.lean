import LayoutShell.Layout.References
import LayoutShell.Proofs.Markup.Tree
import LayoutShell.Proofs.Results

/-!
# The text of a tree as a layout

Reading the text of a tree front to back does the same as walking over the tree.

* `walk` adds the references of a tree, element by element.
* `resume_children`: inside an element the reader takes the text of a row of trees off the document
  and does what a walk over them does.
* `parse_render`: parsing the text of a tree is walking over the tree.
-/

namespace LayoutShell.Layout

open Markup

/-! ## Walking over a tree -/

/-- The element of a tag in the given bindings. -/
def tagElement (scope : Scope) (tag : Name) (items : List Item) : Except LayoutError Element :=
  (Reader.element scope (tagText tag items)).mapError fun e => .unreadable (.binding e)

mutual

/-- Adds the references of a tree that stands in the given bindings. -/
def walk (scope : Scope) (r : References) : Node → Except LayoutError References
  | .text _ => .ok r
  | .element tag items _ children => do
    let e ← tagElement scope tag items
    walkAll e.scope (← addElement r e) children

/-- Adds the references of trees in a row. -/
def walkAll (scope : Scope) (r : References) : List Node → Except LayoutError References
  | [] => .ok r
  | node :: nodes => do walkAll scope (← walk scope r node) nodes

end

/-! ## Reading on -/

namespace Progress

/-- The progress after lexemes, read with the given elements open. -/
def proceed (p : Progress) (reader : Reader) (lexemes : List (Except Fault Lexeme)) :
    Except LayoutError Progress :=
  p.run (Event.ofLexemes reader lexemes)

/-- The progress after the rest of a document. -/
def resume (p : Progress) (reader : Reader) (s : List Char) : Except LayoutError Progress :=
  p.run (Event.ofLexemes reader (Lexeme.scan s))

variable {p : Progress} {reader reader' : Reader} {s t rest : List Char} {l : Lexeme}
  {xs : List (Except Fault Lexeme)}

theorem proceed_of_step {event : Event} (h : reader.step l = .ok (event, reader')) :
    p.proceed reader (.ok l :: xs) = (p.step event >>= fun q => q.proceed reader' xs) := by
  rw [proceed, Event.ofLexemes, h]
  rfl

theorem proceed_of_error {e : ReadError} (h : reader.step l = .error e) :
    p.proceed reader (.ok l :: xs) = .error (.unreadable e) := by
  rw [proceed, Event.ofLexemes, h]
  rfl

theorem resume_congr (h : Lexeme.read s = Lexeme.read t) :
    p.resume reader s = p.resume reader t := by
  rw [resume, resume, Lexeme.scan_congr h]

theorem resume_of_step {event : Event} (h : Lexeme.read s = .found l rest)
    (hs : reader.step l = .ok (event, reader')) :
    p.resume reader s = (p.step event >>= fun q => q.resume reader' rest) := by
  rw [resume, Lexeme.scan_of_read h]
  exact proceed_of_step hs

theorem resume_of_error {e : ReadError} (h : Lexeme.read s = .found l rest)
    (hs : reader.step l = .error e) : p.resume reader s = .error (.unreadable e) := by
  rw [resume, Lexeme.scan_of_read h]
  exact proceed_of_error hs

/-- Inside an element an escaped text changes nothing. -/
theorem resume_escape (hp : 0 < p.depth) (t rest : List Char) :
    p.resume reader (Entity.escape t ++ '<' :: rest) = p.resume reader ('<' :: rest) := by
  rcases read_escape t rest with h | ⟨t', h⟩
  · exact resume_congr h
  · have hstep : p.step (.text (Entity.escape t')) = .ok p := by
      rw [step, Entity.expand_escape]
      exact if_neg fun h => absurd h.1 (by omega)
    rw [resume_of_step h rfl, hstep]
    rfl

theorem resume_emptyTag (p : Progress) (reader : Reader) (tag : Name) (items : List Item)
    (rest : List Char) :
    p.resume reader ('<' :: tagText tag items ++ '/' :: '>' :: rest) =
      (do
        let e ← tagElement reader.scope tag items
        (← p.visit e).resume reader rest) := by
  have hread := read_emptyTag tag items rest
  unfold tagElement
  cases he : Reader.element reader.scope (tagText tag items) with
  | error e => exact resume_of_error hread (Reader.step_emptyTag_of_error he)
  | ok e => exact resume_of_step hread (Reader.step_emptyTag he)

theorem resume_startTag (p : Progress) (reader : Reader) (tag : Name) (items : List Item)
    (rest : List Char) :
    p.resume reader ('<' :: tagText tag items ++ '>' :: rest) =
      (do
        let e ← tagElement reader.scope tag items
        let p ← p.visit e
        { p with depth := p.depth + 1 }.resume (⟨tag.chars, e.scope⟩ :: reader) rest) := by
  have hread := read_startTag tag items rest
  unfold tagElement
  cases he : Reader.element reader.scope (tagText tag items) with
  | error e => exact resume_of_error hread (Reader.step_startTag_of_error he)
  | ok e =>
    have hname : e.name = tag.chars := by
      rw [Element.name, (Reader.element_eq_ok he).1, nameOf_tagText]
    rw [resume_of_step hread (Reader.step_startTag he), hname, step, bind_assoc]
    rfl

/-- The end tag of the innermost element closes it. -/
theorem resume_endTag (depth : Nat) (seen : Bool) (r : References) (tag : Name) (scope : Scope)
    (reader : Reader) (rest : List Char) :
    (Progress.mk (depth + 1) seen r).resume (⟨tag.chars, scope⟩ :: reader)
        ('<' :: '/' :: tag.chars ++ '>' :: rest) =
      (Progress.mk depth seen r).resume reader rest := by
  have hstep : Reader.step (⟨tag.chars, scope⟩ :: reader) (.endTag tag.chars) =
      .ok (.finish, reader) := by
    simp [Reader.step, Reader.endName_chars]
  rw [resume_of_step (read_endTag tag rest) hstep]
  rfl

end Progress

open Progress

/-- An element in the text of a tree, if its children are read as a walk reads them. -/
theorem resume_element {children : List Node}
    (hchildren : ∀ depth r reader rest,
      (Progress.mk (depth + 1) true r).resume reader (Node.renderAll children ++ '<' :: rest) =
        (walkAll reader.scope r children >>= fun r =>
          (Progress.mk (depth + 1) true r).resume reader ('<' :: rest)))
    {p : Progress} (hp : ¬(p.depth = 0 ∧ p.seenRoot = true)) (reader : Reader) (tag : Name)
    (items : List Item) (short : Bool) (rest : List Char) :
    p.resume reader ((Node.element tag items short children).render ++ rest) =
      (walk reader.scope p.found (.element tag items short children) >>= fun r =>
        (Progress.mk p.depth true r).resume reader rest) := by
  have hvisit : ∀ e, p.visit e = (addElement p.found e).map fun r => ⟨p.depth, true, r⟩ := by
    intro e
    rw [visit, if_neg hp]
    cases addElement p.found e <;> rfl
  rw [Node.render, walk]
  split
  · next h =>
    have hnil : children = [] := by simpa using (Bool.and_eq_true_iff.1 h).2
    have htext : '<' :: tagText tag items ++ ['/', '>'] ++ rest =
        '<' :: tagText tag items ++ '/' :: '>' :: rest := by
      simp
    rw [htext, resume_emptyTag]
    cases tagElement reader.scope tag items with
    | error e => rfl
    | ok e =>
      show (p.visit e >>= _) = (addElement p.found e >>= fun r => walkAll e.scope r children) >>= _
      rw [hvisit, hnil]
      cases addElement p.found e <;> rfl
  · have htext : '<' :: tagText tag items ++ '>' ::
        (Node.renderAll children ++ '<' :: '/' :: tag.chars ++ ['>']) ++ rest =
        '<' :: tagText tag items ++ '>' ::
          (Node.renderAll children ++ '<' :: ('/' :: tag.chars ++ '>' :: rest)) := by
      simp
    rw [htext, resume_startTag]
    cases tagElement reader.scope tag items with
    | error e => rfl
    | ok e =>
      show (p.visit e >>= _) = (addElement p.found e >>= fun r => walkAll e.scope r children) >>= _
      rw [hvisit]
      cases addElement p.found e with
      | error f => rfl
      | ok r =>
        show (Progress.mk (p.depth + 1) true r).resume _ _ = walkAll e.scope r children >>= _
        rw [hchildren]
        congr 1
        funext r
        exact resume_endTag ..

/-- Inside an element, the text of trees in a row is read as a walk over them; `t` is a text that
was met before and not yet read. -/
theorem resume_children (nodes : List Node) (t : List Char) (depth : Nat) (r : References)
    (reader : Reader) (rest : List Char) :
    (Progress.mk (depth + 1) true r).resume reader
        (Entity.escape t ++ (Node.renderAll nodes ++ '<' :: rest)) =
      (walkAll reader.scope r nodes >>= fun r =>
        (Progress.mk (depth + 1) true r).resume reader ('<' :: rest)) := by
  match nodes with
  | [] => exact resume_escape (Nat.succ_pos depth) t rest
  | .text content :: nodes =>
    have ih := resume_children nodes (t ++ content) depth r reader rest
    rw [Entity.escape_append, List.append_assoc] at ih
    rw [Node.renderAll, Node.render, List.append_assoc, ih]
    rfl
  | .element tag items short children :: nodes =>
    have hchildren : ∀ depth r reader rest,
        (Progress.mk (depth + 1) true r).resume reader (Node.renderAll children ++ '<' :: rest) =
          (walkAll reader.scope r children >>= fun r =>
            (Progress.mk (depth + 1) true r).resume reader ('<' :: rest)) :=
      resume_children children []
    obtain ⟨s, hs⟩ := Node.render_element tag items short children
    rw [Node.renderAll, walkAll, List.append_assoc, hs, List.cons_append,
      resume_escape (Nat.succ_pos depth), ← List.cons_append, ← hs,
      resume_element hchildren (by simp), bind_assoc]
    congr 1
    funext r
    exact resume_children nodes [] depth r reader rest

/-- **Parsing the text of a tree is walking over the tree.** -/
theorem parse_render (tag : Name) (items : List Item) (short : Bool) (children : List Node) :
    References.parse (Node.element tag items short children).render =
      walk Scope.initial References.empty (.element tag items short children) := by
  have hparse : References.parse (Node.element tag items short children).render =
      (Progress.initial.resume [] (Node.element tag items short children).render >>=
        Progress.finish) := by
    obtain ⟨s, hs⟩ := Node.render_element tag items short children
    rw [hs]
    rfl
  have helement := resume_element (resume_children children []) (p := Progress.initial)
    (by decide) [] tag items short []
  rw [List.append_nil] at helement
  have hend : ∀ r : References,
      ((Progress.mk 0 true r).resume [] [] >>= Progress.finish) = pure r := fun r => by
    rw [resume, Lexeme.scan_of_done rfl]
    rfl
  rw [hparse, helement, bind_assoc]
  exact (bind_congr hend).trans (bind_pure _)

end LayoutShell.Layout
