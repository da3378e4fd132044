import LayoutShell.Session.Dialogue
import Mathlib.Data.List.Forall2

/-!
# Runs of lines

Lines that are executed one after another, whatever they come to, and the lines of a session, which
ends with the first one that fails or leaves.

* `Shell.after` is the state after some lines.
* `Shell.session` lists the outcomes of the lines of a session, and `finalState` is the state that
  they lead to.
* `Dialogue.converse_of_typed`: a dialogue with the user is such a session.
-/

namespace LayoutShell.Session

open Text

/-- What a user sees of a line: what it prints and how it ends. -/
def Outcome.shown (o : Outcome) : List Printed × Except String Flow := (o.printed, o.flow)

namespace Shell

/-- The state after lines that are executed one after another. -/
def after (shell : Shell) (s : State) (lines : List String) : State :=
  lines.foldl (fun s line => (shell.execute s line).state) s

/-- The outcomes of lines up to the first one that fails or leaves. -/
def session (shell : Shell) (s : State) : List String → List Outcome
  | [] => []
  | line :: rest =>
    match (shell.execute s line).flow with
    | .ok .next => shell.execute s line :: session shell (shell.execute s line).state rest
    | _ => [shell.execute s line]

theorem after_append (shell : Shell) (s : State) (lines lines' : List String) :
    shell.after s (lines ++ lines') = shell.after (shell.after s lines) lines' :=
  List.foldl_append

theorem session_cons_of_next {shell : Shell} {s : State} {line : String}
    (h : (shell.execute s line).flow = .ok .next) (rest : List String) :
    shell.session s (line :: rest) =
      shell.execute s line :: shell.session (shell.execute s line).state rest := by
  rw [session, h]

theorem session_cons_of_ne {shell : Shell} {s : State} {line : String}
    (h : (shell.execute s line).flow ≠ .ok .next) (rest : List String) :
    shell.session s (line :: rest) = [shell.execute s line] := by
  rw [session]
  split
  · next hnext => exact absurd hnext h
  · rfl

end Shell

/-- The state that the outcomes of a session lead to from `s`. -/
def finalState (s : State) (outcomes : List Outcome) : State :=
  (outcomes.getLast?.map Outcome.state).getD s

theorem finalState_cons (s : State) (o : Outcome) (outcomes : List Outcome) :
    finalState s (o :: outcomes) = finalState o.state outcomes := by
  rw [finalState, finalState, List.getLast?_cons]
  cases outcomes.getLast? <;> rfl

/-- How a line ends a session, if it does. -/
def endingAfter : Except String Flow → Option Ending
  | .ok .next => none
  | .ok .leave => some .left
  | .error message => some (.failed message)

theorem exists_endingAfter {flow : Except String Flow} (h : flow ≠ .ok .next) :
    ∃ ending, endingAfter flow = some ending ∧ ending ≠ .endOfInput := by
  match flow with
  | .ok .next => exact absurd rfl h
  | .ok .leave => exact ⟨_, rfl, by simp⟩
  | .error message => exact ⟨_, rfl, by simp⟩

/-- How a session with these outcomes ends. -/
def endingOf (outcomes : List Outcome) : Ending :=
  (outcomes.getLast?.bind fun o => endingAfter o.flow).getD .endOfInput

theorem endingOf_cons_of_next {o : Outcome} (h : o.flow = .ok .next) (outcomes : List Outcome) :
    endingOf (o :: outcomes) = endingOf outcomes := by
  rw [endingOf, endingOf, List.getLast?_cons]
  cases outcomes.getLast? with
  | none => simp [h, endingAfter]
  | some o' => rfl

/-! ## Dialogues -/

namespace Dialogue

/-- What a session prints: the prompt before each line, and a farewell at the end of the input. -/
def transcript (prompt : String) (outcomes : List Outcome) : List Printed :=
  (outcomes.flatMap fun o => .session prompt :: o.printed) ++
    if endingOf outcomes = .endOfInput then [.session prompt, .session "Bye\n"] else []

theorem transcript_cons_of_next {o : Outcome} (h : o.flow = .ok .next) (prompt : String)
    (outcomes : List Outcome) :
    transcript prompt (o :: outcomes) =
      .session prompt :: o.printed ++ transcript prompt outcomes := by
  simp [transcript, endingOf_cons_of_next h]

/-- A line of text is executed, and ends the dialogue or not. -/
theorem step_of_typed (shell : Shell) (d : Dialogue) {line : List UInt8} {text : List Char}
    (h : typedText line = .text text) :
    d.step shell (some line) =
      ((d.execute shell text).1, endingAfter (d.execute shell text).2) := by
  simp only [step, h]
  rcases d.execute shell text with ⟨d', message | flow⟩
  · rfl
  · cases flow <;> rfl

/-- **A dialogue on lines of text is the session of these lines.** -/
theorem converse_of_typed (shell : Shell) (prompt : String) {lines : List (List UInt8)}
    {texts : List (List Char)}
    (h : List.Forall₂ (fun line text => typedText line = .text text) lines texts) (d : Dialogue) :
    (d.converse shell prompt lines).1.state =
        finalState d.state (shell.session d.state (texts.map String.ofList)) ∧
      (d.converse shell prompt lines).1.printed =
        d.printed ++ transcript prompt (shell.session d.state (texts.map String.ofList)) ∧
      (d.converse shell prompt lines).2 =
        endingOf (shell.session d.state (texts.map String.ofList)) := by
  induction h generalizing d with
  | nil => simp [converse, step, say, Shell.session, finalState, transcript, endingOf]
  | @cons line text lines texts htext _ ih =>
    have hstep := step_of_typed shell (d.say prompt) htext
    rw [List.map_cons]
    by_cases hflow : (shell.execute d.state (String.ofList text)).flow = .ok .next
    · have hnext : endingAfter ((d.say prompt).execute shell text).2 = none :=
        congrArg endingAfter hflow
      rw [hnext] at hstep
      rw [Shell.session_cons_of_next hflow, converse, hstep, finalState_cons,
        endingOf_cons_of_next hflow, transcript_cons_of_next hflow]
      obtain ⟨hstate, hprinted, hending⟩ := ih ((d.say prompt).execute shell text).1
      refine ⟨hstate, hprinted.trans ?_, hending⟩
      simp [execute, say]
    · obtain ⟨ending, hending, hne⟩ := exists_endingAfter hflow
      have hlast : endingAfter ((d.say prompt).execute shell text).2 = some ending := hending
      rw [hlast] at hstep
      rw [Shell.session_cons_of_ne hflow, converse, hstep]
      simp [execute, say, finalState, transcript, endingOf, hending, hne]

end Dialogue

end LayoutShell.Session
