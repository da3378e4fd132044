import LayoutShell.Host.Fork

/-!
# Redirections

Redirections connect the streams of a command with files, other streams and documents.

* `withRedirects` runs an action with redirections.
-/

namespace LayoutShell.Host

open Files

/-- Why a file of a redirection is not opened. -/
def openingError (mode : Mode) (path : ByteString) (e : FileError) : String :=
  let verb := if mode = .read then "open " else "create "
  let cause := match e with
    | .notFound | .notDirectory => if mode = .read then "No such file" else "Directory nonexistent"
    | e => errorText e
  "cannot " ++ verb ++ path ++ ": " ++ cause

/-- Applies a redirection whose word is expanded; says whether it succeeds. -/
def applyRedirect (eval : Eval) (r : Redirect) (target : ByteString) : Run Bool := do
  match r with
  | .file stream mode _ =>
    let m ← get
    let kept := mode = .write ∧ m.switches.contains 'C' ∧
      (m.tree.entryAt (resolveFrom m.here target) matches .ok (.file _))
    if kept then
      complain ("cannot create " ++ target ++ ": File exists")
      return false
    match ← openFile mode target with
    | .ok i =>
      connect stream (some i)
      return true
    | .error e =>
      complain (openingError mode target e)
      return false
  | .copy stream _ =>
    if target = "-" then
      connect stream none
      return true
    else
      let source := Arithmetic.numeral 10 target.toList
      match (← get).streams.lookup source with
      | some i =>
        connect stream (some i)
        return true
      | none =>
        complain (target ++ ": Bad file descriptor")
        return false
  | .document stream number =>
    let text ← match (← get).documents.lookup number with
      | some w => Expansion.document (outputOf eval) w
      | none => pure []
    connect stream (some (← addChannel (.source text)))
    return true

/-- The word of a redirection, expanded. -/
def redirectTarget (eval : Eval) (r : Redirect) : Run ByteString := do
  match r with
  | .file _ _ path => Expansion.single (outputOf eval) path
  | .copy _ source =>
    let target ← Expansion.single (outputOf eval) source
    if target ≠ "-" ∧ (target.isEmpty ∨ !target.toList.all Char.isDigit) then
      die "Syntax error: Bad fd number"
    return target
  | .document _ _ => return ""

/-- Applies redirections up to the first that fails. -/
def applyRedirects (eval : Eval) (rs : List Redirect) : Run Bool := do
  let targets ← rs.mapM (redirectTarget eval)
  for (r, target) in rs.zip targets do
    if !(← applyRedirect eval r target) then return false
  return true

/-- Runs an action with redirections, which are taken back afterwards. A redirection that fails
gives a status of its own. -/
def withRedirects (eval : Eval) (rs : List Redirect) (act : Run Unit) : Run Bool := do
  let streams := (← get).streams
  ensure (do
    if ← applyRedirects eval rs then
      act
      return true
    else
      setStatus 2
      return false) (modify fun m => { m with streams := streams })

end LayoutShell.Host
