import LayoutShell.Text.Space
import LayoutShell.Text.Utf8

/-!
# Attributes

The attributes of a tag are read from the text after its name. Places are counted in bytes from the
start of the name.

* `Attribute.scan` reads the attributes up to the first that is malformed.
* `Attribute.distinct` also refuses an attribute whose key was read before.
-/

namespace LayoutShell.Markup

open Text

/-- What is wrong with an attribute, and at which byte of the tag. -/
inductive AttributeError
  /-- A key without `=`. -/
  | missingEquals (place : Nat)
  /-- A key that was read before, at `previous`. -/
  | duplicate (place previous : Nat)
  /-- Nothing after `=`. -/
  | missingValue (place : Nat)
  /-- A value without quotes. -/
  | unquoted (place : Nat)
  /-- A value without its closing quote. -/
  | missingQuote (place : Nat) (quote : Char)
  deriving DecidableEq

/-- The message of an error. -/
def AttributeError.message (e : AttributeError) : String :=
  "error while parsing attribute: position " ++
    match e with
    | missingEquals place =>
      toString place ++ ": attribute key must be directly followed by `=` or space"
    | duplicate place previous =>
      toString place ++ ": duplicated attribute, previous declaration at position " ++
        toString previous
    | missingValue place => toString place ++ ": `=` must be followed by an attribute value"
    | unquoted place => toString place ++ ": attribute value must be enclosed in `\"` or `'`"
    | missingQuote place quote =>
      toString place ++ ": missing closing quote `" ++ quote.toString ++ "` in attribute value"

/-- An attribute with the byte at which its key begins. -/
structure Attribute where
  place : Nat
  key : List Char
  value : List Char
  deriving DecidableEq

namespace Attribute

/-- What stands at the start of the attribute text of a tag. -/
inductive Reading
  /-- Nothing but space. -/
  | done
  /-- No key followed by `=`. -/
  | noKey (e : AttributeError)
  /-- A key at `place` whose value is malformed. -/
  | noValue (place : Nat) (key : List Char) (e : AttributeError)
  /-- An attribute and the text after it, which begins at byte `next`. -/
  | found (a : Attribute) (next : Nat) (rest : List Char)
  deriving DecidableEq

/-- Splits off the leading characters satisfying `p`. -/
def spanOf (p : Char → Bool) (s : List Char) : List Char × List Char :=
  (s.takeWhile p, s.dropWhile p)

/-- The value after `=`: space, then a text in single or double quotes. `place` is the byte at which
`s` begins. -/
def readValue (keyPlace : Nat) (key : List Char) (place : Nat) (s : List Char) : Reading :=
  let (space, s) := spanOf isMarkupSpace s
  let place := place + size space
  match s with
  | [] => .noValue keyPlace key (.missingValue place)
  | quote :: s =>
    if quote = '"' ∨ quote = '\'' then
      let (value, s) := spanOf (· ≠ quote) s
      let stop := place + 1 + size value
      match s with
      | [] => .noValue keyPlace key (.missingQuote stop quote)
      | _ :: rest => .found ⟨keyPlace, key, value⟩ (stop + 1) rest
    else .noValue keyPlace key (.unquoted place)

/-- The characters that continue a key. -/
def isKeyChar (c : Char) : Bool := c != '=' && !isMarkupSpace c

/-- The attribute at the start of `s`, which begins at byte `place`. A key is any first character
and all further ones up to `=` or space. -/
def read (place : Nat) (s : List Char) : Reading :=
  let (space, s) := spanOf isMarkupSpace s
  let place := place + size space
  match s with
  | [] => .done
  | c :: s =>
    let (tail, s) := spanOf isKeyChar s
    let key := c :: tail
    let (space, s) := spanOf isMarkupSpace s
    let stop := place + size key + size space
    match s with
    | '=' :: s => readValue place key (stop + 1) s
    | _ => .noKey (.missingEquals stop)

theorem length_spanOf (p : Char → Bool) (s : List Char) : (spanOf p s).2.length ≤ s.length :=
  (List.dropWhile_sublist p).length_le

theorem length_readValue {keyPlace place next : Nat} {key s rest : List Char} {a : Attribute}
    (h : readValue keyPlace key place s = .found a next rest) : rest.length < s.length := by
  simp only [readValue] at h
  have h₀ := length_spanOf isMarkupSpace s
  split at h
  · cases h
  · next quote s' hs =>
    rw [hs] at h₀
    split at h
    · have h₁ := length_spanOf (· ≠ quote) s'
      split at h
      · cases h
      · next hs' =>
        rw [hs'] at h₁
        cases h
        simp at h₀ h₁
        omega
    · cases h

/-- Reading an attribute shortens the text. -/
theorem length_of_read {place next : Nat} {s rest : List Char} {a : Attribute}
    (h : read place s = .found a next rest) : rest.length < s.length := by
  simp only [read] at h
  have h₀ := length_spanOf isMarkupSpace s
  split at h
  · cases h
  · next c s' hs =>
    rw [hs] at h₀
    have h₁ := length_spanOf isKeyChar s'
    have h₂ := length_spanOf isMarkupSpace (spanOf isKeyChar s').2
    split at h
    · next hs' =>
      rw [hs'] at h₂
      have := length_readValue h
      simp at h₀ h₂
      omega
    · cases h

/-- The attributes in the text of a tag that begins at byte `place`, each with its key's verdict:
the list ends with the first malformed one. -/
def readings (place : Nat) (s : List Char) : List Reading :=
  match _h : read place s with
  | .done => []
  | .found a next rest => .found a next rest :: readings next rest
  | r => [r]
termination_by s.length
decreasing_by exact length_of_read _h

/-- The well-formed attributes before the first malformed one. -/
def scan (place : Nat) (s : List Char) : List Attribute :=
  (readings place s).filterMap fun
    | .found a _ _ => some a
    | _ => none

/-- The attributes of a tag, refusing a key already among `seen` before looking at its value. -/
def distinctFrom (seen : List (List Char × Nat)) :
    List Reading → List (Except AttributeError Attribute)
  | [] => []
  | .done :: _ => []
  | .noKey e :: _ => [.error e]
  | .noValue place key e :: _ =>
    match seen.lookup key with
    | some previous => [.error (.duplicate place previous)]
    | none => [.error e]
  | .found a _ _ :: rest =>
    match seen.lookup a.key with
    | some previous => [.error (.duplicate a.place previous)]
    | none => .ok a :: distinctFrom ((a.key, a.place) :: seen) rest

/-- The attributes of a tag in order, up to the first error. -/
def distinct (place : Nat) (s : List Char) : List (Except AttributeError Attribute) :=
  distinctFrom [] (readings place s)

end Attribute

end LayoutShell.Markup
