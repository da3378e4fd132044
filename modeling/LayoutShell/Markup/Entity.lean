import LayoutShell.Text.Quoted
import LayoutShell.Text.Utf8

/-!
# Entities

In texts and attribute values `&name;` stands for a character: one of five names, or `#` and the
number of the character.

* `Entity.expand` replaces all entities of a text or finds the first bad one, with its place in
  bytes of that text.
* `Entity.escape` writes the five special characters as entities.
-/

namespace LayoutShell.Markup

open Text

/-- What is wrong with an entity. -/
inductive EntityError
  /-- An ampersand at byte `start` of a text of `size` bytes, without a `;` before the next one. -/
  | unterminated (start size : Nat)
  /-- No entity is called `name`; it stands between the bytes `start` and `stop`. -/
  | unknown (start stop : Nat) (name : List Char)
  /-- The entity between the bytes `start` and `stop` is the character NUL. -/
  | null (start stop : Nat)
  /-- More hexadecimal digits than a character can have. -/
  | longHexadecimal
  /-- More decimal digits than a character can have. -/
  | longDecimal
  /-- A character that is no hexadecimal digit. -/
  | badHexadecimal (c : Char)
  /-- A character that is no decimal digit. -/
  | badDecimal (c : Char)
  /-- The number of no character. -/
  | badCharacter (code : Nat)
  deriving DecidableEq

namespace EntityError

/-- The message of an error at a range of bytes. -/
def atRange (start stop : Nat) (what : String) : String :=
  "Error while escaping character at range " ++ toString start ++ ".." ++ toString stop ++ ": " ++
    what

/-- The message of an error; a bad digit shows as its first byte. -/
def message : EntityError → String
  | unterminated start size => atRange start size "Cannot find ';' after '&'"
  | unknown start stop name =>
    atRange start stop ("Unrecognized escape symbol: " ++ String.ofList (quoted name))
  | null start stop => atRange start stop "Null character entity not allowed"
  | longHexadecimal => "Cannot convert hexadecimal to utf8"
  | longDecimal => "Cannot convert decimal to utf8"
  | badHexadecimal c => "'" ++ (leadingByte c).toString ++ "' is not a valid hexadecimal character"
  | badDecimal c => "'" ++ (leadingByte c).toString ++ "' is not a valid decimal character"
  | badCharacter code => "'" ++ toString code ++ "' is not a valid codepoint"

end EntityError

namespace Entity

/-! ## Numbers -/

/-- The value of a decimal digit. -/
def decimalDigit? (c : Char) : Option Nat :=
  if '0' ≤ c ∧ c ≤ '9' then some (c.toNat - '0'.toNat) else none

/-- The value of a hexadecimal digit in either case. -/
def hexDigit? (c : Char) : Option Nat :=
  if '0' ≤ c ∧ c ≤ '9' then some (c.toNat - '0'.toNat)
  else if 'a' ≤ c ∧ c ≤ 'f' then some (c.toNat - 'a'.toNat + 10)
  else if 'A' ≤ c ∧ c ≤ 'F' then some (c.toNat - 'A'.toNat + 10)
  else none

/-- The number written by digits, continuing from `value`, or the first character that is none. -/
def readDigits (base : Nat) (digit? : Char → Option Nat) (value : Nat) :
    List Char → Except Char Nat
  | [] => .ok value
  | c :: rest =>
    match digit? c with
    | some d => readDigits base digit? (value * base + d) rest
    | none => .error c

/-- The number after `#`. -/
def readNumber : List Char → Except EntityError Nat
  | 'x' :: digits =>
    if 6 < size digits then .error .longHexadecimal
    else (readDigits 16 hexDigit? 0 digits).mapError .badHexadecimal
  | digits =>
    if 7 < size digits then .error .longDecimal
    else (readDigits 10 decimalDigit? 0 digits).mapError .badDecimal

/-! ## Expansion -/

/-- The character that a name stands for. -/
def named? (name : List Char) : Option Char :=
  if name = "lt".toList then some '<'
  else if name = "gt".toList then some '>'
  else if name = "amp".toList then some '&'
  else if name = "apos".toList then some '\''
  else if name = "quot".toList then some '"'
  else none

/-- The character that the entity `&name;` between the bytes `start` and `stop` stands for. -/
def resolve (start stop : Nat) (name : List Char) : Except EntityError Char :=
  match name with
  | '#' :: number => do
    let code ← readNumber number
    if code = 0 then .error (.null start stop)
    else if code.isValidChar then .ok (Char.ofNat code)
    else .error (.badCharacter code)
  | name =>
    match named? name with
    | some c => .ok c
    | none => .error (.unknown (start + 1) stop name)

/-- The text up to the next `&` or `;`, that character, and what follows. -/
def cutAtMark : List Char → Option (List Char × Char × List Char)
  | [] => none
  | c :: rest =>
    if c = '&' ∨ c = ';' then some ([], c, rest)
    else (cutAtMark rest).map fun (before, mark, after) => (c :: before, mark, after)

theorem length_cutAtMark {s before after : List Char} {mark : Char}
    (h : cutAtMark s = some (before, mark, after)) : after.length < s.length := by
  induction s generalizing before with
  | nil => simp [cutAtMark] at h
  | cons c rest ih =>
    simp only [cutAtMark] at h
    split at h
    · cases h; simp
    · obtain ⟨⟨b, m, a⟩, hb, he⟩ := Option.map_eq_some_iff.1 h
      cases he
      exact Nat.lt_succ_of_lt (ih hb)

/-- Replaces the entities in the tail of a text that begins at byte `start` and ends at byte
`total`. -/
def expandFrom (start total : Nat) (s : List Char) : Except EntityError (List Char) :=
  let plain := s.takeWhile (· ≠ '&')
  match _h : s.dropWhile (· ≠ '&') with
  | [] => .ok plain
  | _ :: rest =>
    let start := start + size plain
    match _h' : cutAtMark rest with
    | some (name, ';', after) => do
      let stop := start + 1 + size name
      let c ← resolve start stop name
      return plain ++ c :: (← expandFrom (stop + 1) total after)
    | _ => .error (.unterminated start total)
termination_by s.length
decreasing_by
  have h₁ := length_cutAtMark _h'
  have h₂ := (List.dropWhile_sublist (l := s) (fun c => decide (c ≠ '&'))).length_le
  rw [_h] at h₂
  simp at h₂
  omega

/-- A text with its entities replaced. -/
def expand (s : List Char) : Except EntityError (List Char) := expandFrom 0 (size s) s

/-! ## Escaping -/

/-- A character as an entity if it is one of the five special ones. -/
def escapeChar (c : Char) : List Char :=
  if c = '<' then "&lt;".toList
  else if c = '>' then "&gt;".toList
  else if c = '&' then "&amp;".toList
  else if c = '\'' then "&apos;".toList
  else if c = '"' then "&quot;".toList
  else [c]

/-- A text with the five special characters written as entities. -/
def escape (s : List Char) : List Char := s.flatMap escapeChar

end Entity

end LayoutShell.Markup
