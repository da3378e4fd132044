import LayoutShell.Binary64

/-!
# Numbers of a TOML text

Underscores may stand between two digits. An integer has 64 bits; a floating-point number may be
infinite only if it is written so, or if it is negative.

* `integer` and `float` read numbers.
-/

namespace LayoutShell.Toml

/-- The value of a digit in bases up to sixteen. -/
def digitValue (c : Char) : Nat :=
  if c.isDigit then c.toNat - '0'.toNat
  else if c.isLower then c.toNat - 'a'.toNat + 10
  else c.toNat - 'A'.toNat + 10

/-- The number that digits write in a base. -/
def Digits.value (base : Nat) (digits : List Char) : Nat :=
  digits.foldl (fun n d => n * base + digitValue d) 0

/-- Reads digits after a first one, with single underscores between them. -/
def moreDigits (isDigit : Char → Bool) : List Char → List Char × List Char
  | '_' :: c :: rest =>
    if isDigit c then
      let (digits, rest) := moreDigits isDigit rest
      (c :: digits, rest)
    else ([], '_' :: c :: rest)
  | c :: rest =>
    if isDigit c then
      let (digits, rest) := moreDigits isDigit rest
      (c :: digits, rest)
    else ([], c :: rest)
  | [] => ([], [])

/-- Reads digits, of which there is at least one. -/
def digits (isDigit : Char → Bool) : List Char → Option (List Char × List Char)
  | [] => none
  | c :: rest =>
    if isDigit c then
      let (more, rest) := moreDigits isDigit rest
      some (c :: more, rest)
    else none

/-- Reads a sign, if there is one; whether it is a minus. -/
def sign : List Char → Bool × List Char
  | '+' :: rest => (false, rest)
  | '-' :: rest => (true, rest)
  | s => (false, s)

/-- Reads decimal digits without a leading zero. -/
def decimalDigits : List Char → Option (List Char × List Char)
  | '0' :: rest => some (['0'], rest)
  | s => digits Char.isDigit s

/-- The base and the digits that a letter after a zero stands for. -/
def base? (c : Char) : Option (Nat × (Char → Bool)) :=
  if c = 'x' then some (16, fun d => d.isDigit || ('a' ≤ d && d ≤ 'f') || ('A' ≤ d && d ≤ 'F'))
  else if c = 'o' then some (8, fun d => '0' ≤ d && d ≤ '7')
  else if c = 'b' then some (2, fun d => d == '0' || d == '1')
  else none

/-- An integer of 64 bits. -/
def word (n : Int) (rest : List Char) : Option (Int × List Char) :=
  if -Int.pow 2 63 ≤ n ∧ n < Int.pow 2 63 then some (n, rest) else none

def decimalInteger (s : List Char) : Option (Int × List Char) := do
  let (negative, s) := sign s
  let (ds, rest) ← decimalDigits s
  let n : Int := Digits.value 10 ds
  word (if negative then -n else n) rest

/-- Reads an integer. -/
def integer : List Char → Option (Int × List Char)
  | '0' :: c :: rest =>
    match base? c with
    | some (base, isDigit) => do
      let (ds, rest) ← digits isDigit rest
      word (Digits.value base ds) rest
    | none => decimalInteger ('0' :: c :: rest)
  | s => decimalInteger s

/-- A floating-point number. -/
inductive Float64
  | finite (x : Binary64)
  | infinite (negative : Bool)
  | notANumber
  deriving DecidableEq

/-- Reads `inf` or `nan`. -/
def specialFloat (negative : Bool) : List Char → Option (Float64 × List Char)
  | 'i' :: 'n' :: 'f' :: rest => some (.infinite negative, rest)
  | 'n' :: 'a' :: 'n' :: rest => some (.notANumber, rest)
  | _ => none

/-- Reads the digits after a point; none where there is no point. -/
def fraction : List Char → Option (List Char × List Char)
  | '.' :: rest => digits Char.isDigit rest
  | s => some ([], s)

/-- Reads an exponent; `none` inside where there is none. -/
def exponent : List Char → Option (Option Int × List Char)
  | c :: rest =>
    if c = 'e' ∨ c = 'E' then do
      let (negative, rest) := sign rest
      let (ds, rest) ← digits Char.isDigit rest
      let n : Int := Digits.value 10 ds
      return (some (if negative then -n else n), rest)
    else some (none, c :: rest)
  | [] => some (none, [])

/-- Reads a number with a point or an exponent. -/
def decimalFloat (negative : Bool) (s : List Char) : Option (Float64 × List Char) := do
  let (whole, rest) ← decimalDigits s
  let (part, rest) ← fraction rest
  let (power, rest) ← exponent rest
  if part.isEmpty ∧ power.isNone then none
  else
    match Binary64.ofDecimal negative (Digits.value 10 (whole ++ part))
        (power.getD 0 - part.length) with
    | some x => return (.finite x, rest)
    | none => if negative then return (.infinite true, rest) else none

/-- Reads a floating-point number. -/
def float (s : List Char) : Option (Float64 × List Char) :=
  let (negative, s) := sign s
  decimalFloat negative s <|> specialFloat negative s

end LayoutShell.Toml
