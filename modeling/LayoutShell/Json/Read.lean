import LayoutShell.Dict
import LayoutShell.Json.Scan
import LayoutShell.Json.Value

/-!
# Reading JSON values

`Value.read` reads a strict JSON text. The members of an object are sorted by their keys, and of
members with the same key the last one counts.
-/

namespace LayoutShell.Json

open Text

/-! ## Numbers -/

/-- The value of decimal digits, continuing from `value`. -/
def digitsValue (value : Nat) (digits : List UInt8) : Nat :=
  digits.foldl (fun n b => n * 10 + (b.toNat - 0x30)) value

/-- The exponent written after `e`. -/
def exponentValue : List UInt8 → Int
  | [] => 0
  | b :: s =>
    if b = byte '-' then -(digitsValue 0 s : Int)
    else if b = byte '+' then digitsValue 0 s
    else digitsValue 0 (b :: s)

/-- The number with the given parts. Integers of 64 bits are kept exactly, all others are
floating-point numbers. -/
def Number.ofParts (negative : Bool) (whole fraction exponent : List UInt8) : Option Number :=
  if fraction.isEmpty ∧ exponent.isEmpty then
    let n := digitsValue 0 whole
    if !negative ∧ n < Nat.pow 2 64 then some (.int n)
    else if negative ∧ n ≠ 0 ∧ n ≤ Nat.pow 2 63 then some (.int (-n))
    else (Binary64.ofDecimal negative n 0).map .float
  else
    let n := digitsValue 0 (whole ++ fraction.drop 1)
    let e := exponentValue (exponent.drop 1) - (fraction.drop 1).length
    (Binary64.ofDecimal negative n e).map .float

/-- The number of a well-formed number text. -/
def Number.ofText (text : List UInt8) : Option Number :=
  let negative := text.head? = some (byte '-')
  let text := if negative then text.drop 1 else text
  let isExponent := fun b => b == byte 'e' || b == byte 'E'
  let whole := text.takeWhile isDigitByte
  let fraction := (text.dropWhile isDigitByte).takeWhile (!isExponent ·)
  let exponent := text.dropWhile (!isExponent ·)
  Number.ofParts negative whole fraction exponent

/-- The number at the start of a text. -/
def readNumber (s : List UInt8) : Except Failure (Number × List UInt8) := do
  let rest ← skipNumber .truncated s
  match Number.ofText (s.take (s.length - rest.length)) with
  | some n => .ok (n, rest)
  | none => .error .malformed

/-! ## Values -/

/-- Sets a member in a list of members with increasing keys. -/
def setMember (key : String) (v : Value) (members : List (String × Value)) :
    List (String × Value) :=
  Dict.insertEntry key v members

/-- Members in the order of their keys, the last one of a key winning. -/
def sortMembers (members : List (String × Value)) : List (String × Value) :=
  members.foldl (fun sorted m => setMember m.1 m.2 sorted) []

/-- A string, a word or a number. -/
def readScalar : List UInt8 → Except Failure (Value × List UInt8)
  | [] => .error .truncated
  | b :: s =>
    if b = byte '"' then (readText s).map fun (t, rest) => (.string (String.ofList t), rest)
    else if b = byte 'n' then (skipWord "ull".toList s).map fun rest => (.null, rest)
    else if b = byte 't' then (skipWord "rue".toList s).map fun rest => (.bool true, rest)
    else if b = byte 'f' then (skipWord "alse".toList s).map fun rest => (.bool false, rest)
    else if b = byte '-' ∨ isDigitByte b then
      (readNumber (b :: s)).map fun (n, rest) => (.number n, rest)
    else .error .malformed

/-- The key and the colon at the start of a text. -/
def readKey (s : List UInt8) : Except Failure (String × List UInt8) := do
  let s ← expect (byte '"') (skipBlank s)
  let (key, s) ← readText s
  return (String.ofList key, ← expect (byte ':') (skipBlank s))

mutual

/-- The value at the start of a text; `fuel` bounds the number of constructs. -/
def readValue : Nat → List UInt8 → Except Failure (Value × List UInt8)
  | 0, _ => .error .truncated
  | fuel + 1, s =>
    match skipBlank s with
    | [] => .error .truncated
    | b :: rest =>
      if b = byte '[' then
        match skipBlank rest with
        | [] => .error .truncated
        | c :: rest' =>
          if c = byte ']' then .ok (.array [], rest')
          else do
            let (items, rest) ← readItems fuel rest
            return (.array items, rest)
      else if b = byte '\x7b' then
        match skipBlank rest with
        | [] => .error .truncated
        | c :: rest' =>
          if c = byte '\x7d' then .ok (.object [], rest')
          else do
            let (members, rest) ← readMembers fuel rest
            return (.object (sortMembers members), rest)
      else readScalar (b :: rest)

/-- The items of an array up to its closing bracket. -/
def readItems : Nat → List UInt8 → Except Failure (List Value × List UInt8)
  | 0, _ => .error .truncated
  | fuel + 1, s => do
    let (v, s) ← readValue fuel s
    match skipBlank s with
    | [] => .error .truncated
    | b :: rest =>
      if b = byte ',' then
        let (items, rest) ← readItems fuel rest
        return (v :: items, rest)
      else if b = byte ']' then .ok ([v], rest)
      else .error .malformed

/-- The members of an object up to its closing bracket. -/
def readMembers : Nat → List UInt8 → Except Failure (List (String × Value) × List UInt8)
  | 0, _ => .error .truncated
  | fuel + 1, s => do
    let (key, s) ← readKey s
    let (v, s) ← readValue fuel s
    match skipBlank s with
    | [] => .error .truncated
    | b :: rest =>
      if b = byte ',' then
        let (members, rest) ← readMembers fuel rest
        return ((key, v) :: members, rest)
      else if b = byte '\x7d' then .ok ([(key, v)], rest)
      else .error .malformed

end

/-- The value of a JSON text, which holds nothing else. -/
def Value.read (text : List UInt8) : Except Failure Value := do
  let (v, rest) ← readValue (2 * text.length + 2) text
  if (skipBlank rest).isEmpty then .ok v else .error .malformed

end LayoutShell.Json
