import LayoutShell.Binary64

/-!
# Numbers

A number is an integer or a binary floating-point number of 64 bits.

* `Number.render` writes a number: positional for decimal exponents from -5 to 15, otherwise with an
  exponent that carries its sign.
-/

namespace LayoutShell.Json

/-- A number of a JSON text. -/
inductive Number
  | int (n : Int)
  | float (x : Binary64)
  deriving DecidableEq, Repr

namespace Number

/-- Zeros. -/
def zeros (n : Nat) : List Char := List.replicate n '0'

/-- The text of `digits · 10 ^ exponent`. -/
def renderDecimal (digits : Nat) (exponent : Int) : List Char :=
  let ds := Nat.toDigits 10 digits
  let top : Int := exponent + ds.length - 1
  if -5 ≤ top ∧ top ≤ 15 then
    if 0 ≤ exponent then ds ++ zeros exponent.toNat ++ ['.', '0']
    else if 0 ≤ top then
      ds.take (top.toNat + 1) ++ '.' :: ds.drop (top.toNat + 1)
    else '0' :: '.' :: zeros (-top - 1).toNat ++ ds
  else
    let mantissa := match ds with
      | [d] => [d]
      | d :: rest => d :: '.' :: rest
      | [] => []
    let sign := if top < 0 then '-' else '+'
    mantissa ++ 'e' :: sign :: Nat.toDigits 10 top.natAbs

/-- The text of a number. -/
def render : Number → List Char
  | int n => if n < 0 then '-' :: Nat.toDigits 10 n.natAbs else Nat.toDigits 10 n.natAbs
  | float x =>
    let (digits, exponent) := x.shortest
    let text := renderDecimal digits exponent
    if x.negative then '-' :: text else text

end Number

end LayoutShell.Json
