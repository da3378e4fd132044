/-!
# Binary floating-point numbers

Finite floating-point numbers of 64 bits, by exact arithmetic on natural numbers.

* `Binary64.ofDecimal` is the number nearest to a decimal one, ties going to the even mantissa.
* `Binary64.shortest` is the decimal number with the fewest digits that reads back, and of those the
  nearest.
-/

namespace LayoutShell

/-- A finite binary floating-point number `± mantissa · 2 ^ exponent`. The mantissa has 53 bits,
fewer only with the least exponent. -/
structure Binary64 where
  negative : Bool
  mantissa : Nat
  exponent : Int
  deriving DecidableEq, Repr

namespace Binary64

def leastExponent : Int := -1074

def greatestExponent : Int := 971

/-- The integer nearest to `num / den`, ties going to the even one. -/
def roundDiv (num den : Nat) : Nat :=
  let q := num / den
  let r := num % den
  if 2 * r < den then q
  else if den < 2 * r then q + 1
  else if q % 2 = 0 then q else q + 1

/-- The number `num / den · 2 ^ (-e)` as a fraction. -/
def scale (num den : Nat) (e : Int) : Nat × Nat :=
  if 0 ≤ e then (num, den * Nat.pow 2 e.toNat) else (num * Nat.pow 2 (-e).toNat, den)

/-- The number nearest to the positive fraction `num / den`, unless it is too large. -/
def ofFraction (negative : Bool) (num den : Nat) : Option Binary64 :=
  if num = 0 then some ⟨negative, 0, leastExponent⟩
  else
    let guess := (num.log2 : Int) - (den.log2 : Int) - 53
    let (a, b) := scale num den guess
    let e := max leastExponent (if a / b < Nat.pow 2 53 then guess else guess + 1)
    let (a, b) := scale num den e
    let m := roundDiv a b
    let (m, e) := if m = Nat.pow 2 53 then (Nat.pow 2 52, e + 1) else (m, e)
    if greatestExponent < e then none else some ⟨negative, m, e⟩

/-- The number of decimal digits, at least one. -/
def digitCount (n : Nat) : Nat := (Nat.toDigits 10 n).length

/-- The number nearest to `± digits · 10 ^ exponent`, unless it is too large. Numbers far below the
least one are zero, whatever their digits. -/
def ofDecimal (negative : Bool) (digits : Nat) (exponent : Int) : Option Binary64 :=
  let top := exponent + digitCount digits
  if digits = 0 ∨ top < -400 then some ⟨negative, 0, leastExponent⟩
  else if 400 < top then none
  else if 0 ≤ exponent then ofFraction negative (digits * Nat.pow 10 exponent.toNat) 1
  else ofFraction negative digits (Nat.pow 10 (-exponent).toNat)

/-- The magnitude as a fraction. -/
def fraction (x : Binary64) : Nat × Nat :=
  if 0 ≤ x.exponent then (x.mantissa * Nat.pow 2 x.exponent.toNat, 1)
  else (x.mantissa, Nat.pow 2 (-x.exponent).toNat)

/-- The magnitude divided by `10 ^ place`, as a fraction. -/
def atPlace (x : Binary64) (place : Int) : Nat × Nat :=
  let (num, den) := x.fraction
  if 0 ≤ place then (num, den * Nat.pow 10 place.toNat)
  else (num * Nat.pow 10 (-place).toNat, den)

/-- The greatest `k` with `10 ^ k` at most the magnitude, found from above. -/
def decimalExponent (x : Binary64) : Nat → Int
  | 0 => -324
  | fuel + 1 =>
    let k : Int := fuel - 324
    let (a, b) := x.atPlace k
    if b ≤ a then k else decimalExponent x fuel

/-- The decimals with their last digit at `place` on both sides of the magnitude, the nearer one
first and the even one on a tie. -/
def neighbours (x : Binary64) (place : Int) : List Nat :=
  let (a, b) := x.atPlace place
  let low := a / b
  let near := roundDiv a b
  if near = low then [low, low + 1] else [low + 1, low]

/-- Searches the places from `place` downwards for a decimal that reads back. -/
def searchShortest (x : Binary64) (place : Int) : Nat → Nat × Int
  | 0 => (x.mantissa *
      (if 0 ≤ x.exponent then Nat.pow 2 x.exponent.toNat else Nat.pow 5 (-x.exponent).toNat),
      min 0 x.exponent)
  | fuel + 1 =>
    match (x.neighbours place).find? fun d => ofDecimal x.negative d place = some x with
    | some d => (d, place)
    | none => searchShortest x (place - 1) fuel

/-- Moves trailing zeros of the digits into the exponent. -/
def stripZeros (digits : Nat) (exponent : Int) : Nat → Nat × Int
  | 0 => (digits, exponent)
  | fuel + 1 =>
    if digits ≠ 0 ∧ digits % 10 = 0 then stripZeros (digits / 10) (exponent + 1) fuel
    else (digits, exponent)

/-- The shortest decimal `digits · 10 ^ exponent` that reads back as the magnitude of `x`. -/
def shortest (x : Binary64) : Nat × Int :=
  if x.mantissa = 0 then (0, 0)
  else
    let (digits, exponent) := x.searchShortest (x.decimalExponent 634) 17
    stripZeros digits exponent 20

end Binary64

end LayoutShell
