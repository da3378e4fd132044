/-!
# Arithmetic of the host

Expressions over integers of 64 bits that wrap around, with the usual operators except those
that count up and down. Division goes toward zero. An expression may assign to variables.

* `Arithmetic.evaluate` gives the value of an expression and the assignments that it makes, or says
  what is wrong with it.
-/

namespace LayoutShell.Host.Arithmetic

/-- The integer of 64 bits that is congruent to `n`. -/
def wrap (n : Int) : Int := (n + Int.pow 2 63) % Int.pow 2 64 - Int.pow 2 63

/-- A bitwise operation on integers of 64 bits. -/
def bitwise (f : Nat → Nat → Nat) (a b : Int) : Int :=
  wrap (f (a % Int.pow 2 64).toNat (b % Int.pow 2 64).toNat)

/-! ## Numbers -/

/-- The value of a digit in any base. -/
def digitValue (c : Char) : Nat :=
  if c.isDigit then c.toNat - '0'.toNat
  else if c.isLower then c.toNat - 'a'.toNat + 10
  else if c.isUpper then c.toNat - 'A'.toNat + 10
  else 36

/-- The value of digits. -/
def numeral (base : Nat) (digits : List Char) : Nat :=
  digits.foldl (fun n c => n * base + digitValue c) 0

/-- The number without a sign at the start of a text, and the rest: hexadecimal after `0x`, octal
after `0`, and decimal otherwise. -/
def takeNumber (s : List Char) : Nat × List Char :=
  let digits := fun base (s : List Char) =>
    let taken := s.takeWhile fun c => digitValue c < base
    (numeral base taken, s.drop taken.length)
  match s with
  | '0' :: x :: c :: rest =>
    if (x = 'x' ∨ x = 'X') ∧ digitValue c < 16 then digits 16 (c :: rest) else digits 8 s
  | '0' :: _ => digits 8 s
  | _ => digits 10 s

/-- The greatest integer. -/
def greatest : Nat := Nat.pow 2 63 - 1

def isSpace (c : Char) : Bool := " \t\n\x0b\x0c\r".toList.contains c

/-- The integer that a text spells, with its sign; blanks around it do not count. -/
def integer? (s : List Char) : Option Int :=
  let s := s.dropWhile isSpace
  let (negative, digits) := match s with
    | '-' :: rest => (true, rest)
    | '+' :: rest => (false, rest)
    | s => (false, s)
  match digits with
  | [] => if s.isEmpty then some 0 else none
  | c :: _ =>
    let (n, rest) := takeNumber digits
    if !c.isDigit ∨ !rest.all isSpace then none
    else if negative ∧ n ≤ greatest + 1 then some (-n)
    else if n ≤ greatest then some n
    else none

/-! ## Tokens -/

inductive Token
  | number (n : Int)
  | name (s : String)
  | mark (s : String)
  /-- A character without a meaning. -/
  | bad
  deriving DecidableEq

/-- The marks, longer ones before their beginnings. -/
def marks : List String :=
  ["<<=", ">>=", "<<", ">>", "<=", ">=", "==", "!=", "&&", "||", "+=", "-=", "*=", "/=", "%=",
    "&=", "^=", "|=", "<", ">", "=", "!", "&", "|", "+", "-", "*", "/", "%", "^", "~", "?", ":",
    "(", ")"]

/-- Cuts an expression into tokens. -/
def tokens : Nat → List Char → List Token
  | 0, _ => []
  | _, [] => []
  | fuel + 1, c :: rest =>
    if isSpace c then tokens fuel rest
    else if c.isDigit then
      let (n, rest) := takeNumber (c :: rest)
      .number (min n greatest) :: tokens fuel rest
    else if c.isAlpha ∨ c = '_' then
      let name := (c :: rest).takeWhile fun c => c.isAlphanum || c == '_'
      .name (String.ofList name) :: tokens fuel ((c :: rest).drop name.length)
    else
      match marks.find? fun m => m.toList.isPrefixOf (c :: rest) with
      | some m => .mark m :: tokens fuel ((c :: rest).drop m.length)
      | none => [.bad]

/-! ## Evaluation -/

/-- What an evaluation works on. -/
structure State where
  tokens : List Token
  /-- The values assigned so far, the last one first. -/
  assigned : List (String × Int)

abbrev Calculation := StateT State (Except String)

/-- The texts of variables. -/
abbrev Valuation := String → String

def next? : Calculation (Option Token) := return (← get).tokens.head?

def advance : Calculation Unit := modify fun s => { s with tokens := s.tokens.tail }

def value (values : Valuation) (name : String) : Calculation Int := do
  match (← get).assigned.lookup name with
  | some n => return n
  | none =>
    match integer? (values name).toList with
    | some n => return n
    | none => throw ("Illegal number: " ++ values name)

/-- The rank of a binary operator; a higher one binds more tightly. -/
def rank? (mark : String) : Option Nat :=
  if ["*", "/", "%"].contains mark then some 8
  else if ["+", "-"].contains mark then some 7
  else if ["<<", ">>"].contains mark then some 6
  else if ["<", "<=", ">", ">="].contains mark then some 5
  else if ["==", "!="].contains mark then some 4
  else if mark = "&" then some 3
  else if mark = "^" then some 2
  else if mark = "|" then some 1
  else none

def truth (b : Bool) : Int := if b then 1 else 0

/-- The value of a binary operator. Where nothing is to be evaluated, a division by zero is none. -/
def apply (dry : Bool) (mark : String) (a b : Int) : Except String Int :=
  let shift := (b % 64).toNat
  match mark with
  | "*" => .ok (wrap (a * b))
  | "/" => if b ≠ 0 then .ok (wrap (a.tdiv b)) else if dry then .ok 0 else zero
  | "%" => if b ≠ 0 then .ok (wrap (a.tmod b)) else if dry then .ok 0 else zero
  | "+" => .ok (wrap (a + b))
  | "-" => .ok (wrap (a - b))
  | "<<" => .ok (wrap (a * Int.pow 2 shift))
  | ">>" => .ok (a.fdiv (Int.pow 2 shift))
  | "<" => .ok (truth (a < b))
  | "<=" => .ok (truth (a ≤ b))
  | ">" => .ok (truth (b < a))
  | ">=" => .ok (truth (b ≤ a))
  | "==" => .ok (truth (a = b))
  | "!=" => .ok (truth (a ≠ b))
  | "&" => .ok (bitwise (· &&& ·) a b)
  | "^" => .ok (bitwise (· ^^^ ·) a b)
  | _ => .ok (bitwise (· ||| ·) a b)
where
  zero : Except String Int := .error "division by zero"

/-- The operator of an assignment, if the mark is one. -/
def assigning? (mark : String) : Option String :=
  if mark = "=" then some ""
  else if ["+=", "-=", "*=", "/=", "%=", "<<=", ">>=", "&=", "^=", "|="].contains mark then
    some (String.ofList mark.toList.dropLast)
  else none

mutual

/-- A number, a name, a sign or an expression in parentheses. -/
def primary (values : Valuation) : Nat → Bool → Calculation Int
  | 0, _ => throw "expecting primary"
  | fuel + 1, dry => do
    let t ← next?
    advance
    match t with
    | some (.number n) => return n
    | some (.name s) => if dry then return 0 else value values s
    | some (.mark "(") =>
      let n ← expression values fuel dry
      if (← next?) = some (.mark ")") then
        advance
        return n
      else throw "expecting ')'"
    | some (.mark "+") => primary values fuel dry
    | some (.mark "-") => return wrap (-(← primary values fuel dry))
    | some (.mark "!") => return truth ((← primary values fuel dry) = 0)
    | some (.mark "~") => return -(← primary values fuel dry) - 1
    | _ => throw "expecting primary"

/-- An operand and the binary operators after it of at least the given rank. -/
def binary (values : Valuation) : Nat → Nat → Bool → Calculation Int
  | 0, _, _ => throw "expecting primary"
  | fuel + 1, least, dry => do moreBinary values fuel least dry (← primary values fuel dry)

/-- The binary operators of at least the given rank after a value. -/
def moreBinary (values : Valuation) : Nat → Nat → Bool → Int → Calculation Int
  | 0, _, _, n => return n
  | fuel + 1, least, dry, n => do
    match ← next? with
    | some (.mark m) =>
      match rank? m with
      | some rank =>
        if least ≤ rank then
          advance
          let k ← binary values fuel (rank + 1) dry
          moreBinary values fuel least dry (← apply dry m n k)
        else return n
      | none => return n
    | _ => return n

/-- Operands joined by `&&`. -/
def conjunction (values : Valuation) : Nat → Bool → Calculation Int
  | 0, _ => throw "expecting primary"
  | fuel + 1, dry => do
    let n ← binary values fuel 1 dry
    if (← next?) = some (.mark "&&") then
      advance
      let k ← conjunction values fuel (dry || n = 0)
      return truth (n ≠ 0 ∧ k ≠ 0)
    else return n

/-- Operands joined by `||`. -/
def disjunction (values : Valuation) : Nat → Bool → Calculation Int
  | 0, _ => throw "expecting primary"
  | fuel + 1, dry => do
    let n ← conjunction values fuel dry
    if (← next?) = some (.mark "||") then
      advance
      let k ← disjunction values fuel (dry || n ≠ 0)
      return truth (n ≠ 0 ∨ k ≠ 0)
    else return n

/-- A condition with two values. -/
def conditional (values : Valuation) : Nat → Bool → Calculation Int
  | 0, _ => throw "expecting primary"
  | fuel + 1, dry => do
    let n ← disjunction values fuel dry
    if (← next?) = some (.mark "?") then
      advance
      let yes ← expression values fuel (dry || n = 0)
      if (← next?) = some (.mark ":") then
        advance
        let no ← conditional values fuel (dry || n ≠ 0)
        return if n ≠ 0 then yes else no
      else throw "expecting ':'"
    else return n

/-- An assignment or a condition. -/
def expression (values : Valuation) : Nat → Bool → Calculation Int
  | 0, _ => throw "expecting primary"
  | fuel + 1, dry => do
    match (← get).tokens with
    | .name s :: .mark m :: _ =>
      match assigning? m with
      | some operator =>
        advance
        advance
        let n ← expression values fuel dry
        if dry then return n
        else
          let n ← if operator = "" then pure n else apply false operator (← value values s) n
          modify fun st => { st with assigned := (s, n) :: st.assigned }
          return n
      | none => conditional values fuel dry
    | _ => conditional values fuel dry

end

/-- The value of an expression, and the variables that it sets, in order. -/
def evaluate (values : Valuation) (s : List Char) : Except String (Int × List (String × Int)) := do
  let list := tokens (s.length + 1) s
  let read : Calculation Int := do
    let n ← expression values (12 * list.length + 12) false
    if (← next?).isSome then throw "expecting EOF" else return n
  let (n, state) ← read.run ⟨list, []⟩
  return (n, state.assigned.reverse)

end LayoutShell.Host.Arithmetic
