import LayoutShell.Host.Program.Filters
import LayoutShell.Host.Regex.Reading

/-!
# Programs that calculate

`seq` writes sequences of numbers, and `expr` evaluates expressions.
-/

namespace LayoutShell.Host.Program

open Files

/-! ## Sequences -/

/-- A decimal number: its digits as an integer, and how many of them follow the point. -/
structure Decimal where
  value : Int
  places : Nat

/-- Reads a decimal number, possibly with an exponent. -/
def decimal? (s : List Char) : Option Decimal :=
  let (negative, s) := match s.dropWhile Arithmetic.isSpace with
    | '-' :: rest => (true, rest)
    | '+' :: rest => (false, rest)
    | s => (false, s)
  let whole := s.takeWhile Char.isDigit
  let rest := s.drop whole.length
  let (fraction, rest) := match rest with
    | '.' :: rest => (rest.takeWhile Char.isDigit, rest.dropWhile Char.isDigit)
    | rest => ([], rest)
  let n : Int := Arithmetic.numeral 10 (whole ++ fraction)
  let n := if negative then -n else n
  if whole.isEmpty ∧ fraction.isEmpty then none
  else
    match rest with
    | [] => some ⟨n, fraction.length⟩
    | e :: rest =>
      if e ≠ 'e' ∧ e ≠ 'E' then none
      else
        let (down, digits) := match rest with
          | '-' :: rest => (true, rest)
          | '+' :: rest => (false, rest)
          | rest => (false, rest)
        if digits.isEmpty ∨ !digits.all Char.isDigit then none
        else
          let k := Arithmetic.numeral 10 digits
          if down then some ⟨n, fraction.length + k⟩
          else if k ≤ fraction.length then some ⟨n, fraction.length - k⟩
          else some ⟨n * Int.pow 10 (k - fraction.length), 0⟩

/-- The value in units of a decimal place. -/
def Decimal.scaled (d : Decimal) (places : Nat) : Int := d.value * Int.pow 10 (places - d.places)

/-- A number of units as a text with places after the point. -/
def unitsText (places : Nat) (n : Int) : List Char :=
  (if n < 0 then ['-'] else []) ++ placePoint places n.natAbs

/-- The numbers from one to another in steps. -/
def progression (last step : Int) : Nat → Int → List Int
  | 0, _ => []
  | fuel + 1, n =>
    if (0 < step ∧ last < n) ∨ (step < 0 ∧ n < last) then []
    else n :: progression last step fuel (n + step)

/-- Fills a number with zeros after its sign. -/
def fillZeros (width : Nat) (s : List Char) : List Char :=
  match s with
  | '-' :: digits => '-' :: fillLeft '0' (width - 1) digits
  | digits => fillLeft '0' width digits

/-- Arguments that are negative numbers are no options. -/
def protectNumbers (args : List ByteString) : List ByteString :=
  let isNumber := fun arg : ByteString =>
    match arg.toList with
    | '-' :: c :: _ => c.isDigit || c = '.'
    | _ => false
  let options := args.takeWhile fun arg => !isNumber arg
  let rest := args.drop options.length
  if rest.isEmpty ∨ options.contains "--" then args else options ++ "--" :: rest

def seq (args : List ByteString) : Run Nat :=
  withOptions "seq"
    ⟨"f:s:w", [("format", 'f'), ("separator", 's'), ("equal-width", 'w')], true⟩ 1
    (protectNumbers args) fun o => do
    match o.operands.find? fun s => (decimal? s.toList).isNone with
    | some bad => blameUse "seq" 1 ("invalid floating point argument: " ++ inQuotes bad)
    | none =>
      let one : Decimal := ⟨1, 0⟩
      let numbers := o.operands.filterMap fun s => decimal? s.toList
      match numbers with
      | [] => blameUse "seq" 1 "missing operand"
      | [last] => list o one one last
      | [first, last] => list o first one last
      | [first, step, last] =>
        if step.value = 0 then
          blameUse "seq" 1 ("invalid Zero increment value: " ++ inQuotes (o.operands.getD 1 ""))
        else list o first step last
      | _ => blameUse "seq" 1 ("extra operand " ++ inQuotes (o.operands.getD 3 ""))
where
  list (o : Options) (first step last : Decimal) : Run Nat := do
    let places := max first.places step.places
    let fine := max places last.places
    let (a, d, z) := (first.scaled fine, step.scaled fine, last.scaled fine)
    let count := if d = 0 then 0 else ((z - a).tdiv d).toNat + 2
    let values := progression z d count a
    let texts := values.map fun n => unitsText places (n / Int.pow 10 (fine - places))
    let texts := if o.has 'w' then
        let final := unitsText places (z / Int.pow 10 (fine - places))
        let width := max (unitsText places (first.scaled places)).length final.length
        texts.map (fillZeros width)
      else
        match o.argument? 'f' with
        | some format => texts.map fun s => (Format.print format [String.ofList s]).output
        | none => texts
    let separator := ((o.argument? 's').getD "\n").toList
    if !texts.isEmpty then say (separator.intercalate texts ++ ['\n'])
    return 0

/-! ## Expressions -/

/-- Why an expression has no value. -/
inductive ExprError
  | syntaxError (message : String)
  | notInteger
  | divisionByZero

def ExprError.message : ExprError → String
  | syntaxError message => "syntax error: " ++ message
  | notInteger => "non-integer argument"
  | divisionByZero => "division by zero"

abbrev Expr := StateT (List ByteString × ByteString) (Except ExprError)

/-- An integer in decimal form. -/
def exprInteger? (s : ByteString) : Option Int :=
  let (negative, digits) := match s.toList with
    | '-' :: digits => (true, digits)
    | digits => (false, digits)
  if digits.isEmpty ∨ !digits.all Char.isDigit then none
  else
    let n : Int := Arithmetic.numeral 10 digits
    some (if negative then -n else n)

def exprInteger (s : ByteString) : Expr Int :=
  match exprInteger? s with
  | some n => return n
  | none => throw .notInteger

/-- An empty text and zero count as nothing. -/
def isNull (s : ByteString) : Bool := s.isEmpty || exprInteger? s = some 0

def exprTruth (b : Bool) : ByteString := if b then "1" else "0"

def exprPeek : Expr (Option ByteString) := return (← get).1.head?

/-- Takes an argument. -/
def exprNext : Expr ByteString := do
  let (args, last) ← get
  match args with
  | [] => throw (.syntaxError ("missing argument after " ++ inQuotes last))
  | arg :: rest =>
    set (rest, arg)
    return arg

/-- Takes an argument if it is one of some operators. -/
def exprOperator? (operators : List String) : Expr (Option String) := do
  match ← exprPeek with
  | some arg =>
    if operators.contains arg then
      let _ ← exprNext
      return some arg
    else return none
  | none => return none

/-- What a text matches of an expression that begins with it: a group, or the length. -/
def exprMatch (s pattern : ByteString) : Except ExprError ByteString :=
  match Regex.parse ⟨false, false, false⟩ pattern.toList with
  | .error message => .error (.syntaxError message)
  | .ok (r, groups) =>
    let subject : Regex.Subject := { text := s.toList.toArray }
    match r.matchAt? subject 0 with
    | some p =>
      if groups = 0 then .ok (toString p.position)
      else
        let m : Regex.Match := ⟨0, p.position, p.groups⟩
        .ok (String.ofList (m.groupText subject 1))
    | none => .ok (if groups = 0 then "0" else "")

/-- Compares as integers if both are, and as texts otherwise. -/
def exprCompare (operator : String) (a b : ByteString) : Bool :=
  let order := match exprInteger? a, exprInteger? b with
    | some m, some n => compare m n
    | _, _ => compare a b
  match operator with
  | "<" => order = .lt
  | "<=" => order ≠ .gt
  | "=" | "==" => order = .eq
  | "!=" => order ≠ .eq
  | ">=" => order ≠ .lt
  | _ => order = .gt

/-- The operators from the weakest to the strongest. -/
def exprLevels : List (List String) :=
  [["|"], ["&"], ["<", "<=", "=", "==", "!=", ">=", ">"], ["+", "-"], ["*", "/", "%"], [":"]]

def exprApply (operator : String) (a b : ByteString) : Expr ByteString := do
  match operator with
  | "|" => return if isNull a then if isNull b then "0" else b else a
  | "&" => return if isNull a ∨ isNull b then "0" else a
  | ":" => exprMatch a b
  | "+" => return toString ((← exprInteger a) + (← exprInteger b))
  | "-" => return toString ((← exprInteger a) - (← exprInteger b))
  | "*" => return toString ((← exprInteger a) * (← exprInteger b))
  | "/" | "%" =>
    let m ← exprInteger a
    let n ← exprInteger b
    if n = 0 then throw .divisionByZero
    return toString (if operator = "/" then m.tdiv n else m.tmod n)
  | operator => return exprTruth (exprCompare operator a b)

mutual

/-- Evaluates operators of a level and stronger ones. -/
def exprLevel : Nat → List (List String) → Expr ByteString
  | 0, _ => throw (.syntaxError "too deep")
  | fuel + 1, [] => exprPrimary fuel
  | fuel + 1, operators :: stronger => do
    let first ← exprLevel fuel stronger
    exprMore fuel operators stronger first

def exprMore : Nat → List String → List (List String) → ByteString → Expr ByteString
  | 0, _, _, a => return a
  | fuel + 1, operators, stronger, a => do
    match ← exprOperator? operators with
    | none => return a
    | some operator =>
      let b ← exprLevel fuel stronger
      exprMore fuel operators stronger (← exprApply operator a b)

def exprPrimary : Nat → Expr ByteString
  | 0 => throw (.syntaxError "too deep")
  | fuel + 1 => do
    let arg ← exprNext
    match arg with
    | "(" =>
      let value ← exprLevel fuel exprLevels
      match (← get).1 with
      | ")" :: _ =>
        let _ ← exprNext
        return value
      | [] => throw (.syntaxError ("expecting ')' after " ++ inQuotes (← get).2))
      | other :: _ => throw (.syntaxError ("expecting ')' instead of " ++ inQuotes other))
    | ")" => throw (.syntaxError "unexpected ')'")
    | "+" => exprNext
    | "length" => return toString (← exprPrimary fuel).length
    | "match" =>
      let s ← exprPrimary fuel
      exprMatch s (← exprPrimary fuel)
    | "index" =>
      let s ← exprPrimary fuel
      let chars ← exprPrimary fuel
      return toString ((s.toList.findIdx? chars.toList.contains).elim 0 (· + 1))
    | "substr" =>
      let s ← exprPrimary fuel
      let position ← exprPrimary fuel
      let count ← exprPrimary fuel
      match exprInteger? position, exprInteger? count with
      | some i, some n =>
        if i ≤ 0 ∨ n ≤ 0 then return ""
        else return String.ofList ((s.toList.drop (i.toNat - 1)).take n.toNat)
      | _, _ => return ""
    | arg => return arg

end

def expr (args : List ByteString) : Run Nat := do
  let args := if args.head? = some "--" then args.tail else args
  if args.isEmpty then blameUse "expr" 2 "missing operand"
  else
    let evaluate : Expr ByteString := do
      let value ← exprLevel (8 * args.length + 16) exprLevels
      match (← get).1 with
      | [] => return value
      | extra :: _ => throw (.syntaxError ("unexpected argument " ++ inQuotes extra))
    match evaluate.run (args, "") with
    | .error e => blame "expr" 2 e.message
    | .ok (value, _) =>
      sayText (value ++ "\n")
      return if isNull value then 1 else 0

end LayoutShell.Host.Program
