import LayoutShell.Host.Printing
import LayoutShell.Host.Regex

/-!
# Regular expressions as texts

Regular expressions are written in two ways. In the basic one groups, intervals and alternatives
need a backslash, in the extended one their plain characters do.

* `Regex.parse` reads an expression, or says what is wrong with it.
-/

namespace LayoutShell.Host.Regex

/-- How an expression is written. -/
structure Style where
  extended : Bool
  /-- Escapes stand for control characters. -/
  escapes : Bool := false
  /-- Marks that make no sense where they stand are taken as they are, or skipped. -/
  lenient : Bool := false

/-- What is left of an expression, and the number of groups so far. -/
structure Source where
  rest : List Char
  groups : Nat := 0
  /-- The groups that are complete. -/
  closed : List Nat := []

abbrev Parser := StateT Source (Except String)

def remaining : Parser (List Char) := return (← get).rest

def moveTo (rest : List Char) : Parser Unit := modify fun s => { s with rest := rest }

/-- The control character that an escape stands for. -/
def controlEscape? : List Char → Option (Char × List Char)
  | 'n' :: rest => some ('\n', rest)
  | 't' :: rest => some ('\t', rest)
  | 'f' :: rest => some ('\x0c', rest)
  | 'v' :: rest => some ('\x0b', rest)
  | 'a' :: rest => some ('\x07', rest)
  | 'r' :: rest => some ('\r', rest)
  | 'd' :: a :: b :: c :: rest =>
    if [a, b, c].all Char.isDigit then
      some (Char.ofNat (Arithmetic.numeral 10 [a, b, c] % 256), rest)
    else none
  | 'o' :: a :: b :: c :: rest =>
    if [a, b, c].all isOctal then
      some (Char.ofNat (Arithmetic.numeral 8 [a, b, c] % 256), rest)
    else none
  | 'x' :: a :: b :: rest =>
    if [a, b].all fun c => Arithmetic.digitValue c < 16 then
      some (Char.ofNat (Arithmetic.numeral 16 [a, b]), rest)
    else none
  | _ => none

/-! ## Brackets -/

/-- The text up to a mark and a closing bracket. -/
def upToMark (mark : Char) : List Char → Option (List Char × List Char)
  | [] => none
  | c :: rest =>
    if c = mark ∧ rest.head? = some ']' then some ([], rest.tail)
    else (upToMark mark rest).map fun (taken, rest) => (c :: taken, rest)

/-- The character that begins or ends a range, and the rest. -/
def rangeChar (style : Style) (s : List Char) : Option (Char × List Char) :=
  match s with
  | [] => none
  | '[' :: '.' :: rest | '[' :: '=' :: rest =>
    match upToMark (s.getD 1 '.') rest with
    | some ([c], rest) => some (c, rest)
    | _ => some ('[', s.tail)
  | '\\' :: rest =>
    match (if style.escapes then controlEscape? rest else none) with
    | some result => some result
    | none => some ('\\', rest)
  | c :: rest => some (c, rest)

def unmatchedBracket : String := "Unmatched [, [^, [:, [., or [="

/-- The choices up to the closing bracket. -/
def bracketChoices (style : Style) : Nat → Bool → List Char →
    Except String (List Choice × List Char)
  | 0, _, _ | _, _, [] => .error unmatchedBracket
  | fuel + 1, first, s =>
    match s with
    | ']' :: rest =>
      if !first then .ok ([], rest)
      else single fuel s
    | '[' :: ':' :: rest =>
      match upToMark ':' rest with
      | some (name, rest) =>
        let name := String.ofList name
        if (Choice.class? name).isSome then do
          let (choices, rest) ← bracketChoices style fuel false rest
          return (.named name :: choices, rest)
        else .error "Invalid character class name"
      | none => .error unmatchedBracket
    | s => single fuel s
where
  single (fuel : Nat) (s : List Char) : Except String (List Choice × List Char) :=
    match rangeChar style s with
    | none => .error unmatchedBracket
    | some (a, rest) =>
      match rest with
      | '-' :: ']' :: _ | '-' :: [] => do
        let (choices, rest) ← bracketChoices style fuel false rest
        return (.range a a :: choices, rest)
      | '-' :: more =>
        match rangeChar style more with
        | none => .error unmatchedBracket
        | some (b, rest) =>
          if b < a then .error "Invalid range end"
          else do
            let (choices, rest) ← bracketChoices style fuel false rest
            return (.range a b :: choices, rest)
      | _ => do
        let (choices, rest) ← bracketChoices style fuel false rest
        return (.range a a :: choices, rest)

/-- The expression after an opening bracket. -/
def bracket (style : Style) (s : List Char) : Except String (Regex × List Char) := do
  let (negated, s) := match s with
    | '^' :: rest => (true, rest)
    | s => (false, s)
  if s.isEmpty then throw "Invalid regular expression"
  let (choices, rest) ← bracketChoices style (s.length + 1) true s
  return (.choice negated choices, rest)

/-! ## Intervals -/

/-- The bounds before the closing brace, and the rest. -/
def bounds? (s : List Char) : Option ((Nat × Option Nat) × List Char) :=
  let low := s.takeWhile Char.isDigit
  match s.drop low.length with
  | ',' :: rest =>
    let high := rest.takeWhile Char.isDigit
    let most? := if high.isEmpty then none else some (Arithmetic.numeral 10 high)
    some ((Arithmetic.numeral 10 low, most?), rest.drop high.length)
  | rest =>
    if low.isEmpty then none
    else
      let n := Arithmetic.numeral 10 low
      some ((n, some n), rest)

/-- What is wrong with an interval. -/
inductive IntervalError
  | malformed
  | unfinished
  /-- The bounds are in the wrong order. -/
  | backwards
  | tooBig
  deriving DecidableEq

def IntervalError.message : IntervalError → String
  | malformed | backwards => "Invalid content of \\\x7b\\\x7d"
  | unfinished => "Unmatched \\\x7b"
  | tooBig => "Regular expression too big"

/-- The interval after its opening brace. -/
def interval (style : Style) (s : List Char) :
    Except IntervalError ((Nat × Option Nat) × List Char) := do
  match bounds? s with
  | none => throw .malformed
  | some ((least, most?), rest) =>
    let rest ← match rest, style.extended with
      | '\x7d' :: rest, true => pure rest
      | '\\' :: '\x7d' :: rest, false => pure rest
      | [], _ => throw .unfinished
      | _, _ => throw .malformed
    if most?.any (· < least) then throw .backwards
    if 32767 < least ∨ most?.any (32767 < ·) then throw .tooBig
    return ((least, most?), rest)

/-! ## Expressions -/

/-- The end of a branch: the end of the text, an alternative, or the end of a group. -/
def atBranchEnd (style : Style) (depth : Nat) (s : List Char) : Bool :=
  match s, style.extended with
  | [], _ => true
  | '|' :: _, true => true
  | ')' :: _, true => 0 < depth
  | '\\' :: '|' :: _, false => true
  | '\\' :: ')' :: _, false => true
  | _, _ => false

/-- What a backslash and a character stand for, apart from groups and intervals. -/
def escaped (style : Style) (c : Char) (rest : List Char) : Parser Regex := do
  let space : Choice := .named "space"
  let word : List Choice := [.named "alnum", .range '_' '_']
  match c with
  | 'w' => return .choice false word
  | 'W' => return .choice true word
  | 's' => return .choice false [space]
  | 'S' => return .choice true [space]
  | 'b' => return .anchor .wordEdge
  | 'B' => return .anchor .noWordEdge
  | '<' => return .anchor .wordStart
  | '>' => return .anchor .wordEnd
  | '\x60' => return .anchor .textStart
  | '\'' => return .anchor .textEnd
  | c =>
    if c.isDigit ∧ c ≠ '0' then
      let n := c.toNat - '0'.toNat
      if (← get).closed.contains n then return .again n else throw "Invalid back reference"
    else
      match (if style.escapes then controlEscape? (c :: rest) else none) with
      | some (control, rest) =>
        moveTo rest
        return .char control
      | none => return .char c

/-- The operators after an expression. -/
def postfixed (style : Style) : Nat → Regex → Parser Regex
  | 0, r => return r
  | fuel + 1, r => do
    match ← remaining, style.extended with
    | '*' :: rest, _ =>
      moveTo rest
      postfixed style fuel (.repeated 0 none r)
    | '+' :: rest, true | '\\' :: '+' :: rest, false =>
      moveTo rest
      postfixed style fuel (.repeated 1 none r)
    | '?' :: rest, true | '\\' :: '?' :: rest, false =>
      moveTo rest
      postfixed style fuel (.repeated 0 (some 1) r)
    | '\\' :: '\x7b' :: rest, false =>
      match interval style rest with
      | .ok ((least, most?), rest) =>
        moveTo rest
        postfixed style fuel (.repeated least most? r)
      | .error e => throw e.message
    | '\x7b' :: rest, true =>
      match interval style rest with
      | .ok ((least, most?), rest) =>
        moveTo rest
        postfixed style fuel (.repeated least most? r)
      | .error e =>
        let plain := if style.lenient then e = .malformed ∨ e = .unfinished
          else !(rest.head?).any fun c => c.isDigit || c = ','
        if plain then return r else throw e.message
    | _, _ => return r

mutual

/-- Reads alternatives. -/
def alternatives (style : Style) : Nat → Nat → Parser Regex
  | 0, _ => throw "Regular expression too big"
  | fuel + 1, depth => do
    let first ← branch style fuel depth true
    match ← remaining, style.extended with
    | '|' :: rest, true | '\\' :: '|' :: rest, false =>
      moveTo rest
      return .either first (← alternatives style fuel depth)
    | _, _ => return first

/-- Reads expressions one after another; `first` says that nothing precedes them. -/
def branch (style : Style) : Nat → Nat → Bool → Parser Regex
  | 0, _, _ => throw "Regular expression too big"
  | fuel + 1, depth, first => do
    let s ← remaining
    if atBranchEnd style depth s then return .empty
    else
      let head ← piece style fuel depth first
      match head with
      | .anchor .lineStart => return .sequence head (← branch style fuel depth (!style.extended))
      | head => return .sequence head (← branch style fuel depth false)

/-- Reads one expression with its operators. -/
def piece (style : Style) : Nat → Nat → Bool → Parser Regex
  | 0, _, _ => throw "Regular expression too big"
  | fuel + 1, depth, first => do
    let s ← remaining
    let operators := postfixed style (s.length + 1)
    match s, style.extended with
    | [], _ => return .empty
    | '[' :: rest, _ =>
      let (r, rest) ← bracket style rest
      moveTo rest
      operators r
    | '.' :: rest, _ =>
      moveTo rest
      operators .any
    | '(' :: rest, true | '\\' :: '(' :: rest, false =>
      let n := (← get).groups + 1
      modify fun s => { s with rest := rest, groups := n }
      let body ← alternatives style fuel (depth + 1)
      match ← remaining, style.extended with
      | ')' :: rest, true | '\\' :: ')' :: rest, false =>
        modify fun s => { s with rest := rest, closed := n :: s.closed }
        operators (.group n body)
      | _, _ => throw "Unmatched ( or \\("
    | ')' :: rest, true =>
      if style.lenient then
        moveTo rest
        operators (.char ')')
      else throw "Unmatched ) or \\)"
    | '*' :: rest, false =>
      moveTo rest
      operators (.char '*')
    | '*' :: rest, true | '+' :: rest, true | '?' :: rest, true =>
      if style.lenient then
        moveTo rest
        piece style fuel depth first
      else throw "Invalid preceding regular expression"
    | '^' :: rest, extended =>
      moveTo rest
      if extended then operators (.anchor .lineStart)
      else if first then return .anchor .lineStart
      else operators (.char '^')
    | '$' :: rest, extended =>
      moveTo rest
      if extended then operators (.anchor .lineEnd)
      else if atBranchEnd style depth rest then return .anchor .lineEnd
      else operators (.char '$')
    | '\\' :: [], _ => throw "Trailing backslash"
    | '\\' :: c :: rest, extended =>
      moveTo rest
      if !extended ∧ c = '\x7b' then
        if first then throw "Invalid preceding regular expression" else operators (.char '\x7b')
      else operators (← escaped style c rest)
    | c :: rest, _ =>
      moveTo rest
      operators (.char c)

end

/-- Reads an expression; gives also the number of its groups. -/
def parse (style : Style) (s : List Char) : Except String (Regex × Nat) := do
  let (r, rest) ← (alternatives style (4 * s.length + 8) 0).run { rest := s }
  match rest.rest with
  | [] => return (r, rest.groups)
  | _ => throw "Unmatched ) or \\)"

end LayoutShell.Host.Regex
