import LayoutShell.Host.Arithmetic
import LayoutShell.Host.Machine

/-!
# Conditions

The conditions that `test` decides: about texts, integers and files, joined by `-a`, `-o`, `!` and
parentheses. A word that could be an operator is one only where an operator makes sense.

* `Condition.holds` decides the condition that some words express, or says what is wrong with it.
-/

namespace LayoutShell.Host

open Files

/-! ## Files -/

/-- What stands at a path, as far as conditions ask for it. -/
inductive FileKind
  | missing
  | directory
  | file (isEmpty isProgram : Bool)
  | device
  deriving DecidableEq

/-- The programs of the system, by the paths they have. -/
def programName? (path : ByteString) : Option String :=
  ["/bin/", "/usr/bin/"].findSome? fun start =>
    let name := path.toList.drop start.length
    if start.toList.isPrefixOf path.toList ∧ !name.contains '/' then some (String.ofList name)
    else none

def withoutLastSlash (path : ByteString) : ByteString :=
  match path.toList.reverse with
  | '/' :: c :: rest => String.ofList (c :: rest).reverse
  | _ => path

/-- What a path designates. -/
def fileKind (isProgram : String → Bool) (m : Machine) (path : ByteString) : FileKind :=
  let full := resolveFrom m.here path
  match m.tree.entryAt full with
  | .ok .directory => .directory
  | .ok (.file content) =>
    let runs := match m.tree.locate full with
      | .ok l => m.tree.programs.contains l
      | .error _ => false
    .file content.isEmpty runs
  | _ =>
    if (device? path).isSome then .device
    else if systemDirectories.contains (withoutLastSlash path) then .directory
    else if (programName? path).any isProgram then .file false true
    else .missing

/-- A path names a link. -/
def isLink (m : Machine) (path : ByteString) : Bool :=
  match m.tree.locateEntry (resolveFrom m.here path) with
  | .ok l => (m.tree.entry? l matches some (.link _))
  | .error _ => false

/-- Two paths designate the same thing. -/
def isSame (m : Machine) (a b : ByteString) : Bool :=
  match m.tree.locate (resolveFrom m.here a), m.tree.locate (resolveFrom m.here b) with
  | .ok l, .ok l' => l = l'
  | _, _ => false

/-! ## Conditions -/

namespace Condition

/-- What conditions are about. -/
structure World where
  kind : ByteString → FileKind
  isLink : ByteString → Bool
  isSame : ByteString → ByteString → Bool

def unaryOperators : List String :=
  ["-r", "-w", "-x", "-e", "-f", "-d", "-c", "-b", "-p", "-u", "-g", "-k", "-s", "-t", "-z", "-n",
    "-h", "-O", "-G", "-L", "-S"]

def binaryOperators : List String :=
  ["=", "!=", "<", ">", "-eq", "-ne", "-ge", "-gt", "-le", "-lt", "-nt", "-ot", "-ef"]

/-- The role of a word. -/
inductive Role
  | missing
  | operand
  | unary
  | binary
  | not
  | and
  | or
  | opening
  | closing
  deriving DecidableEq

/-- The role that the first word has before the others. -/
def role : List ByteString → Role
  | [] => .missing
  | word :: rest =>
    if unaryOperators.contains word then
      match rest with
      | [] => .operand
      | [_] => .unary
      | next :: _ => if binaryOperators.contains next then .operand else .unary
    else if binaryOperators.contains word then .binary
    else if word = "!" then .not
    else if word = "-a" then .and
    else if word = "-o" then .or
    else if word = "(" then if rest.isEmpty then .operand else .opening
    else if word = ")" then .closing
    else .operand

/-- An integer in decimal form. -/
def integer (s : ByteString) : Except String Int :=
  let body := s.toList.dropWhile Arithmetic.isSpace
  let (negative, digits) := match body with
    | '-' :: rest => (true, rest)
    | '+' :: rest => (false, rest)
    | body => (false, body)
  let taken := digits.takeWhile Char.isDigit
  let n := Arithmetic.numeral 10 taken
  if taken.isEmpty ∨ !(digits.drop taken.length).all Arithmetic.isSpace ∨
      Arithmetic.greatest < n then
    .error ("Illegal number: " ++ s)
  else .ok (if negative then -n else n)

def unary (w : World) (operator argument : ByteString) : Bool :=
  let kind := w.kind argument
  match operator with
  | "-z" => argument.isEmpty
  | "-n" => !argument.isEmpty
  | "-h" | "-L" => w.isLink argument
  | "-d" => kind = .directory
  | "-f" => (kind matches .file _ _)
  | "-c" => kind = .device
  | "-s" =>
    match kind with
    | .file isEmpty _ => !isEmpty
    | .directory => true
    | _ => false
  | "-x" =>
    match kind with
    | .file _ isProgram => isProgram
    | .directory => true
    | _ => false
  | "-e" | "-r" | "-w" | "-O" | "-G" => kind ≠ .missing
  | _ => false

def binary (w : World) (a operator b : ByteString) : Except String Bool :=
  let compare := fun (f : Int → Int → Bool) => do return f (← integer a) (← integer b)
  match operator with
  | "=" => .ok (a = b)
  | "!=" => .ok (a ≠ b)
  | "<" => .ok (a < b)
  | ">" => .ok (b < a)
  | "-eq" => compare fun x y => x = y
  | "-ne" => compare fun x y => x ≠ y
  | "-ge" => compare fun x y => y ≤ x
  | "-gt" => compare fun x y => y < x
  | "-le" => compare fun x y => x ≤ y
  | "-lt" => compare fun x y => x < y
  | "-ef" => .ok (w.isSame a b)
  | _ => .ok false

mutual

/-- Conditions joined by `-o`. The words that are left begin with the last one that was used. -/
def disjunction (w : World) : Nat → Role → List ByteString →
    Except String (Bool × List ByteString)
  | 0, _, words => .ok (false, words)
  | fuel + 1, r, words => do
    let (a, words) ← conjunction w fuel r words
    if role words.tail = .or then
      let words := words.drop 2
      let (b, words) ← disjunction w fuel (role words) words
      return (a || b, words)
    else return (a, words)

/-- Conditions joined by `-a`. -/
def conjunction (w : World) : Nat → Role → List ByteString →
    Except String (Bool × List ByteString)
  | 0, _, words => .ok (false, words)
  | fuel + 1, r, words => do
    let (a, words) ← negation w fuel r words
    if role words.tail = .and then
      let words := words.drop 2
      let (b, words) ← conjunction w fuel (role words) words
      return (a && b, words)
    else return (a, words)

def negation (w : World) : Nat → Role → List ByteString → Except String (Bool × List ByteString)
  | 0, _, words => .ok (false, words)
  | fuel + 1, r, words =>
    if r = .not then do
      let next := role words.tail
      let words := if next = .missing then words else words.tail
      let (a, words) ← negation w fuel next words
      return (!a, words)
    else primary w fuel r words

def primary (w : World) : Nat → Role → List ByteString → Except String (Bool × List ByteString)
  | 0, _, words => .ok (false, words)
  | fuel + 1, r, words => do
    match r, words with
    | .missing, words => return (false, words)
    | .opening, _ :: words =>
      let r := role words
      if r = .closing then return (false, words)
      else
        let (a, words) ← disjunction w fuel r words
        if role words.tail = .closing then return (a, words.tail)
        else throw "closing paren expected"
    | .unary, operator :: words =>
      match words with
      | [] => throw (operator ++ ": argument expected")
      | argument :: _ => return (unary w operator argument, words)
    | _, a :: words =>
      match role words, words with
      | .binary, operator :: rest =>
        match rest with
        | [] => throw (operator ++ ": argument expected")
        | b :: _ => return (← binary w a operator b, rest)
      | _, _ => return (!a.isEmpty, a :: words)
    | _, [] => return (false, [])

end

/-- Decides a condition from the role of its first word on. -/
def decideFrom (w : World) (r : Role) (words : List ByteString) : Except String Bool := do
  let (a, rest) ← disjunction w (4 * words.length + 4) r words
  match rest with
  | word :: _ :: _ => throw (word ++ ": unexpected operator")
  | _ => return a

/-- Decides the condition that words express. Three or four words have a reading of their own. -/
def holds (w : World) : Nat → List ByteString → Except String Bool
  | 0, _ | _, [] => .ok false
  | fuel + 1, words =>
    let isBinary := match words with
      | [_, operator, _] => binaryOperators.contains operator
      | _ => false
    if isBinary then decideFrom w .operand words
    else if words.length = 3 ∨ words.length = 4 then
      if words.head? = some "(" ∧ words.getLast? = some ")" then
        let inside := words.tail.dropLast
        decideFrom w (role inside) inside
      else if words.head? = some "!" then do return !(← holds w fuel words.tail)
      else decideFrom w (role words) words
    else decideFrom w (role words) words

end Condition

end LayoutShell.Host
