import LayoutShell.Host.Program
import LayoutShell.Host.Program.Quoting

/-!
# Options of programs

Programs take options and operands. An option is a letter after a hyphen, or a name after two; it
may have an argument. Options may stand between operands, and after `--` everything is an
operand.

* `OptionTable` lists the options of a program.
* `OptionTable.parse` takes arguments apart, and `withOptions` runs a program on the result.
-/

namespace LayoutShell.Host

/-- Whether an option has an argument. -/
inductive Arity
  | none
  | required
  | optional
  deriving DecidableEq

/-- The options of a program. -/
structure OptionTable where
  /-- The letters. A colon after a letter says that it takes an argument, and two that it may. -/
  letters : String
  /-- The names, with the letters that they stand for. -/
  names : List (String × Char) := []
  /-- Options may stand between operands. -/
  mixed : Bool := true

/-- Arguments taken apart. -/
structure Options where
  given : List (Char × Option ByteString) := []
  operands : List ByteString := []

namespace Options

def has (o : Options) (c : Char) : Bool := o.given.any (·.1 = c)

/-- The argument of an option where it is given last. -/
def argument? (o : Options) (c : Char) : Option ByteString :=
  (o.given.reverse.find? (·.1 = c)).bind (·.2)

/-- The arguments of an option, in order. -/
def arguments (o : Options) (c : Char) : List ByteString :=
  o.given.filterMap fun (d, value?) => if d = c then value? else none

/-- The last one given of some options. -/
def last? (o : Options) (letters : List Char) : Option Char :=
  (o.given.reverse.find? fun (c, _) => letters.contains c).map (·.1)

def give (o : Options) (c : Char) (value? : Option ByteString) : Options :=
  { o with given := o.given ++ [(c, value?)] }

end Options

namespace OptionTable

def arityIn (c : Char) : List Char → Option Arity
  | [] => none
  | d :: rest =>
    if d = c ∧ c ≠ ':' then
      match rest with
      | ':' :: ':' :: _ => some .optional
      | ':' :: _ => some .required
      | _ => some .none
    else arityIn c rest

def arity? (t : OptionTable) (c : Char) : Option Arity := arityIn c t.letters.toList

/-- The letters of one argument. -/
def parseLetters (t : OptionTable) (o : Options) :
    List Char → List ByteString → Except String (Options × List ByteString)
  | [], rest => .ok (o, rest)
  | c :: more, rest =>
    match t.arity? c with
    | none => .error ("invalid option -- '" ++ c.toString ++ "'")
    | some .none => t.parseLetters (o.give c none) more rest
    | some .optional =>
      .ok (o.give c (if more.isEmpty then none else some (String.ofList more)), rest)
    | some .required =>
      if !more.isEmpty then .ok (o.give c (some (String.ofList more)), rest)
      else
        match rest with
        | value :: rest => .ok (o.give c (some value), rest)
        | [] => .error ("option requires an argument -- '" ++ c.toString ++ "'")

/-- The options that a name can stand for. -/
def named (t : OptionTable) (name : String) : List (String × Char) :=
  match t.names.find? (·.1 = name) with
  | some option => [option]
  | none => t.names.filter fun option => name.toList.isPrefixOf option.1.toList

/-- An option with a name. -/
def parseName (t : OptionTable) (o : Options) (text : List Char) (rest : List ByteString) :
    Except String (Options × List ByteString) :=
  let name := String.ofList (text.takeWhile (· ≠ '='))
  let value? := if name.length < text.length then
      some (String.ofList (text.drop (name.length + 1)))
    else none
  match t.named name with
  | [] => .error ("unrecognized option '--" ++ name ++ "'")
  | (full, c) :: others =>
    if others.any (·.2 ≠ c) then
      let list := ((full, c) :: others).map fun option => " '--" ++ option.1 ++ "'"
      .error ("option '--" ++ name ++ "' is ambiguous; possibilities:" ++ String.join list)
    else
      match t.arity? c, value?, rest with
      | some .required, none, value :: rest => .ok (o.give c (some value), rest)
      | some .required, none, [] => .error ("option '--" ++ full ++ "' requires an argument")
      | some .none, some _, _ => .error ("option '--" ++ full ++ "' doesn't allow an argument")
      | _, value?, rest => .ok (o.give c value?, rest)

/-- Takes arguments apart, after what is taken apart already. -/
def parseFrom (t : OptionTable) : Nat → Options → List ByteString → Except String Options
  | 0, o, args => .ok { o with operands := o.operands ++ args }
  | _, o, [] => .ok o
  | fuel + 1, o, arg :: rest =>
    match arg.toList with
    | ['-', '-'] => .ok { o with operands := o.operands ++ rest }
    | '-' :: '-' :: name => do
      let (o, rest) ← t.parseName o name rest
      t.parseFrom fuel o rest
    | '-' :: c :: more => do
      let (o, rest) ← t.parseLetters o (c :: more) rest
      t.parseFrom fuel o rest
    | _ =>
      if t.mixed then t.parseFrom fuel { o with operands := o.operands ++ [arg] } rest
      else .ok { o with operands := o.operands ++ arg :: rest }

/-- Takes arguments apart. -/
def parse (t : OptionTable) (args : List ByteString) : Except String Options :=
  t.parseFrom (args.length + 1) {} args

end OptionTable

/-! ## Messages -/

/-- A text between quotes, as messages show it. -/
def inQuotes (s : ByteString) : String :=
  let shown := s.toList.flatMap fun c =>
    if c = '\'' ∨ c = '\\' then ['\\', c]
    else if nameChar false c = .unprintable then nameEscape c
    else [c]
  "'" ++ String.ofList shown ++ "'"

/-- Says what is wrong, and gives the status of a failure. -/
def blame (program : String) (status : Nat) (message : String) : Run Nat := do
  warn (program ++ ": " ++ message)
  return status

/-- Says what is wrong with the arguments, and where to read about them. -/
def blameUse (program : String) (status : Nat) (message : String) : Run Nat := do
  warn (program ++ ": " ++ message)
  warn ("Try '" ++ program ++ " --help' for more information.")
  return status

/-- Runs a program on its options. -/
def withOptions (program : String) (t : OptionTable) (status : Nat) (args : List ByteString)
    (act : Options → Run Nat) : Run Nat :=
  match t.parse args with
  | .ok o => act o
  | .error message => blameUse program status message

/-- Does something for each argument; the status says whether all went well. -/
def forAll (args : List ByteString) (act : ByteString → Run Nat) : Run Nat := do
  let mut status := 0
  for arg in args do
    status := max status (← act arg)
  return status

/-- What a file operand stands for: its content, or that of the first stream. -/
def readOperand (path : ByteString) : Run (Except Files.FileError (List Char)) := do
  if path = "-" then return .ok (← readRest 0) else readFile path

end LayoutShell.Host
