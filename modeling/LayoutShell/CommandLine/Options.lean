import LayoutShell.Session.Environment

/-!
# Options of the command line

Options have a long name after two dashes, or a letter after one. Several letters may stand
together. A value stands in the same argument, with or without an equals sign after a letter, or is
the next argument, if that does not look like an option. Arguments are taken from left to right, and
the first that is refused or that asks for a text decides.

* `Request.parse` reads the arguments.
-/

namespace LayoutShell.CommandLine

open Session

/-- What the options say. -/
structure Options where
  /-- The settings file. -/
  config? : Option String := none
  /-- Parameters for the environment, in order. -/
  env : List (String × String) := []
  verbose : Bool := false
  quiet : Bool := false
  deriving DecidableEq

/-- What the command line asks for. -/
inductive Request
  | help
  | version
  | session (options : Options)
  deriving DecidableEq

/-- Why arguments are refused. -/
inductive UsageError
  | unknown (argument : String)
  | missingValue
  | unexpectedValue (value : String)
  | repeated
  | invalidValue (text : String)
  deriving DecidableEq

def UsageError.message : UsageError → String
  | unknown argument => "error: unexpected argument '" ++ argument ++ "' found"
  | missingValue => "error: a value is required but none was supplied"
  | unexpectedValue value => "error: unexpected value '" ++ value ++ "' found"
  | repeated => "error: an option cannot be used multiple times"
  | invalidValue text => "error: invalid value '" ++ text ++ "'"

/-- The options that have a value. -/
inductive Valued
  | config
  | env
  deriving DecidableEq

/-- What an option's name stands for. -/
inductive Meaning
  | valued (option : Valued)
  | verbose
  | quiet
  | help
  | version
  deriving DecidableEq

def Meaning.ofName? (name : String) : Option Meaning :=
  [("config", .valued .config), ("env", .valued .env), ("verbose", .verbose), ("quiet", .quiet),
    ("help", .help), ("version", .version)].lookup name

def Meaning.ofLetter? (c : Char) : Option Meaning :=
  [('c', .valued .config), ('e', .valued .env), ('v', .verbose), ('q', .quiet),
    ('h', .help), ('V', .version)].lookup c

/-- Where the reading of arguments stands. -/
inductive Progress
  | next (options : Options)
  /-- The next argument is the value of an option. -/
  | awaiting (option : Valued) (options : Options)
  /-- A text is asked for. -/
  | done (request : Request)

namespace Options

/-- Gives an option its value. There is one settings file at most, and its name is not empty. -/
def give (o : Options) (value : String) : Valued → Except UsageError Options
  | .config =>
    if o.config?.isSome then .error .repeated
    else if value.isEmpty then .error (.invalidValue value)
    else .ok { o with config? := some value }
  | .env =>
    match splitAssignment value.toList with
    | some (name, value) =>
      .ok { o with env := o.env ++ [(String.ofList name, String.ofList value)] }
    | none => .error (.invalidValue value)

/-- Takes an option without a value; flags are given once. -/
def take (o : Options) : Meaning → Except UsageError Progress
  | .valued option => .ok (.awaiting option o)
  | .verbose => if o.verbose then .error .repeated else .ok (.next { o with verbose := true })
  | .quiet => if o.quiet then .error .repeated else .ok (.next { o with quiet := true })
  | .help => .ok (.done .help)
  | .version => .ok (.done .version)

/-- Takes the letters after one dash. What follows the letter of an option with a value is its
value, an equals sign before it aside. -/
def takeLetters (o : Options) : List Char → Except UsageError Progress
  | [] => .ok (.next o)
  | c :: rest =>
    match Meaning.ofLetter? c, rest with
    | none, _ => .error (.unknown (String.ofList ['-', c]))
    | some (.valued option), '=' :: value => do return .next (← o.give (String.ofList value) option)
    | some (.valued option), _ :: _ => do return .next (← o.give (String.ofList rest) option)
    | some meaning, _ => do
      match ← o.take meaning with
      | .next o => takeLetters o rest
      | p => return p

/-- Takes the name after two dashes, and a value after an equals sign. -/
def takeLong (o : Options) (argument : List Char) : Except UsageError Progress :=
  let name := argument.takeWhile (· ≠ '=')
  match Meaning.ofName? (String.ofList name), argument.drop name.length with
  | none, _ => .error (.unknown (String.ofList argument))
  | some meaning, [] => o.take meaning
  | some (.valued option), _ :: value => do return .next (← o.give (String.ofList value) option)
  | some _, _ :: value => .error (.unexpectedValue (String.ofList value))

/-- Takes one argument that no option awaits. -/
def takeArgument (o : Options) (argument : String) : Except UsageError Progress :=
  match argument.toList with
  | '-' :: '-' :: rest => o.takeLong rest
  | '-' :: c :: rest => o.takeLetters (c :: rest)
  | _ => .error (.unknown argument)

end Options

/-- An argument that is taken for an option even where a value is awaited; a single dash is not. -/
def looksLikeOption (argument : String) : Bool :=
  match argument.toList with
  | '-' :: _ :: _ => true
  | _ => false

namespace Request

/-- Takes the arguments that are left. After two dashes alone no arguments are allowed. -/
def parseFrom : Progress → List String → Except UsageError Request
  | .done request, _ => .ok request
  | .next o, [] => .ok (.session o)
  | .awaiting _ _, [] => .error .missingValue
  | .awaiting option o, argument :: rest =>
    if looksLikeOption argument then .error .missingValue
    else do parseFrom (.next (← o.give argument option)) rest
  | .next o, argument :: rest =>
    if argument = "--" then
      match rest with
      | [] => .ok (.session o)
      | extra :: _ => .error (.unknown extra)
    else do parseFrom (← o.takeArgument argument) rest

/-- What the arguments ask for. -/
def parse (arguments : List String) : Except UsageError Request :=
  parseFrom (.next {}) arguments

end Request

end LayoutShell.CommandLine
