/-!
# Scripts of the host

Commands of the host are written in a command language. A script is the tree of such a text: words
with quotes and expansions, pipelines, lists, conditions, loops, functions and redirections.

* `Part` is a piece of a word, and `Use` says what is taken of a parameter.
* `Script` is a command of any kind.
-/

namespace LayoutShell.Host

/-- What stands in for a parameter. -/
inductive Substitute
  /-- A word, if the parameter is not set. -/
  | fallback
  /-- A word that is also assigned to it, if it is not set. -/
  | assign
  /-- An error with a word as its message, if it is not set. -/
  | complain
  /-- A word, if it is set, and nothing otherwise. -/
  | alternative
  deriving DecidableEq

/-- How a file is opened. -/
inductive Mode
  | read
  | write
  | append
  /-- Like `write`, even where that must not replace a file. -/
  | replace
  | readWrite
  deriving DecidableEq

mutual

/-- A piece of a word. -/
inductive Part
  /-- Literal text; quoted text is taken as it is. -/
  | text (quoted : Bool) (content : List Char)
  /-- The value of a parameter. -/
  | parameter (quoted : Bool) (name : String) (use : Use)
  /-- The value of an arithmetic expression. -/
  | arithmetic (quoted : Bool) (body : List Part)
  /-- The output of a script. -/
  | output (quoted : Bool) (script : Script)

/-- What is taken of a parameter. -/
inductive Use
  | value
  | length
  /-- Its value or a word; `ifEmpty` treats an empty value like a missing one. -/
  | substitute (kind : Substitute) (ifEmpty : Bool) (word : List Part)
  /-- Its value without the shortest or longest part that matches a pattern, at its start or its
  end. -/
  | trim (atEnd longest : Bool) (pattern : List Part)
  /-- Nothing, since the expansion is malformed. -/
  | malformed

/-- A change of a stream. -/
inductive Redirect
  /-- Connects a stream with a file. -/
  | file (stream : Nat) (mode : Mode) (path : List Part)
  /-- Makes a stream the same as another, or closes it. -/
  | copy (stream : Nat) (source : List Part)
  /-- Lets a stream read the document with a number. -/
  | document (stream number : Nat)

/-- A command. -/
inductive Script
  /-- Parameters to set, and a command with its arguments. -/
  | simple (line : Nat) (assignments : List (String × List Part)) (words : List (List Part))
    (redirects : List Redirect)
  /-- Commands one after another. -/
  | sequence (commands : List Script)
  | and (first second : Script)
  | or (first second : Script)
  /-- Commands that read each other's output. -/
  | pipe (stages : List Script)
  | negate (body : Script)
  | background (body : Script)
  /-- A command whose changes are lost. -/
  | subshell (body : Script)
  | redirected (line : Nat) (body : Script) (redirects : List Redirect)
  | branch (condition yes no : Script)
  /-- Repeats the body while the condition has the status `goOn`. -/
  | loop (goOn : Bool) (condition body : Script)
  /-- Repeats the body for each word, or for each argument if no words are given. -/
  | each (line : Nat) (name : String) (words? : Option (List (List Part))) (body : Script)
  /-- Chooses the first case with a pattern that matches. -/
  | choose (line : Nat) (subject : List Part) (cases : List (List (List Part) × Script))
  /-- Defines a function. -/
  | define (name : String) (body : Script)

end

instance : Inhabited Part := ⟨.text false []⟩

/-- A script that does nothing. -/
def Script.skip : Script := .sequence []

/-- There is nothing in a script. -/
def Script.isSkip : Script → Bool
  | .sequence [] => true
  | _ => false

instance : Inhabited Script := ⟨.skip⟩

/-- A word with its quotes and expansions. -/
abbrev Word := List Part

/-! ## Names -/

def isNameStart (c : Char) : Bool := c.isAlpha || c == '_'

def isNameChar (c : Char) : Bool := c.isAlphanum || c == '_'

def isName (s : List Char) : Bool :=
  match s with
  | [] => false
  | c :: rest => isNameStart c && rest.all isNameChar

/-- Parameters whose names are single marks. -/
def isSpecialParameter (c : Char) : Bool := "*@#?$!-".toList.contains c

/-! ## Words -/

namespace Word

/-- Joins neighbouring texts of the same kind. -/
def merge : Word → Word
  | [] => []
  | .text q a :: rest =>
    match merge rest with
    | .text q' b :: rest' =>
      if q = q' ∧ !a.isEmpty ∧ !b.isEmpty then .text q (a ++ b) :: rest'
      else .text q a :: .text q' b :: rest'
    | rest' => .text q a :: rest'
  | part :: rest => part :: merge rest

/-- The text of a word without quotes and expansions. -/
def plain? : Word → Option String
  | [.text false s] => some (String.ofList s)
  | _ => none

/-- The text of a word without expansions. -/
def literal? : Word → Option (List Char)
  | [] => some []
  | .text _ s :: rest => (literal? rest).map (s ++ ·)
  | _ => none

/-- Some text of the word is quoted. -/
def isQuoted (w : Word) : Bool :=
  w.any fun
    | .text quoted _ | .parameter quoted _ _ | .arithmetic quoted _ | .output quoted _ => quoted

/-- A word `name=value` taken apart. -/
def assignment? : Word → Option (String × Word)
  | .text false s :: rest =>
    let name := s.takeWhile isNameChar
    match s.drop name.length with
    | '=' :: value =>
      if isName name then
        some (String.ofList name, if value.isEmpty then rest else .text false value :: rest)
      else none
    | _ => none
  | _ => none

end Word

end LayoutShell.Host
