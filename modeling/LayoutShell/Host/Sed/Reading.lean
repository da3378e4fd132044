import LayoutShell.Host.Regex.Reading
import LayoutShell.Host.Sed.Command

/-!
# Scripts of the stream editor as texts

* `Sed.parse` reads a script, or says where it is wrong and why.
-/

namespace LayoutShell.Host.Sed

/-- A part of a script: its text and how messages call it. -/
structure Fragment where
  text : List Char
  name : String
  /-- It is read from a file, so that messages count lines. -/
  isFile : Bool := false

/-- What is left of a script. -/
structure Source where
  rest : List Char
  /-- The number of characters that were read. -/
  count : Nat := 0
  script : Script := {}
  /-- The blocks that are open. -/
  blocks : List Nat := []
  extended : Bool := false

abbrev Parser := StateT Source (Except (Nat × String))

variable {α : Type}

def fail (message : String) : Parser α := do throw ((← get).count, message)

def peek : Parser (Option Char) := return (← get).rest.head?

/-- Takes a character. -/
def next : Parser (Option Char) := do
  let s ← get
  match s.rest with
  | [] => return none
  | c :: rest =>
    set { s with rest := rest, count := s.count + 1 }
    return some c

def skipWhile (p : Char → Bool) : Parser Unit :=
  modify fun s =>
    let taken := s.rest.takeWhile p
    { s with rest := s.rest.drop taken.length, count := s.count + taken.length }

def takeWhile (p : Char → Bool) : Parser (List Char) := do
  let taken := (← get).rest.takeWhile p
  skipWhile p
  return taken

def isSpace (c : Char) : Bool := c == ' ' || c == '\t' || c == '\r' || c == '\x0b' || c == '\x0c'

def number : Parser Nat := do return Arithmetic.numeral 10 (← takeWhile Char.isDigit)

/-! ## Delimited texts -/

/-- The text up to a delimiter. A backslash before it makes it a part of the text; other backslashes
are kept, and in expressions `\n` is a line feed. -/
def delimited (isRegex : Bool) (delimiter : Char) : Nat → Parser (Option (List Char))
  | 0 => return none
  | fuel + 1 => do
    match ← next with
    | none => return none
    | some c =>
      if c = delimiter then return some []
      else if c = '\\' then
        match ← next with
        | none => return none
        | some d =>
          let rest ← delimited isRegex delimiter fuel
          if d = delimiter then return rest.map (d :: ·)
          else if d = 'n' ∧ isRegex then return rest.map ('\n' :: ·)
          else return rest.map fun s => '\\' :: d :: s
      else if c = '\n' ∧ isRegex then return none
      else return (← delimited isRegex delimiter fuel).map (c :: ·)

def delimitedText (isRegex : Bool) (delimiter : Char) : Parser (Option (List Char)) := do
  delimited isRegex delimiter ((← get).rest.length + 1)

/-- Reads a regular expression; gives also the number of its groups. -/
def search (text : List Char) (ignoreCase manyLines : Bool) : Parser (Search × Nat) := do
  if text.isEmpty then return (⟨none, ignoreCase, manyLines⟩, 0)
  match Regex.parse ⟨(← get).extended, true, false⟩ text with
  | .ok (r, groups) => return (⟨some r, ignoreCase, manyLines⟩, groups)
  | .error message => fail message

/-! ## Addresses -/

/-- Reads the flags of an expression in an address. -/
def addressFlags : Nat → Bool × Bool → Parser (Bool × Bool)
  | 0, flags => return flags
  | fuel + 1, (i, m) => do
    match ← peek with
    | some 'I' =>
      let _ ← next
      addressFlags fuel (true, m)
    | some 'M' =>
      let _ ← next
      addressFlags fuel (i, true)
    | _ => return (i, m)

def address? : Parser (Option Address) := do
  match ← peek with
  | some '$' =>
    let _ ← next
    return some .last
  | some '/' =>
    let _ ← next
    regexAddress '/'
  | some '\\' =>
    let _ ← next
    match ← next with
    | some c => regexAddress c
    | none => fail "unexpected `,'"
  | some c =>
    if c.isDigit then
      let n ← number
      skipWhile isSpace
      if (← peek) = some '~' then
        let _ ← next
        skipWhile isSpace
        return some (.steps n (← number))
      else return some (.line n)
    else return none
  | none => return none
where
  regexAddress (delimiter : Char) : Parser (Option Address) := do
    match ← delimitedText true delimiter with
    | none => fail "unterminated address regex"
    | some text =>
      let (i, m) ← addressFlags 8 (false, false)
      let (s, _) ← search text i m
      return some (.matching s)

/-- Reads the end of a range. -/
def rangeEnd : Parser RangeEnd := do
  match ← peek with
  | some '+' =>
    let _ ← next
    return .after (← number)
  | some '~' =>
    let _ ← next
    return .multiple (← number)
  | _ =>
    match ← address? with
    | some (.steps n _) => return .upTo (.line n)
    | some a => return .upTo a
    | none =>
      let _ ← next
      fail "unexpected `,'"

/-- Reads the addresses before a command. -/
def selection : Parser Selection := do
  let first? ← address?
  skipWhile isSpace
  let range? ← match first?, ← peek with
    | some _, some ',' => do
      let _ ← next
      skipWhile isSpace
      pure (some (← rangeEnd))
    | _, _ => pure none
  skipWhile isSpace
  let negated := (← peek) = some '!'
  skipWhile fun c => isSpace c || c == '!'
  return ⟨first?, range?, negated⟩

/-! ## Texts of commands -/

/-- The text of a command up to the end of the line; a backslash keeps the next character. -/
def ownText : Nat → Parser (List Char)
  | 0 => return []
  | fuel + 1 => do
    match ← next with
    | none | some '\n' => return []
    | some '\\' =>
      match ← next with
      | none => return []
      | some c => return c :: (← ownText fuel)
    | some c => return c :: (← ownText fuel)

/-- The text that is added or put in place of lines. -/
def addedText : Parser (List Char) := do
  skipWhile isSpace
  match ← peek with
  | none => fail "expected \\ after `a', `c' or `i'"
  | some '\\' =>
    let _ ← next
    if ((← get).rest.dropWhile isSpace).head? = some '\n' then
      skipWhile isSpace
      let _ ← next
    else if (← peek).isNone then fail "expected \\ after `a', `c' or `i'"
  | some _ => pure ()
  return (← ownText ((← get).rest.length + 1)) ++ ['\n']

/-- The name of a file, up to the end of the line. -/
def path : Parser String := do
  skipWhile isSpace
  let name ← takeWhile (· ≠ '\n')
  if name.isEmpty then fail "missing filename in r/R/w/W commands"
  return String.ofList name

/-- The name of a label. -/
def label : Parser String := do
  skipWhile isSpace
  return String.ofList (← takeWhile fun c => !isSpace c && c ≠ ';' && c ≠ '\n' && c ≠ '\x7d')

/-! ## Substitutions -/

/-- The pieces of a replacement. -/
def pieces : Nat → List Char → List Piece
  | 0, _ | _, [] => []
  | fuel + 1, '&' :: rest => .group 0 :: pieces fuel rest
  | fuel + 1, '\\' :: c :: rest =>
    if c.isDigit then .group (c.toNat - '0'.toNat) :: pieces fuel rest
    else
      match c with
      | 'U' => .case .upper :: pieces fuel rest
      | 'L' => .case .lower :: pieces fuel rest
      | 'E' => .case .plain :: pieces fuel rest
      | 'u' => .case .upperNext :: pieces fuel rest
      | 'l' => .case .lowerNext :: pieces fuel rest
      | _ =>
        match Regex.controlEscape? (c :: rest) with
        | some (control, rest) => .text [control] :: pieces fuel rest
        | none => .text [c] :: pieces fuel rest
  | fuel + 1, c :: rest => .text [c] :: pieces fuel rest

/-- Reads the flags of a substitution. -/
def flags : Nat → Substitution → Bool → Bool → Parser (Substitution × Bool × Bool)
  | 0, s, i, m => return (s, i, m)
  | fuel + 1, s, i, m => do
    match ← peek with
    | some 'g' =>
      let _ ← next
      if s.everywhere then fail "multiple `g' options to `s' command"
      flags fuel { s with everywhere := true } i m
    | some 'p' =>
      let _ ← next
      if s.prints then fail "multiple `p' options to `s' command"
      flags fuel { s with prints := true } i m
    | some 'i' | some 'I' =>
      let _ ← next
      flags fuel s true m
    | some 'm' | some 'M' =>
      let _ ← next
      flags fuel s i true
    | some 'w' =>
      let _ ← next
      return ({ s with file? := some (← path) }, i, m)
    | some c =>
      if c.isDigit then
        let n ← number
        if n = 0 then fail "number option to `s' command may not be zero"
        flags fuel { s with number := n } i m
      else return (s, i, m)
    | none => return (s, i, m)

/-- The largest group that a replacement mentions. -/
def largestGroup (list : List Piece) : Nat :=
  list.foldl (fun n p =>
    match p with
    | .group k => max n k
    | _ => n) 0

def substitution : Parser Action := do
  match ← next with
  | none => fail "unterminated `s' command"
  | some delimiter =>
    match ← delimitedText true delimiter with
    | none => fail "unterminated `s' command"
    | some text =>
      match ← delimitedText false delimiter with
      | none => fail "unterminated `s' command"
      | some replacement =>
        let list := pieces (replacement.length + 1) replacement
        let (s, i, m) ← flags ((← get).rest.length + 1)
          { search := ⟨none, false, false⟩, replacement := list } false false
        match ← peek with
        | some c =>
          if !isSpace c && c ≠ ';' && c ≠ '\n' && c ≠ '\x7d' && c ≠ '#' then
            let _ ← next
            fail "unknown option to `s'"
        | none => pure ()
        let (found, groups) ← search text i m
        let largest := largestGroup list
        if groups < largest ∧ found.regex?.isSome then
          fail ("invalid reference \\" ++ toString largest ++ " on `s' command's RHS")
        return .substitute { s with search := found }

/-! ## Translations -/

/-- The characters of one side of a translation. -/
def translationChars (s : List Char) : Option (List Char) :=
  match s with
  | [] => some []
  | '\\' :: '\\' :: rest => (translationChars rest).map ('\\' :: ·)
  | '\\' :: rest =>
    match Regex.controlEscape? rest with
    | some (c, more) =>
      if more.length < rest.length then (translationChars more).map (c :: ·) else none
    | none => (translationChars rest).map ('\\' :: ·)
  | c :: rest => (translationChars rest).map (c :: ·)
termination_by s.length

def translation : Parser Action := do
  match ← next with
  | none => fail "unterminated `y' command"
  | some delimiter =>
    match ← delimitedText false delimiter with
    | none => fail "unterminated `y' command"
    | some a =>
      match ← delimitedText false delimiter with
      | none => fail "unterminated `y' command"
      | some b =>
        match translationChars a, translationChars b with
        | some a, some b =>
          if a.length ≠ b.length then
            fail "strings for `y' command are different lengths"
          return .translate (a.zip b)
        | _, _ => fail "unknown command: `y'"

/-! ## Commands -/

def addCommand (c : Command) : Parser Unit :=
  modify fun s => { s with script := { s.script with commands := s.script.commands.push c } }

/-- Checks that nothing but another command follows. -/
def finish : Parser Unit := do
  skipWhile isSpace
  match ← peek with
  | none => return
  | some c =>
    if c = '\n' ∨ c = ';' then
      let _ ← next
    else if c = '\x7d' ∨ c = '#' then return
    else
      let _ ← next
      fail "extra characters after command"

/-- Commands that are a letter alone. -/
def plainAction? : Char → Option Action
  | 'd' => some .delete
  | 'D' => some .deleteLine
  | 'g' => some .get
  | 'G' => some .getAppend
  | 'h' => some .hold
  | 'H' => some .holdAppend
  | 'x' => some .exchange
  | 'n' => some .next
  | 'N' => some .nextAppend
  | 'p' => some .print
  | 'P' => some .printLine
  | 'z' => some .clear
  | '=' => some .lineNumber
  | 'F' => some .fileName
  | _ => none

/-- Reads the command after its addresses. -/
def command (sel : Selection) (c : Char) : Parser Unit := do
  match plainAction? c with
  | some action =>
    addCommand ⟨sel, action⟩
    finish
  | none =>
    match c with
    | '#' =>
      if sel.first?.isSome then fail "comments don't accept any addresses"
      skipWhile (· ≠ '\n')
    | '\x7b' =>
      let s ← get
      set { s with blocks := s.script.commands.size :: s.blocks }
      addCommand ⟨sel, .block 0⟩
    | '\x7d' =>
      if sel.first?.isSome then fail "\x7d doesn't want any addresses"
      let s ← get
      match s.blocks with
      | [] => fail "unexpected `\x7d'"
      | i :: rest =>
        let commands := s.script.commands.modify i fun opened =>
          { opened with action := .block s.script.commands.size }
        set { s with blocks := rest, script := { s.script with commands := commands } }
        finish
    | ':' =>
      if sel.first?.isSome then fail ": doesn't want any addresses"
      skipWhile isSpace
      let name ← takeWhile fun c => !isSpace c && c ≠ ';' && c ≠ '\n'
      if name.isEmpty then fail "\":\" lacks a label"
      modify fun s =>
        let place := (String.ofList name, s.script.commands.size)
        { s with script := { s.script with labels := s.script.labels ++ [place] } }
      finish
    | 'a' => addCommand ⟨sel, .append (← addedText)⟩
    | 'i' => addCommand ⟨sel, .insert (← addedText)⟩
    | 'c' => addCommand ⟨sel, .change (← addedText)⟩
    | 'b' =>
      addCommand ⟨sel, .branch (← label)⟩
      finish
    | 't' =>
      addCommand ⟨sel, .branchIf true (← label)⟩
      finish
    | 'T' =>
      addCommand ⟨sel, .branchIf false (← label)⟩
      finish
    | 'l' =>
      skipWhile isSpace
      let width ← takeWhile Char.isDigit
      let width? := if width.isEmpty then none else some (Arithmetic.numeral 10 width)
      addCommand ⟨sel, .list width?⟩
      finish
    | 'q' | 'Q' =>
      if sel.range?.isSome then fail "command only uses one address"
      skipWhile isSpace
      addCommand ⟨sel, .quit (← number) (c = 'Q')⟩
      finish
    | 'r' => addCommand ⟨sel, .readFile (← path)⟩
    | 'w' => addCommand ⟨sel, .write (← path) false⟩
    | 'W' => addCommand ⟨sel, .write (← path) true⟩
    | 's' =>
      addCommand ⟨sel, ← substitution⟩
      finish
    | 'y' =>
      addCommand ⟨sel, ← translation⟩
      finish
    | c => fail ("unknown command: `" ++ c.toString ++ "'")

/-- Reads commands up to the end. -/
def commands : Nat → Parser Unit
  | 0 => return
  | fuel + 1 => do
    skipWhile fun c => isSpace c || c == '\n' || c == ';'
    if (← peek).isNone then return
    let sel ← selection
    match ← next with
    | none => fail "missing command"
    | some '\n' | some ';' => fail "missing command"
    | some c =>
      command sel c
      commands fuel

/-! ## Scripts -/

/-- The message for an error after a number of characters. -/
def located (fragments : List Fragment) (count : Nat) (message : String) : String :=
  let rec go (before : Nat) : List Fragment → String
    | [] => "-e expression #1, char 0: " ++ message
    | f :: rest =>
      if count ≤ before + f.text.length ∨ rest.isEmpty then
        if f.isFile then
          let line := (f.text.take (count - before - 1)).count '\n' + 1
          "file " ++ f.name ++ " line " ++ toString line ++ ": " ++ message
        else f.name ++ ", char " ++ toString (count - before) ++ ": " ++ message
      else go (before + f.text.length + 1) rest
  go 0 fragments

/-- The first label that a branch names and that does not exist. -/
def missingLabel? (s : Script) : Option String :=
  s.commands.toList.findSome? fun c =>
    match c.action with
    | .branch name | .branchIf _ name =>
      if name.isEmpty ∨ s.labels.any (·.1 = name) then none else some name
    | _ => none

/-- Reads a script that is given in fragments. -/
def parse (extended : Bool) (fragments : List Fragment) : Except String Script := do
  let text := ['\n'].intercalate (fragments.map (·.text))
  match (commands (text.length + 1)).run { rest := text, extended := extended } with
  | .error (count, message) => throw (located fragments count message)
  | .ok (_, s) =>
    if !s.blocks.isEmpty then
      let name := (fragments.head?).elim "-e expression #1" Fragment.name
      throw (name ++ ", char 0: unmatched `\x7b'")
    match missingLabel? s.script with
    | some name => throw ("can't find label for jump to `" ++ name ++ "'")
    | none => return s.script

end LayoutShell.Host.Sed
