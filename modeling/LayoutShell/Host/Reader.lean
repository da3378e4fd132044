import LayoutShell.Host.Script

/-!
# Reading scripts

A script is read one command line at a time, since the lines before a malformed one take effect.

* `Source` is what is left of a text, with what is known from before.
* `Source.nextCommand` reads the next line of commands.

Words may hold commands and commands hold words, so the readers of both call each other; their first
argument bounds the depth of these calls.
-/

namespace LayoutShell.Host

/-- Marks with a meaning of their own. -/
inductive Operator
  | newline
  | ending
  | semicolon
  | doubleSemicolon
  | ampersand
  | and
  | bar
  | or
  | opening
  | closing
  deriving DecidableEq

/-- Marks that begin a redirection. -/
inductive Arrow
  | file (mode : Mode)
  | copy
  /-- A document in the following lines, possibly without the tabs at their start. -/
  | document (withoutTabs : Bool)
  deriving DecidableEq

inductive Token
  | operator (o : Operator)
  | arrow (stream : Nat) (a : Arrow)
  | word (w : Word)

/-- A document that begins after the end of the line. -/
structure Pending where
  number : Nat
  delimiter : List Char
  /-- It is taken as it is. -/
  quoted : Bool
  withoutTabs : Bool

/-- What is left of a text. -/
structure Source where
  rest : List Char
  line : Nat := 1
  /-- A token that was read ahead. -/
  ahead? : Option Token := none
  pending : List Pending := []
  /-- The documents read so far, by number. -/
  documents : List (Nat × Word) := []
  /-- The number of the next document. -/
  next : Nat := 0
  /-- Texts that stand in for the names of commands. -/
  aliases : List (String × String) := []
  /-- The aliases that are replaced in the current command. -/
  replaced : List String := []

structure SyntaxError where
  line : Nat
  message : String
  deriving DecidableEq

abbrev Reader := StateT Source (Except SyntaxError)

namespace Reader

variable {α : Type}

def fail (message : String) : Reader α := do throw ⟨(← get).line, message⟩

/-! ## Characters -/

/-- Drops the line feeds that a backslash takes back. -/
def dropJoins (line : Nat) : List Char → List Char × Nat
  | '\\' :: '\n' :: rest => dropJoins (line + 1) rest
  | s => (s, line)

/-- The next character. -/
def peek : Reader (Option Char) := do
  let s ← get
  let (rest, line) := dropJoins s.line s.rest
  set { s with rest := rest, line := line }
  return rest.head?

/-- Moves over a character. -/
def skip : Reader Unit :=
  modify fun s =>
    match s.rest with
    | [] => s
    | c :: rest => { s with rest := rest, line := if c = '\n' then s.line + 1 else s.line }

/-- Moves over the next character if it is `c`. -/
def skipIf (c : Char) : Reader Bool := do
  if (← peek) = some c then
    skip
    return true
  else return false

/-- The characters up to the next `c`, which is passed over. -/
def takeUntil (c : Char) (message : String) : Reader (List Char) := do
  let s ← get
  let taken := s.rest.takeWhile (· ≠ c)
  match s.rest.drop taken.length with
  | [] => fail message
  | _ :: rest =>
    set { s with rest := rest, line := s.line + taken.count '\n' }
    return taken

/-- The characters as long as they satisfy `p`; line joins are dropped. -/
def takeWhile (p : Char → Bool) : Nat → Reader (List Char)
  | 0 => return []
  | fuel + 1 => do
    match ← peek with
    | some c =>
      if p c then
        skip
        return c :: (← takeWhile p fuel)
      else return []
    | none => return []

/-- The longest name, or as many digits as there are. -/
def takeAll (p : Char → Bool) : Reader String := do
  return String.ofList (← takeWhile p ((← get).rest.length + 1))

/-- Moves over blanks and a comment. -/
def skipBlanks : Nat → Reader Unit
  | 0 => return
  | fuel + 1 => do
    match ← peek with
    | some c =>
      if c = ' ' ∨ c = '\t' then
        skip
        skipBlanks fuel
      else if c = '#' then modify fun s => { s with rest := s.rest.dropWhile (· ≠ '\n') }
      else return
    | none => return

/-! ## Messages -/

def operatorText : Operator → String
  | .newline => "newline"
  | .ending => "end of file"
  | .semicolon => "\";\""
  | .doubleSemicolon => "\";;\""
  | .ampersand => "\"&\""
  | .and => "\"&&\""
  | .bar => "\"|\""
  | .or => "\"||\""
  | .opening => "\"(\""
  | .closing => "\")\""

/-- The words with a meaning of their own at the start of a command. -/
def reservedWords : List String :=
  ["!", "case", "do", "done", "elif", "else", "esac", "fi", "for", "if", "in", "then", "until",
    "while", "\x7b", "\x7d"]

def tokenText : Token → String
  | .operator o => operatorText o
  | .arrow _ _ => "redirection"
  | .word w =>
    match Word.plain? w with
    | some s => if reservedWords.contains s then "\"" ++ s ++ "\"" else "word"
    | none => "word"

def unexpected (t : Token) : Reader α := fail (tokenText t ++ " unexpected")

def expecting (t : Token) (what : String) : Reader α :=
  fail (tokenText t ++ " unexpected (expecting " ++ what ++ ")")

/-! ## Tokens -/

def putBack (t : Token) : Reader Unit := modify fun s => { s with ahead? := some t }

def isPlain (t : Token) (word : String) : Bool :=
  match t with
  | .word w => Word.plain? w = some word
  | _ => false

def isOperator (t : Token) (o : Operator) : Bool :=
  match t with
  | .operator o' => o = o'
  | _ => false

/-- The words that end a list of commands. -/
def endsList : Token → Bool
  | .operator .ending | .operator .closing | .operator .doubleSemicolon => true
  | .word w =>
    match Word.plain? w with
    | some s => ["do", "done", "elif", "else", "esac", "fi", "then", "\x7d"].contains s
    | none => false
  | _ => false

/-- The characters that end a word. -/
def endsWord (c : Char) : Bool := " \t\n;&|<>()".toList.contains c

/-- Where text is read. -/
inductive Place
  | word
  /-- Between double quotes. -/
  | doubled
  /-- Inside the braces of an expansion. -/
  | braced (quoted : Bool)
  | document
  /-- Inside an arithmetic expansion, with the number of open parentheses. -/
  | arithmetic (depth : Nat)
  deriving DecidableEq

namespace Place

/-- Text here is quoted as between double quotes. -/
def quotes : Place → Bool
  | word | braced false => false
  | doubled | braced true | document | arithmetic _ => true

/-- The characters that a backslash protects. -/
def isProtected (p : Place) (c : Char) : Bool :=
  c == '$' || c == '\x60' || c == '\\' || (c == '"' && p != document) ||
    (c == '\x7d' && p == braced true)

/-- The text ends before this character. -/
def endsAt (p : Place) (c : Char) (rest : List Char) : Bool :=
  match p with
  | word => endsWord c
  | doubled => c == '"'
  | braced _ => c == '\x7d'
  | document => false
  | arithmetic depth => depth == 0 && c == ')' && (dropJoins 0 rest).1.head? == some ')'

/-- The place after a character. -/
def after (p : Place) (c : Char) : Place :=
  match p with
  | arithmetic depth =>
    arithmetic (if c = '(' then depth + 1 else if c = ')' then depth - 1 else depth)
  | p => p

/-- What is wrong if the text ends here. -/
def missing? : Place → Option String
  | word | document => none
  | doubled => some "Unterminated quoted string"
  | braced _ => some "Missing '\x7d'"
  | arithmetic _ => some "Missing '))'"

end Place

/-! ## Documents -/

/-- The lines before a delimiter, what follows it, and the number of lines passed. -/
def cutDocument (p : Pending) : Nat → List Char → List Char × List Char × Nat
  | 0, s => ([], s, 0)
  | _, [] => ([], [], 0)
  | fuel + 1, s =>
    let line := s.takeWhile (· ≠ '\n')
    let after := s.drop (line.length + 1)
    let shown := if p.withoutTabs then line.dropWhile (· = '\t') else line
    if shown = p.delimiter then ([], after, 1)
    else
      let (body, rest, count) := cutDocument p fuel after
      (shown ++ (if line.length < s.length then ['\n'] else []) ++ body, rest, count + 1)

/-- Reads another text with the documents known so far, then goes on with this one. -/
def within (text : List Char) (read : Reader α) : Reader α := do
  let s ← get
  set ({ rest := text, line := s.line, documents := s.documents, next := s.next } : Source)
  let result ← read
  let inner ← get
  set { s with documents := inner.documents, next := inner.next }
  return result

/-- The text of a command between back quotes: backslashes before some marks are dropped. -/
def takeBackquoted (quoted : Bool) : Nat → Reader (List Char)
  | 0 => fail "EOF in backquote substitution"
  | fuel + 1 => do
    match (← get).rest with
    | [] => fail "EOF in backquote substitution"
    | '\x60' :: _ =>
      skip
      return []
    | '\\' :: '\n' :: _ =>
      skip
      skip
      takeBackquoted quoted fuel
    | '\\' :: c :: _ =>
      skip
      skip
      let protects := c = '\\' ∨ c = '\x60' ∨ c = '$' ∨ quoted ∧ c = '"'
      return (if protects then [c] else ['\\', c]) ++ (← takeBackquoted quoted fuel)
    | c :: _ =>
      skip
      return c :: (← takeBackquoted quoted fuel)

/-- The commands that no function can replace. -/
def specialCommands : List String :=
  [".", ":", "break", "continue", "eval", "exec", "exit", "export", "local", "readonly", "return",
    "set", "shift", "times", "trap", "unset"]

def isFunctionName (name : String) : Bool :=
  isName name.toList && !specialCommands.contains name

/-- The text after `#` in braces takes the length of a special parameter. -/
def specialLength? (rest : List Char) : Option Char :=
  match (dropJoins 0 rest).1 with
  | c :: rest => if (dropJoins 0 rest).1.head? = some '\x7d' ∧ c ≠ '\x7d' then some c else none
  | [] => none

/-! ## Words and commands -/

/-- Replaces a token by the text that it is an alias of. -/
def replaceAlias (t : Token) : Reader Bool := do
  let s ← get
  let name? := match t with
    | .word w => (Word.plain? w).filter fun name => !s.replaced.contains name
    | _ => none
  match name? with
  | none => return false
  | some name =>
    match s.aliases.lookup name with
    | none => return false
    | some text =>
      set { s with rest := text.toList ++ s.rest, replaced := name :: s.replaced }
      return true

mutual

/-- Reads the parts of a text up to its end, which is not passed over. -/
def parts : Nat → Place → Reader Word
  | 0, _ => fail "too deep"
  | fuel + 1, place => do
    match ← peek with
    | none =>
      match place.missing? with
      | some message => fail message
      | none => return []
    | some c =>
      if place.endsAt c (← get).rest.tail then return []
      else
        let first ← piece fuel place c
        return first ++ (← parts fuel (place.after c))

/-- Reads the piece of a text that begins with `c`. -/
def piece : Nat → Place → Char → Reader Word
  | 0, _, _ => fail "too deep"
  | fuel + 1, place, c => do
    skip
    if c = '$' then return [← expansion fuel place.quotes]
    else if c = '\x60' then
      let text ← takeBackquoted place.quotes ((← get).rest.length + 1)
      return [.output place.quotes (← within text (whole fuel))]
    else if c = '\\' then
      match (← get).rest with
      | [] => return [.text true ['\\']]
      | d :: _ =>
        if place.quotes ∧ !place.isProtected d then return [.text true ['\\']]
        else
          skip
          return [.text true [d]]
    else if place.quotes then
      if c = '"' ∧ place = .braced true then return [] else return [.text true [c]]
    else if c = '\'' then return [.text true (← takeUntil '\'' "Unterminated quoted string")]
    else if c = '"' then
      let inside ← parts fuel .doubled
      skip
      return .text true [] :: inside
    else return [.text false [c]]

/-- Reads what follows a dollar sign. -/
def expansion : Nat → Bool → Reader Part
  | 0, _ => fail "too deep"
  | fuel + 1, quoted => do
    match ← peek with
    | none => return .text quoted ['$']
    | some c =>
      if c = '(' then
        skip
        if ← skipIf '(' then
          let body ← parts fuel (.arithmetic 0)
          skip
          let _ ← peek
          skip
          return .arithmetic quoted body
        else
          let script ← commands fuel false true
          expect fuel .closing
          return .output quoted (.sequence script)
      else if c = '\x7b' then
        skip
        braced fuel quoted
      else if isNameStart c then return .parameter quoted (← takeAll isNameChar) .value
      else if c.isDigit ∨ isSpecialParameter c then
        skip
        return .parameter quoted (String.singleton c) .value
      else return .text quoted ['$']

/-- Reads an expansion in braces. -/
def braced : Nat → Bool → Reader Part
  | 0, _ => fail "too deep"
  | fuel + 1, quoted => do
    match ← peek with
    | none => fail "Missing '\x7d'"
    | some c =>
      if isNameStart c then use fuel quoted (← takeAll isNameChar)
      else if c.isDigit then use fuel quoted (← takeAll Char.isDigit)
      else if c = '#' then
        skip
        match ← peek with
        | none => fail "Missing '\x7d'"
        | some d =>
          if isNameChar d then
            let name ← takeAll (if d.isDigit then Char.isDigit else isNameChar)
            if ← skipIf '\x7d' then return .parameter quoted name .length
            else malformed fuel quoted
          else
            match specialLength? (← get).rest with
            | none => use fuel quoted "#"
            | some d =>
              if isSpecialParameter d then
                skip
                let _ ← peek
                skip
                return .parameter quoted (String.singleton d) .length
              else malformed fuel quoted
      else if isSpecialParameter c then
        skip
        use fuel quoted (String.singleton c)
      else malformed fuel quoted

/-- Reads the rest of an expansion that makes no sense. -/
def malformed : Nat → Bool → Reader Part
  | 0, _ => fail "too deep"
  | fuel + 1, quoted => do
    let _ ← parts fuel (.braced quoted)
    skip
    return .parameter quoted "" .malformed

/-- Reads what is taken of a parameter, up to the closing brace. -/
def use : Nat → Bool → String → Reader Part
  | 0, _, _ => fail "too deep"
  | fuel + 1, quoted, name => do
    if ← skipIf '\x7d' then return .parameter quoted name .value
    else
      let ifEmpty ← skipIf ':'
      match ← peek with
      | none => fail "Missing '\x7d'"
      | some c =>
        if !ifEmpty ∧ (c = '%' ∨ c = '#') then
          skip
          let longest ← skipIf c
          let pattern ← parts fuel (.braced false)
          skip
          return .parameter quoted name (.trim (c = '%') longest (Word.merge pattern))
        else
          let kind? : Option Substitute := if c = '-' then some .fallback
            else if c = '=' then some .assign
            else if c = '?' then some .complain
            else if c = '+' then some .alternative
            else none
          match kind? with
          | none =>
            if ifEmpty ∧ c = '\x7d' then skip
            malformed fuel quoted
          | some kind =>
            skip
            let word ← parts fuel (.braced quoted)
            skip
            return .parameter quoted name (.substitute kind ifEmpty (Word.merge word))

/-- Reads the documents that are announced. -/
def pendingDocuments : Nat → Reader Unit
  | 0 => fail "too deep"
  | fuel + 1 => do
    let s ← get
    match s.pending with
    | [] => return
    | p :: pending =>
      let (body, rest, count) := cutDocument p (s.rest.length + 1) s.rest
      set { s with rest := rest, line := s.line + count, pending := pending }
      let content ← if p.quoted then pure [.text true body]
        else within body (parts fuel .document)
      modify fun s => { s with documents := (p.number, Word.merge content) :: s.documents }
      pendingDocuments fuel

/-- Reads a token. -/
def nextToken : Nat → Reader Token
  | 0 => fail "too deep"
  | fuel + 1 => do
    match (← get).ahead? with
    | some t =>
      modify fun s => { s with ahead? := none }
      return t
    | none =>
      skipBlanks ((← get).rest.length + 1)
      match ← peek with
      | none =>
        pendingDocuments fuel
        return .operator .ending
      | some c =>
        if c = '\n' then
          skip
          pendingDocuments fuel
          return .operator .newline
        else if c = ';' then
          skip
          return .operator (if ← skipIf ';' then .doubleSemicolon else .semicolon)
        else if c = '&' then
          skip
          return .operator (if ← skipIf '&' then .and else .ampersand)
        else if c = '|' then
          skip
          return .operator (if ← skipIf '|' then .or else .bar)
        else if c = '(' then
          skip
          return .operator .opening
        else if c = ')' then
          skip
          return .operator .closing
        else
          let next := (dropJoins 0 (← get).rest.tail).1.head?
          let arrowNext := next = some '<' ∨ next = some '>'
          if c = '<' ∨ c = '>' ∨ c.isDigit ∧ arrowNext then
            if c.isDigit then skip
            arrow (if c.isDigit then some (c.toNat - '0'.toNat) else none)
          else return .word (Word.merge (← parts fuel .word))
where
  /-- Reads the mark of a redirection. -/
  arrow (stream? : Option Nat) : Reader Token := do
    let input := (← peek) = some '<'
    skip
    let token := fun a => Token.arrow (stream?.getD (if input then 0 else 1)) a
    if input then
      if ← skipIf '<' then return token (.document (← skipIf '-'))
      else if ← skipIf '&' then return token .copy
      else if ← skipIf '>' then return token (.file .readWrite)
      else return token (.file .read)
    else if ← skipIf '>' then return token (.file .append)
    else if ← skipIf '&' then return token .copy
    else if ← skipIf '|' then return token (.file .replace)
    else return token (.file .write)

/-- Reads an operator that must stand here. -/
def expect : Nat → Operator → Reader Unit
  | 0, _ => fail "too deep"
  | fuel + 1, o => do
    let t ← nextToken fuel
    if isOperator t o then return else expecting t (operatorText o)

/-- Reads a reserved word that must stand here. -/
def expectWord : Nat → String → Reader Unit
  | 0, _ => fail "too deep"
  | fuel + 1, word => do
    let t ← nextToken fuel
    if isPlain t word then return else expecting t ("\"" ++ word ++ "\"")

def skipNewlines : Nat → Reader Unit
  | 0 => fail "too deep"
  | fuel + 1 => do
    let t ← nextToken fuel
    if isOperator t .newline then skipNewlines fuel else putBack t

/-- Reads a redirection after its mark. -/
def redirect : Nat → Nat → Arrow → Reader Redirect
  | 0, _, _ => fail "too deep"
  | fuel + 1, stream, a => do
    match ← nextToken fuel with
    | .word w =>
      match a with
      | .file mode => return .file stream mode w
      | .copy => return .copy stream w
      | .document withoutTabs =>
        let s ← get
        let p : Pending := ⟨s.next, (Word.literal? w).getD [], Word.isQuoted w, withoutTabs⟩
        set { s with next := s.next + 1, pending := s.pending ++ [p] }
        return .document stream p.number
    | t => unexpected t

/-- Reads redirections as long as there are any. -/
def redirects : Nat → Reader (List Redirect)
  | 0 => fail "too deep"
  | fuel + 1 => do
    match ← nextToken fuel with
    | .arrow stream a =>
      let r ← redirect fuel stream a
      return r :: (← redirects fuel)
    | t =>
      putBack t
      return []

/-- Reads commands up to the end of the line, or up to a word that ends them if `line` does not
hold. -/
def commands : Nat → Bool → Bool → Reader (List Script)
  | 0, _, _ => fail "too deep"
  | fuel + 1, line, mayEnd => do
    let t ← nextToken fuel
    if isOperator t .newline then
      if line then return [] else commands fuel line mayEnd
    else
      putBack t
      if isOperator t .ending ∨ !line ∧ mayEnd ∧ endsList t then return []
      else
        let first ← andOr fuel
        match ← nextToken fuel with
        | .operator .ampersand => return .background first :: (← commands fuel line true)
        | .operator .semicolon => return first :: (← commands fuel line true)
        | .operator .newline =>
          putBack (.operator .newline)
          return first :: (← commands fuel line true)
        | .operator .ending =>
          putBack (.operator .ending)
          return [first]
        | t =>
          if line then unexpected t
          else
            putBack t
            return [first]

/-- Reads the commands inside another one. -/
def compound : Nat → Reader Script
  | 0 => fail "too deep"
  | fuel + 1 => do
    match ← commands fuel false false with
    | [s] => return s
    | list => return .sequence list

/-- Reads a whole text as commands. -/
def whole : Nat → Reader Script
  | 0 => fail "too deep"
  | fuel + 1 => do
    let list ← commands fuel false true
    let t ← nextToken fuel
    if isOperator t .ending then return .sequence list else unexpected t

/-- Reads pipelines joined by `&&` and `||`, which bind alike. -/
def andOr : Nat → Reader Script
  | 0 => fail "too deep"
  | fuel + 1 => do joined fuel (← pipeline fuel)

/-- Reads what is joined to a command. -/
def joined : Nat → Script → Reader Script
  | 0, _ => fail "too deep"
  | fuel + 1, first => do
    match ← nextToken fuel with
    | .operator .and =>
      skipNewlines fuel
      joined fuel (.and first (← pipeline fuel))
    | .operator .or =>
      skipNewlines fuel
      joined fuel (.or first (← pipeline fuel))
    | t =>
      putBack t
      return first

/-- Reads commands joined by pipes. -/
def pipeline : Nat → Reader Script
  | 0 => fail "too deep"
  | fuel + 1 => do
    let t ← nextToken fuel
    if isPlain t "!" then return .negate (← stages fuel)
    else
      putBack t
      stages fuel

def stages : Nat → Reader Script
  | 0 => fail "too deep"
  | fuel + 1 => do
    let first ← command fuel
    match ← moreStages fuel with
    | [] => return first
    | rest => return .pipe (first :: rest)

def moreStages : Nat → Reader (List Script)
  | 0 => fail "too deep"
  | fuel + 1 => do
    let t ← nextToken fuel
    if isOperator t .bar then
      skipNewlines fuel
      let next ← command fuel
      return next :: (← moreStages fuel)
    else
      putBack t
      return []

/-- Reads a command. -/
def command : Nat → Reader Script
  | 0 => fail "too deep"
  | fuel + 1 => do
    let t ← nextToken fuel
    if ← replaceAlias t then command fuel
    else
      let line := (← get).line
      modify fun s => { s with replaced := [] }
      let body? ← match t with
        | .operator .opening =>
          let body ← compound fuel
          expect fuel .closing
          pure (some (.subshell body))
        | .word w => (Word.plain? w).elim (pure none) fun word => keyword fuel t word
        | .arrow _ _ => pure none
        | .operator _ => unexpected t
      match body? with
      | some body =>
        match ← redirects fuel with
        | [] => return body
        | list => return .redirected line body list
      | none =>
        putBack t
        simple fuel line [] [] []

/-- Reads a command that begins with a reserved word. -/
def keyword : Nat → Token → String → Reader (Option Script)
  | 0, _, _ => fail "too deep"
  | fuel + 1, t, word =>
    match word with
    | "if" => do return some (← branch fuel)
    | "while" | "until" => do
      let condition ← compound fuel
      expectWord fuel "do"
      let body ← compound fuel
      expectWord fuel "done"
      return some (.loop (word = "while") condition body)
    | "for" => do return some (← each fuel)
    | "case" => do return some (← choose fuel)
    | "\x7b" => do
      let body ← compound fuel
      expectWord fuel "\x7d"
      return some (.sequence [body])
    | _ => if reservedWords.contains word then unexpected t else return none

/-- Reads a condition and its branches, up to `fi`. -/
def branch : Nat → Reader Script
  | 0 => fail "too deep"
  | fuel + 1 => do
    let condition ← compound fuel
    expectWord fuel "then"
    let yes ← compound fuel
    let t ← nextToken fuel
    if isPlain t "elif" then return .branch condition yes (← branch fuel)
    else if isPlain t "else" then
      let no ← compound fuel
      expectWord fuel "fi"
      return .branch condition yes no
    else if isPlain t "fi" then return .branch condition yes .skip
    else expecting t "\"fi\""

/-- Reads words up to the end of a line or a semicolon. -/
def wordList : Nat → Reader (List Word)
  | 0 => fail "too deep"
  | fuel + 1 => do
    match ← nextToken fuel with
    | .word w => return w :: (← wordList fuel)
    | .operator .newline | .operator .semicolon => return []
    | t => unexpected t

/-- Reads a loop over words, after `for`. -/
def each : Nat → Reader Script
  | 0 => fail "too deep"
  | fuel + 1 => do
    let line := (← get).line
    let t ← nextToken fuel
    let name? := match t with
      | .word w => (Word.plain? w).filter fun s => isName s.toList
      | _ => none
    match name? with
    | none => fail "Bad for loop variable"
    | some name =>
      skipNewlines fuel
      let t ← nextToken fuel
      let words? ←
        if isPlain t "in" then some <$> wordList fuel
        else do
          if !isOperator t .semicolon then putBack t
          pure none
      skipNewlines fuel
      expectWord fuel "do"
      let body ← compound fuel
      expectWord fuel "done"
      return .each line name words? body

/-- Reads a choice, after `case`. -/
def choose : Nat → Reader Script
  | 0 => fail "too deep"
  | fuel + 1 => do
    let line := (← get).line
    match ← nextToken fuel with
    | .word subject =>
      skipNewlines fuel
      expectWord fuel "in"
      return .choose line subject (← cases fuel)
    | t => unexpected t

/-- Reads the cases of a choice, up to `esac`. -/
def cases : Nat → Reader (List (List Word × Script))
  | 0 => fail "too deep"
  | fuel + 1 => do
    skipNewlines fuel
    let t ← nextToken fuel
    if isPlain t "esac" then return []
    else
      let t ← if isOperator t .opening then nextToken fuel else pure t
      let patterns ← alternatives fuel t
      let body ← commands fuel false true
      let t ← nextToken fuel
      if isPlain t "esac" then return [(patterns, .sequence body)]
      else if isOperator t .doubleSemicolon then
        return (patterns, .sequence body) :: (← cases fuel)
      else expecting t "\";;\""

/-- Reads the patterns of a case, the first of which is read already. A mark in the place of a
pattern stands for an empty one. -/
def alternatives : Nat → Token → Reader (List Word)
  | 0, _ => fail "too deep"
  | fuel + 1, t => do
    let pattern := match t with
      | .word pattern => pattern
      | _ => []
    let t ← nextToken fuel
    if isOperator t .bar then return pattern :: (← alternatives fuel (← nextToken fuel))
    else if isOperator t .closing then return [pattern]
    else expecting t "\")\""

/-- Reads a simple command, after what is read of it already. -/
def simple : Nat → Nat → List (String × Word) → List Word → List Redirect → Reader Script
  | 0, _, _, _, _ => fail "too deep"
  | fuel + 1, line, assignments, words, list => do
    match ← nextToken fuel with
    | .word w =>
      match Word.assignment? w, words with
      | some a, [] => simple fuel line (assignments ++ [a]) words list
      | _, _ => simple fuel line assignments (words ++ [w]) list
    | .arrow stream a =>
      simple fuel line assignments words (list ++ [← redirect fuel stream a])
    | t =>
      match t, assignments, words, list with
      | .operator .opening, [], [w], [] => function fuel w
      | _, _, _, _ =>
        putBack t
        return .simple line assignments words list

/-- Reads the definition of a function, after the opening parenthesis. -/
def function : Nat → Word → Reader Script
  | 0, _ => fail "too deep"
  | fuel + 1, w => do
    expect fuel .closing
    match (Word.plain? w).filter isFunctionName with
    | none => fail "Bad function name"
    | some name =>
      skipNewlines fuel
      return .define name (← command fuel)

end

end Reader

namespace Source

/-- Reads the next line of commands; there is none at the end of the text. -/
def nextCommand (s : Source) : Except SyntaxError (Option Script × Source) :=
  let longest := (s.aliases.map fun a => a.2.length).foldl (· + ·) 0
  let fuel := 24 * (s.rest.length + 1) * (longest + 1) + 64
  let read : Reader (Option Script) := do
    Reader.skipBlanks (s.rest.length + 1)
    if (← Reader.peek).isNone then return none
    else return some (.sequence (← Reader.commands fuel true false))
  read.run { s with ahead? := none }

end Source

end LayoutShell.Host
