import LayoutShell.Host.Arithmetic
import LayoutShell.Host.Machine
import LayoutShell.Host.Pattern

/-!
# Expansion of words

A word is expanded to characters that remember where they come from: quoted characters are taken as
they are, those of an expansion may be split into fields, and active ones may form a pattern of file
names.

* `Expansion.fields` expands a word to fields, `Expansion.text` to one text, and
  `Expansion.pattern` to a pattern.
* `splitFields` cuts marked characters into fields.
* `matchingPaths` lists the paths that a pattern matches.

The output of a script inside a word is given by the argument `outputOf`.
-/

namespace LayoutShell.Host

open Files

/-- Where a character comes from. -/
inductive Origin
  | literal
  | quoted
  | expanded
  deriving DecidableEq

/-- A piece of an expanded word. -/
inductive Mark
  | char (c : Char) (origin : Origin)
  /-- Quotes with possibly nothing between them. -/
  | quotes
  /-- The gap between two arguments; as a single text they are joined by `joint`. -/
  | gap (joint : List Char)
  /-- All arguments, of which there are none. -/
  | noArguments
  deriving DecidableEq

def marks (origin : Origin) (s : List Char) : List Mark := s.map (.char · origin)

/-- The text of marks. -/
def markedText (l : List Mark) : List Char :=
  l.flatMap fun
    | .char c _ => [c]
    | .gap joint => joint
    | .quotes | .noArguments => []

/-- The pattern of marks. -/
def markedPattern (l : List Mark) : Pattern :=
  Pattern.ofMarked (l.flatMap fun
    | .char c origin => [(c, decide (origin ≠ .quoted))]
    | .gap joint => joint.map (·, true)
    | .quotes | .noArguments => [])

/-! ## Fields -/

/-- The field that is being read. -/
inductive Open
  /-- None, after a field that space has ended or not. -/
  | none (afterSpace : Bool)
  /-- Its marks backwards. -/
  | some (field : List Mark)

def Open.field : Open → List (List Mark)
  | .none _ => []
  | .some field => [field.reverse]

/-- Cuts marks into fields. Separators that are space only end a field; others may also delimit an
empty one. -/
def splitFrom (separators : List Char) : Open → List Mark → List (List Mark)
  | o, [] => o.field
  | o, .gap _ :: rest => o.field ++ splitFrom separators (.none false) rest
  | o, .char c .expanded :: rest =>
    if !separators.contains c then extend o (.char c .expanded) rest
    else if c = ' ' ∨ c = '\t' ∨ c = '\n' then
      match o with
      | .some _ => o.field ++ splitFrom separators (.none true) rest
      | .none after => splitFrom separators (.none after) rest
    else
      match o with
      | .some _ => o.field ++ splitFrom separators (.none false) rest
      | .none true => splitFrom separators (.none false) rest
      | .none false => [.quotes] :: splitFrom separators (.none false) rest
  | o, mark :: rest => extend o mark rest
where
  extend (o : Open) (mark : Mark) (rest : List Mark) : List (List Mark) :=
    match o with
    | .none _ => splitFrom separators (.some [mark]) rest
    | .some field => splitFrom separators (.some (mark :: field)) rest

/-- A field that is there: it has characters, or quotes that are not those of missing arguments. -/
def isPresent (field : List Mark) : Bool :=
  field.any (· matches .char _ _) || (field.contains .quotes && !field.contains .noArguments)

def splitFields (separators : List Char) (l : List Mark) : List (List Mark) :=
  (splitFrom separators (.none false) l).filter isPresent

/-! ## File names -/

/-- The steps of a pattern for paths: names, with the slashes after them. -/
def patternSteps : List Mark → List (List Mark × List Char)
  | [] => []
  | .char '/' _ :: rest =>
    match patternSteps rest with
    | ([], slashes) :: more => ([], '/' :: slashes) :: more
    | more => ([], ['/']) :: more
  | mark :: rest =>
    match patternSteps rest with
    | (name, slashes) :: more =>
      if name.isEmpty then ([mark], slashes) :: more else (mark :: name, slashes) :: more
    | [] => [([mark], [])]

/-- The names in a directory that a pattern matches. Names that begin with a dot need a pattern that
does so. -/
def matchingNames (names : List String) (step : List Mark) : List ByteString :=
  let pattern := markedPattern step
  let dotted := match step.find? (· matches .char _ _) with
    | some (.char '.' _) => true
    | _ => false
  let names := names.map ByteString.ofText ++ if dotted then [".", ".."] else []
  names.filter fun name =>
    (dotted || name.toList.head? ≠ some '.') && pattern.accepts name.toList

/-- The paths that begin with `start` and go on with the steps of a pattern. -/
def pathsFrom (t : FileTree) (here : Location) :
    List (List Mark × List Char) → ByteString → List ByteString
  | [], start =>
    match t.locateEntry (resolveFrom here start) with
    | .ok _ => [start]
    | .error _ => []
  | (step, slashes) :: rest, start =>
    let ending := String.ofList slashes
    if (markedPattern step).isActive then
      match t.list (resolveFrom here (if start = "" then "." else start)) with
      | .ok names =>
        (matchingNames names step).flatMap fun name =>
          pathsFrom t here rest (start ++ name ++ ending)
      | .error _ => []
    else pathsFrom t here rest (start ++ String.ofList (markedText step) ++ ending)

/-- The paths that a field matches, in increasing order. -/
def matchingPaths (t : FileTree) (here : Location) (field : List Mark) : List ByteString :=
  (pathsFrom t here (patternSteps field) "").mergeSort fun a b => decide (a ≤ b)

/-- The fields that a field stands for: the paths that it matches, or itself. -/
def fileNames (field : List Mark) : Run (List ByteString) := do
  let m ← get
  let text := String.ofList (markedText field)
  if m.switches.contains 'f' ∨ !(markedPattern field).isActive then return [text]
  else
    match matchingPaths m.tree m.here field with
    | [] => return [text]
    | paths => return paths

/-! ## Parameters -/

/-- The value of a parameter. -/
inductive ParameterValue
  | unset
  | single (s : List Char)
  /-- All arguments. -/
  | all (items : List (List Char))

/-- The number of the running process. -/
def processNumber : Nat := 4242

def parameter (name : String) : Run ParameterValue := do
  let m ← get
  let single := fun s : String => ParameterValue.single s.toList
  match name with
  | "@" | "*" => return .all (m.arguments.map String.toList)
  | "#" => return single (toString m.arguments.length)
  | "?" => return single (toString m.status)
  | "$" => return single (toString processNumber)
  | "!" => return m.jobs.head?.elim .unset fun job => single (toString job.1)
  | "-" => return single (String.ofList m.switches)
  | "0" => return single m.name
  | _ =>
    let value? ← if name.toList.all Char.isDigit then
        pure (m.arguments[name.toNat?.getD 0 - 1]?)
      else variableValue? name
    return value?.elim .unset single

/-- The text that joins all arguments. -/
def joint : Run (List Char) := return (← separators).take 1

namespace ParameterValue

/-- The value as one text. -/
def text (join : List Char) : ParameterValue → List Char
  | unset => []
  | single s => s
  | all items => join.intercalate items

/-- The marks of a value. -/
def marks (v : ParameterValue) (name : String) (quoted : Bool) (join : List Char) : List Mark :=
  let origin : Origin := if quoted then .quoted else .expanded
  match v with
  | unset => []
  | single s => Host.marks origin s
  | all items =>
    if quoted ∧ name = "*" then Host.marks origin (join.intercalate items)
    else if items.isEmpty then if quoted then [.noArguments] else []
    else
      let pieces := items.map fun s =>
        if quoted then .quotes :: Host.marks origin s else Host.marks origin s
      [Mark.gap join].intercalate pieces

/-- Cuts a matching part from the start or the end of a value. -/
def trim (p : Pattern) (atEnd longest : Bool) : ParameterValue → ParameterValue
  | unset => unset
  | single s => single (p.trim atEnd longest s)
  | all [] => all []
  | all items => all (p.trimAll atEnd longest items)

end ParameterValue

/-- Drops the line feeds at the end of a text. -/
def dropFinalNewlines (s : List Char) : List Char := (s.reverse.dropWhile (· = '\n')).reverse

/-! ## Tildes -/

/-- The directory that a name after a tilde stands for. -/
def homeOf (user : List Char) : Run (Option ByteString) := do
  if user.isEmpty then variableValue? "HOME"
  else return if user = "root".toList then some "/root" else none

/-- Expands a tilde at the start of a text; `more` says that other parts follow it. -/
def expandTilde (bare : Origin) (more : Bool) (s : List Char) : Run (List Mark) := do
  match s with
  | '~' :: rest =>
    let user := rest.takeWhile (· ≠ '/')
    let after := rest.drop user.length
    match ← homeOf user with
    | some home =>
      if after.isEmpty ∧ more then return marks bare s
      else return marks .quoted home.toList ++ marks bare after
    | none => return marks bare s
  | s => return marks bare s

/-- Expands tildes after each colon, and at the start if `first` holds. -/
def expandTildes (bare : Origin) (first more : Bool) (s : List Char) : Run (List Mark) := do
  let pieces := s.splitOn ':'
  let last := pieces.length - 1
  let expanded ← pieces.zipIdx.mapM fun (piece, i) =>
    if i = 0 ∧ !first then pure (marks bare piece)
    else expandTilde bare (more && i == last) piece
  return [Mark.char ':' bare].intercalate expanded

/-- Where tildes are expanded. -/
inductive Tilde
  | nowhere
  | atStart
  /-- At the start and after colons, as in the value of a variable. -/
  | inValue
  | afterColons
  deriving DecidableEq

/-- Where tildes are expanded after the first part of a word. -/
def Tilde.next : Tilde → Tilde
  | nowhere | atStart => nowhere
  | inValue | afterColons => afterColons

/-- Where tildes are expanded in a word that stands inside another. -/
def Tilde.inner (quoted : Bool) : Tilde → Tilde
  | nowhere | atStart => if quoted then nowhere else atStart
  | inValue | afterColons => if quoted then nowhere else inValue

/-! ## Words -/

namespace Expansion

mutual

/-- Expands the parts of a word; `bare` is the origin of its text outside quotes. -/
def word (outputOf : Script → Run (List Char)) : Nat → Origin → Tilde → Word → Run (List Mark)
  | 0, _, _, _ => die "too deep"
  | _, _, _, [] => return []
  | fuel + 1, bare, tilde, p :: rest => do
    let first ← match p with
      | .text true s => pure (.quotes :: marks .quoted s)
      | .text false s =>
        match tilde with
        | .nowhere => pure (marks bare s)
        | .atStart => expandTilde bare (!rest.isEmpty) s
        | .inValue => expandTildes bare true (!rest.isEmpty) s
        | .afterColons => expandTildes bare false (!rest.isEmpty) s
      | .parameter quoted name use =>
        parameterPart outputOf fuel (tilde.inner quoted) quoted name use
      | .arithmetic quoted body => arithmetic outputOf fuel quoted body
      | .output quoted script => do
        let text := dropFinalNewlines (← outputOf script)
        pure (marks (if quoted then .quoted else .expanded) (text.filter (· ≠ '\x00')))
    return first ++ (← word outputOf fuel bare tilde.next rest)

/-- Expands a word to one text. -/
def text (outputOf : Script → Run (List Char)) : Nat → Tilde → Word → Run (List Char)
  | 0, _, _ => die "too deep"
  | fuel + 1, tilde, w => return markedText (← word outputOf fuel .literal tilde w)

def arithmetic (outputOf : Script → Run (List Char)) : Nat → Bool → Word → Run (List Mark)
  | 0, _, _ => die "too deep"
  | fuel + 1, quoted, body => do
    let s ← text outputOf fuel .nowhere body
    let m ← get
    let values := fun name => (((m.bindings.get? name).bind Variable.value?)).getD ""
    match Arithmetic.evaluate values s with
    | .ok (n, assigned) =>
      for (name, value) in assigned do
        assign name (toString value)
      return marks (if quoted then .quoted else .expanded) (toString n).toList
    | .error message =>
      if "Illegal".toList.isPrefixOf message.toList then die message
      else die ("arithmetic expression: " ++ message ++ ": \"" ++ String.ofList s ++ "\"")

/-- Expands a parameter; `tilde` is for the words in its use. -/
def parameterPart (outputOf : Script → Run (List Char)) :
    Nat → Tilde → Bool → String → Use → Run (List Mark)
  | 0, _, _, _, _ => die "too deep"
  | fuel + 1, tilde, quoted, name, use => do
    let value ← match use with
      | .malformed => die "Bad substitution"
      | _ => parameter name
    let join ← joint
    let shown := value.marks name quoted join
    match use with
    | .value =>
      checkSet value name
      return shown
    | .length =>
      checkSet value name
      let n := (value.text [' ']).length
      return marks (if quoted then .quoted else .expanded) (toString n).toList
    | .trim atEnd longest w =>
      checkSet value name
      let pattern := markedPattern (← word outputOf fuel .literal .atStart w)
      let whole := if quoted ∧ name = "*" then .single (value.text join) else value
      return (whole.trim pattern atEnd longest).marks name quoted join
    | .substitute kind ifEmpty w =>
      let isSet := !(value matches .unset) && !(ifEmpty && (value.text join).isEmpty)
      let instead := do
        word outputOf fuel (if quoted then .quoted else .expanded) tilde w
      match kind with
      | .fallback => if isSet then return shown else instead
      | .alternative => if isSet then instead else return []
      | .assign =>
        if isSet then return shown
        else
          let s ← text outputOf fuel (if quoted then .nowhere else .atStart) w
          if !isName name.toList then die (name ++ ": bad variable name")
          assign name (String.ofList s)
          return marks (if quoted then .quoted else .expanded) s
      | .complain =>
        if isSet then return shown
        else
          let s ← text outputOf fuel (if quoted then .nowhere else .atStart) w
          if !s.isEmpty then die (name ++ ": " ++ String.ofList s)
          else if ifEmpty then die (name ++ ": parameter not set or null")
          else die (name ++ ": parameter not set")
    | .malformed => die "Bad substitution"
where
  /-- A parameter that is not set is an error if a switch says so. -/
  checkSet (value : ParameterValue) (name : String) : Run Unit := do
    if (value matches .unset) ∧ (← get).switches.contains 'u' then
      die (name ++ ": parameter not set")

end

/-- A bound on the depth of words inside words and the number of their parts. -/
def depth : Nat := 100000

/-- Expands a word to fields. -/
def fields (outputOf : Script → Run (List Char)) (w : Word) : Run (List ByteString) := do
  let l ← word outputOf depth .literal .atStart w
  let split := splitFields (← separators) l
  return (← split.mapM fileNames).flatten

/-- Expands a word that is not split. -/
def single (outputOf : Script → Run (List Char)) (w : Word) : Run ByteString := do
  return String.ofList (← text outputOf depth .atStart w)

/-- Expands the value of a variable. -/
def value (outputOf : Script → Run (List Char)) (w : Word) : Run ByteString := do
  return String.ofList (← text outputOf depth .inValue w)

/-- Expands a document. -/
def document (outputOf : Script → Run (List Char)) (w : Word) : Run (List Char) :=
  text outputOf depth .nowhere w

/-- Expands a pattern. -/
def pattern (outputOf : Script → Run (List Char)) (w : Word) : Run Pattern := do
  return markedPattern (← word outputOf depth .literal .atStart w)

end Expansion

end LayoutShell.Host
