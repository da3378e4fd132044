import LayoutShell.Host.Pattern
import LayoutShell.Host.Program.Filters

/-!
# Programs that select and replace characters

`cut` selects characters or fields of lines, and `tr` replaces, deletes and squeezes characters.
-/

namespace LayoutShell.Host.Program

open Files

/-! ## Selecting -/

/-- A range of positions; none as its end stands for the end of the line. -/
structure Range where
  first : Nat
  last? : Option Nat

/-- Reads a range; `isField` decides the wording of errors. -/
def readRange (isField : Bool) (text : List Char) : Except String Range := do
  let shown := inQuotes (String.ofList text)
  let number := fun digits : List Char =>
    if digits.all Char.isDigit then Except.ok (Arithmetic.numeral 10 digits)
    else .error (if isField then "invalid field value " ++ shown
      else "invalid byte/character position " ++ shown)
  let zero := if isField then "fields are numbered from 1"
    else "byte/character positions are numbered from 1"
  let first := text.takeWhile (· ≠ '-')
  match text.drop first.length with
  | [] =>
    let n ← number first
    if n = 0 ∨ first.isEmpty then throw zero
    return ⟨n, some n⟩
  | _ :: last =>
    if first.isEmpty ∧ last.isEmpty then throw "invalid range with no endpoint: -"
    let a ← if first.isEmpty then pure 1 else number first
    if a = 0 then throw zero
    if last.isEmpty then return ⟨a, none⟩
    let b ← number last
    if b < a then throw "invalid decreasing range"
    return ⟨a, some b⟩

def readRanges (isField : Bool) (text : ByteString) : Except String (List Range) := do
  let pieces := text.toList.map fun c => if c = ' ' ∨ c = '\t' then ',' else c
  let ranges ← (pieces.splitOn ',').mapM (readRange isField)
  return ranges

def Range.holds (r : Range) (n : Nat) : Bool := r.first ≤ n && r.last?.all (n ≤ ·)

/-- A position begins one of the ranges. -/
def startsRange (ranges : List Range) (n : Nat) : Bool :=
  ranges.any (·.first = n) && !(1 < n && ranges.any fun r => r.holds (n - 1) && r.holds n)

/-- Selects characters of a line. -/
def cutChars (selected starts : Nat → Bool) (delimiter : List Char) (line : List Char) :
    List Char :=
  let indexed := line.zipIdx.filterMap fun (c, i) =>
    if selected (i + 1) then some (c, i + 1) else none
  (indexed.zipIdx.map fun ((c, position), i) =>
    if i ≠ 0 ∧ starts position then delimiter ++ [c] else [c]).flatten

/-- Selects fields of a line; none if the line is left out. -/
def cutFields (selected : Nat → Bool) (separator : Char) (delimiter : List Char)
    (onlyDelimited : Bool) (line : List Char) : Option (List Char) :=
  if !line.contains separator then if onlyDelimited then none else some line
  else
    let fields := (line.splitOn separator).zipIdx.filterMap fun (field, i) =>
      if selected (i + 1) then some field else none
    some (delimiter.intercalate fields)

def cut (args : List ByteString) : Run Nat :=
  withOptions "cut"
    ⟨"b:c:d:f:nszCO:", [("bytes", 'b'), ("characters", 'c'), ("delimiter", 'd'), ("fields", 'f'),
      ("only-delimited", 's'), ("complement", 'C'), ("output-delimiter", 'O'),
      ("zero-terminated", 'z')], true⟩ 1 args fun o => do
    let lists := o.given.filter fun (c, _) => c = 'b' || c = 'c' || c = 'f'
    match lists with
    | [] => blameUse "cut" 1 "you must specify a list of bytes, characters, or fields"
    | _ :: _ :: _ => blameUse "cut" 1 "only one list may be specified"
    | [(kind, list?)] =>
      let isField := kind = 'f'
      let separator := ((o.argument? 'd').getD "\t").toList
      if separator.length > 1 then
        blameUse "cut" 1 "the delimiter must be a single character"
      else if o.has 'd' ∧ !isField then
        blameUse "cut" 1 "an input delimiter may be specified only when operating on fields"
      else if o.has 's' ∧ !isField then
        blameUse "cut" 1
          "suppressing non-delimited lines makes sense\n\tonly when operating on fields"
      else
        match readRanges isField (list?.getD "") with
        | .error message => blameUse "cut" 1 message
        | .ok ranges =>
          let inside := fun n => ranges.any (·.holds n)
          let selected := fun n => inside n != o.has 'C'
          let starts := fun n =>
            if o.has 'C' then !(selected (n - 1)) else startsRange ranges n
          let mark := separator.headD '\x00'
          let delimiter := match o.argument? 'O' with
            | some text => text.toList
            | none => if isField then [mark] else []
          let cutLine := fun line =>
            if isField then cutFields selected mark delimiter (o.has 's') line
            else some (cutChars selected starts delimiter line)
          eachText "cut" o.operands plainProblem fun text =>
            say (unlines ((linesOf text).filterMap cutLine))

/-! ## Replacing -/

/-- A piece of a set of characters. -/
inductive SetItem
  | chars (list : List Char)
  /-- A class with a name. -/
  | named (name : String) (list : List Char)
  /-- A character as often as the other set needs, or a number of times. -/
  | repeated (c : Char) (count : Nat)

/-- All bytes. -/
def allBytes : List Char := (List.range 256).map Char.ofNat

/-- Resolves the escapes of a set; the flag tells characters that were escaped. -/
def unescapeSet : Nat → List Char → List (Char × Bool)
  | 0, _ | _, [] => []
  | fuel + 1, '\\' :: rest =>
    match rest with
    | [] => [('\\', false)]
    | c :: more =>
      if isOctal c then
        let digits := (rest.take 3).takeWhile isOctal
        (Char.ofNat (Arithmetic.numeral 8 digits % 256), true) ::
          unescapeSet fuel (rest.drop digits.length)
      else ((escape? c).getD c, true) :: unescapeSet fuel more
  | fuel + 1, c :: rest => (c, false) :: unescapeSet fuel rest

/-- The text up to a closing mark. -/
def upTo (mark : List Char) (s : List (Char × Bool)) : Option (List Char × List (Char × Bool)) :=
  let starts := (List.range s.length).find? fun i =>
    (s.drop i).take mark.length == mark.map (·, false)
  starts.map fun i => ((s.take i).map (·.1), s.drop (i + mark.length))

/-- Reads the pieces of a set. -/
def readSet : Nat → List (Char × Bool) → Except String (List SetItem)
  | 0, _ | _, [] => .ok []
  | fuel + 1, s =>
    match s with
    | ('[', false) :: (':', false) :: rest =>
      match upTo [':', ']'] rest with
      | some (name, rest) =>
        match Choice.class? (String.ofList name) with
        | some p => do
          return .named (String.ofList name) (allBytes.filter p) :: (← readSet fuel rest)
        | none => .error ("invalid character class " ++ inQuotes (String.ofList name))
      | none => plainItem fuel s
    | ('[', false) :: ('=', false) :: (c, _) :: ('=', false) :: (']', false) :: rest => do
      return .chars [c] :: (← readSet fuel rest)
    | ('[', false) :: (c, _) :: ('*', false) :: rest =>
      let digits := (rest.map (·.1)).takeWhile Char.isDigit
      match rest.drop digits.length with
      | (']', false) :: rest => do
        let base := if digits.head? = some '0' then 8 else 10
        return .repeated c (Arithmetic.numeral base digits) :: (← readSet fuel rest)
      | _ => plainItem fuel s
    | _ => plainItem fuel s
where
  plainItem (fuel : Nat) (s : List (Char × Bool)) : Except String (List SetItem) :=
    match s with
    | (a, _) :: ('-', false) :: (b, _) :: rest =>
      if b < a then
        .error ("range-endpoints of " ++ inQuotes (String.ofList [a, '-', b]) ++
          " are in reverse collating sequence order")
      else do
        let list := (List.range (b.toNat - a.toNat + 1)).map fun i => Char.ofNat (a.toNat + i)
        return .chars list :: (← readSet fuel rest)
    | (c, _) :: rest => do return .chars [c] :: (← readSet fuel rest)
    | [] => .ok []

/-- The characters of a set; a repeated character without a number fills the set up to a size. -/
def setChars (size : Nat) (items : List SetItem) : List Char :=
  let fixed := (items.map fun
    | .chars list | .named _ list => list.length
    | .repeated _ n => n).foldl (· + ·) 0
  items.flatMap fun
    | .chars list | .named _ list => list
    | .repeated c n => List.replicate (if n = 0 then size - fixed else n) c

/-- Drops characters of a set that follow themselves. -/
def squeeze (isIn : Char → Bool) : List Char → List Char
  | [] => []
  | [c] => [c]
  | a :: b :: rest =>
    if a = b && isIn a then squeeze isIn (b :: rest) else a :: squeeze isIn (b :: rest)

/-- The character that replaces another. -/
def replacement (pairs : List (Char × Char)) (c : Char) : Char :=
  (pairs.reverse.lookup c).getD c

def tr (args : List ByteString) : Run Nat :=
  withOptions "tr"
    ⟨"cCdst", [("complement", 'c'), ("delete", 'd'), ("squeeze-repeats", 's'),
      ("truncate-set1", 't')], false⟩ 1 args fun o => do
    let deletes := o.has 'd'
    let squeezes := o.has 's'
    let read := fun text : ByteString =>
      readSet (text.length + 1) (unescapeSet (text.length + 1) text.toList)
    match o.operands with
    | [] => blameUse "tr" 1 "missing operand"
    | _ :: _ :: extra :: _ => blameUse "tr" 1 ("extra operand " ++ inQuotes extra)
    | [only] =>
      if !deletes ∧ !squeezes then
        blameUse "tr" 1 ("missing operand after " ++ inQuotes only ++
          "\nTwo strings must be given when translating.")
      else if deletes ∧ squeezes then
        blameUse "tr" 1 ("missing operand after " ++ inQuotes only ++
          "\nTwo strings must be given when both deleting and squeezing repeats.")
      else
        match read only with
        | .error message => blame "tr" 1 message
        | .ok items =>
          let isIn := membership o items
          let text ← readRest 0
          say (if deletes then text.filter fun c => !isIn c else squeeze isIn text)
          return 0
    | [first, second] =>
      if deletes ∧ !squeezes then
        blameUse "tr" 1 ("extra operand " ++ inQuotes second ++
          "\nOnly one string may be given when deleting without squeezing repeats.")
      else
        match read first, read second with
        | .error message, _ | _, .error message => blame "tr" 1 message
        | .ok items, .ok others =>
          let isIn := membership o items
          let text ← readRest 0
          if deletes then
            let kept := text.filter fun c => !isIn c
            say (squeeze (fun c => (setChars 0 others).contains c) kept)
            return 0
          else
            let otherClass := others.any fun
              | .named name _ => name ≠ "upper" && name ≠ "lower"
              | _ => false
            let list := setChars 0 items
            let list := if o.has 'c' || o.has 'C' then allBytes.filter isIn else list
            let targets := setChars list.length others
            if otherClass then
              blame "tr" 1 ("when translating, the only character classes that may appear in\n" ++
                "string2 are 'upper' and 'lower'")
            else if targets.isEmpty ∧ !o.has 't' then
              blame "tr" 1 "when not truncating set1, string2 must be non-empty"
            else
              let last := targets.getLastD ' '
              let filled := if o.has 't' then targets
                else targets ++ List.replicate (list.length - targets.length) last
              let table := (allBytes.map (replacement (list.zip filled))).toArray
              let translated := text.map fun c => (table[c.toNat]?).getD c
              say (if squeezes then squeeze (fun c => targets.contains c) translated
                else translated)
              return 0
where
  membership (o : Options) (items : List SetItem) : Char → Bool :=
    let list := setChars 0 items
    let members := (allBytes.map fun c => list.contains c != (o.has 'c' || o.has 'C')).toArray
    fun c => (members[c.toNat]?).getD false

end LayoutShell.Host.Program
