import LayoutShell.Host.Program.Filters

/-!
# Sorting lines

`sort` compares lines by keys, each of which is a stretch of fields with its own way of comparing.
Lines with equal keys are compared as a whole, unless they are to stay in order. `uniq` reports
lines that repeat.

* `SortKey.select` cuts a key out of a line, and `SortKey.compare` compares two lines by it.
* `SortOrder.compare` compares lines by all keys.
-/

namespace LayoutShell.Host.Program

open Files

/-! ## Comparing -/

/-- How keys are compared. -/
inductive Comparison
  | text
  | number
  | general
  | human
  | month
  | version
  deriving DecidableEq

def isBlank (c : Char) : Bool := c == ' ' || c == '\t' || c == '\n'

/-- A decimal number: its value times a power of ten, with the exponent of that power. -/
def decimalOf (withExponent : Bool) (s : List Char) : Option (Int × Int) :=
  let s := s.dropWhile isBlank
  let (negative, s) := match s with
    | '-' :: rest => (true, rest)
    | '+' :: rest => if withExponent then (false, rest) else (false, '+' :: rest)
    | s => (false, s)
  let whole := s.takeWhile Char.isDigit
  let rest := s.drop whole.length
  let fraction := match rest with
    | '.' :: rest => rest.takeWhile Char.isDigit
    | _ => []
  if whole.isEmpty ∧ fraction.isEmpty then none
  else
    let rest := if rest.head? = some '.' then rest.drop (fraction.length + 1) else rest
    let exponent : Int := match rest with
      | e :: rest =>
        if withExponent ∧ (e = 'e' ∨ e = 'E') then
          match rest with
          | '-' :: digits => -(Arithmetic.numeral 10 (digits.takeWhile Char.isDigit) : Int)
          | '+' :: digits => (Arithmetic.numeral 10 (digits.takeWhile Char.isDigit) : Int)
          | digits => (Arithmetic.numeral 10 (digits.takeWhile Char.isDigit) : Int)
        else 0
      | [] => 0
    let n : Int := Arithmetic.numeral 10 (whole ++ fraction)
    some (if negative then -n else n, exponent - fraction.length)

/-- Compares numbers given with powers of ten. -/
def compareDecimals (a b : Int × Int) : Ordering :=
  let low := min a.2 b.2
  let scale := fun (n : Int × Int) => n.1 * Int.pow 10 (n.2 - low).toNat
  compare (scale a) (scale b)

/-- The rank of the unit after a number. -/
def unitRank (s : List Char) : Nat :=
  let rest := (s.dropWhile isBlank).dropWhile fun c => c = '-' || c.isDigit || c = '.'
  match rest with
  | c :: _ => ("KMGTPEZY".toList.findIdx? (· = c.toUpper)).elim 0 (· + 1)
  | [] => 0

/-- The number of the month that a text begins with. -/
def monthOf (s : List Char) : Nat :=
  let start := ((s.dropWhile isBlank).take 3).map Char.toUpper
  (["JAN", "FEB", "MAR", "APR", "MAY", "JUN", "JUL", "AUG", "SEP", "OCT", "NOV", "DEC"].findIdx?
    (·.toList = start)).elim 0 (· + 1)

/-- Compares texts in which digits form numbers. -/
def compareVersions : Nat → List Char → List Char → Ordering
  | 0, _, _ => .eq
  | _, [], [] => .eq
  | _, [], _ => .lt
  | _, _, [] => .gt
  | fuel + 1, a :: as, b :: bs =>
    if a.isDigit ∧ b.isDigit then
      let x := (a :: as).takeWhile Char.isDigit
      let y := (b :: bs).takeWhile Char.isDigit
      let order := compare (Arithmetic.numeral 10 x) (Arithmetic.numeral 10 y)
      if order ≠ .eq then order
      else compareVersions fuel ((a :: as).drop x.length) ((b :: bs).drop y.length)
    else if a = b then compareVersions fuel as bs
    else compare (rank a) (rank b)
where
  /-- Letters come before other characters, and a tilde before everything. -/
  rank (c : Char) : Nat :=
    if c = '~' then 0 else if c.isDigit then 1 else if c.isAlpha then c.toNat else c.toNat + 256

/-- Compares characters one by one. -/
def compareTexts : List Char → List Char → Ordering
  | [], [] => .eq
  | [], _ => .lt
  | _, [] => .gt
  | a :: as, b :: bs => if a = b then compareTexts as bs else compare a.toNat b.toNat

/-- The options of a key. -/
structure KeyOptions where
  comparison : Comparison := .text
  reversed : Bool := false
  foldCase : Bool := false
  /-- Only letters, digits and blanks count. -/
  dictionary : Bool := false
  printable : Bool := false
  skipStart : Bool := false
  skipEnd : Bool := false
  deriving DecidableEq

/-- Adds an option by its letter; `atEnd` says that it stands after the second position. -/
def KeyOptions.add (k : KeyOptions) (atEnd : Bool) (c : Char) : Option KeyOptions :=
  match c with
  | 'b' => some (if atEnd then { k with skipEnd := true } else { k with skipStart := true })
  | 'n' => some { k with comparison := .number }
  | 'g' => some { k with comparison := .general }
  | 'h' => some { k with comparison := .human }
  | 'M' => some { k with comparison := .month }
  | 'V' => some { k with comparison := .version }
  | 'r' => some { k with reversed := true }
  | 'f' => some { k with foldCase := true }
  | 'd' => some { k with dictionary := true }
  | 'i' => some { k with printable := true }
  | _ => none

/-- A stretch of a line with a way of comparing. -/
structure SortKey where
  /-- Fields and characters to skip at the start. -/
  field : Nat := 0
  char : Nat := 0
  /-- The last field and how many characters of it count; none for the whole of it. -/
  stop? : Option (Nat × Nat) := none
  options : KeyOptions := {}

namespace SortKey

/-- Skips a field. Without a separator a field begins with the blanks before it. -/
def skipField (tab? : Option Char) (s : List Char) : List Char :=
  match tab? with
  | some tab => (s.dropWhile (· ≠ tab)).drop 1
  | none => (s.dropWhile isBlank).dropWhile fun c => !isBlank c

def skipFields (tab? : Option Char) : Nat → List Char → List Char
  | 0, s => s
  | n + 1, s => skipFields tab? n (skipField tab? s)

/-- What is left of a line after the end of a key. -/
def afterEnd (tab? : Option Char) (k : SortKey) (line : List Char) : List Char :=
  match k.stop? with
  | none => []
  | some (field, 0) =>
    let rest := skipFields tab? (field - 1) line
    match tab? with
    | some tab => rest.dropWhile (· ≠ tab)
    | none => skipField none rest
  | some (field, count) =>
    let rest := skipFields tab? (field - 1) line
    let rest := if k.options.skipEnd then rest.dropWhile isBlank else rest
    rest.drop count

/-- The part of a line that a key compares. -/
def select (tab? : Option Char) (k : SortKey) (line : List Char) : List Char :=
  let start := skipFields tab? k.field line
  let start := if k.options.skipStart then start.dropWhile isBlank else start
  let start := start.drop k.char
  start.take (start.length - (k.afterEnd tab? line).length)

/-- The characters that count. -/
def significant (o : KeyOptions) (s : List Char) : List Char :=
  let s := if o.dictionary then s.filter fun c => c.isAlphanum || isBlank c else s
  let s := if o.printable then s.filter fun c => ' ' ≤ c && c ≤ '~' else s
  if o.foldCase then s.map Char.toUpper else s

/-- Compares two lines by a key. -/
def compare (tab? : Option Char) (k : SortKey) (a b : List Char) : Ordering :=
  let (x, y) := (k.select tab? a, k.select tab? b)
  let order := match k.options.comparison with
    | .text => compareTexts (significant k.options x) (significant k.options y)
    | .number => compareDecimals ((decimalOf false x).getD (0, 0)) ((decimalOf false y).getD (0, 0))
    | .general =>
      match decimalOf true x, decimalOf true y with
      | some m, some n => compareDecimals m n
      | none, some _ => .lt
      | some _, none => .gt
      | none, none => .eq
    | .human =>
      let value := fun s => (decimalOf false s).getD (0, 0)
      let signed := fun s => if (value s).1 < 0 then -(unitRank s : Int) else unitRank s
      (Ord.compare (signed x) (signed y)).then (compareDecimals (value x) (value y))
    | .month => Ord.compare (monthOf x) (monthOf y)
    | .version => compareVersions (x.length + y.length + 1) x y
  if k.options.reversed then order.swap else order

end SortKey

/-- How lines are sorted. -/
structure SortOrder where
  tab? : Option Char
  keys : List SortKey
  /-- Lines with equal keys stay in order. -/
  stable : Bool
  reversed : Bool

namespace SortOrder

/-- Compares lines by keys. -/
def byKeys (o : SortOrder) (a b : List Char) : Ordering :=
  o.keys.foldl (fun order k => order.then (k.compare o.tab? a b)) .eq

/-- Compares lines. -/
def compare (o : SortOrder) (a b : List Char) : Ordering :=
  let last := if o.stable then .eq
    else if o.reversed then (compareTexts a b).swap else compareTexts a b
  (o.byKeys a b).then last

def sort (o : SortOrder) (lines : List (List Char)) : List (List Char) :=
  lines.mergeSort fun a b => o.compare a b ≠ .gt

/-- Keeps the first of lines that are equal. -/
def distinct (o : SortOrder) : List (List Char) → List (List Char)
  | [] => []
  | line :: rest =>
    match distinct o rest with
    | next :: more =>
      if o.compare line next = .eq then line :: more else line :: next :: more
    | [] => [line]

/-- The first line that is out of order, with its number. -/
def disorder? (o : SortOrder) (unique : Bool) : Nat → List (List Char) →
    Option (Nat × List Char)
  | n, a :: b :: rest =>
    let order := o.compare a b
    if order = .gt ∨ unique ∧ order = .eq then some (n + 1, b)
    else o.disorder? unique (n + 1) (b :: rest)
  | _, _ => none

end SortOrder

/-! ## Keys as texts -/

/-- A number at the start of a text. -/
def takeCount (s : List Char) : Option (Nat × List Char) :=
  let digits := s.takeWhile Char.isDigit
  if digits.isEmpty then none
  else some (Arithmetic.numeral 10 digits, s.drop digits.length)

/-- The options at the start of a text. -/
def takeKeyOptions (atEnd : Bool) (k : KeyOptions) : List Char → KeyOptions × List Char
  | [] => (k, [])
  | c :: rest =>
    match k.add atEnd c with
    | some k => takeKeyOptions atEnd k rest
    | none => (k, c :: rest)

/-- Reads a key; options of all keys hold for one without its own. -/
def readKey (inherited : KeyOptions) (text : ByteString) : Except String SortKey := do
  let s := text.toList
  let (field, rest) ← match takeCount s with
    | some result => pure result
    | none =>
      throw ("invalid number at field start: invalid count at start of " ++ inQuotes text)
  if field = 0 then throw ("field number is zero: invalid field specification " ++ inQuotes text)
  let (char, rest) ← match rest with
    | '.' :: rest =>
      match takeCount rest with
      | some (0, _) =>
        throw ("character offset is zero: invalid field specification " ++ inQuotes text)
      | some (n, rest) => pure (n - 1, rest)
      | none =>
        throw ("invalid number after '.': invalid count at start of " ++
          inQuotes (String.ofList rest))
    | rest => pure (0, rest)
  let (own, rest) := takeKeyOptions false {} rest
  let (stop?, own, rest) ← match rest with
    | ',' :: rest => do
      let (last, rest) ← match takeCount rest with
        | some result => pure result
        | none =>
          throw ("invalid number after ',': invalid count at start of " ++
            inQuotes (String.ofList rest))
      if last = 0 then
        throw ("field number is zero: invalid field specification " ++ inQuotes text)
      let (count, rest) := match rest with
        | '.' :: rest => (takeCount rest).getD (0, rest)
        | rest => (0, rest)
      let (own, rest) := takeKeyOptions true own rest
      pure (some (last, count), own, rest)
    | rest => pure (none, own, rest)
  if !rest.isEmpty then
    throw ("stray character in field spec: invalid field specification " ++ inQuotes text)
  return ⟨field - 1, char, stop?, if own = {} then inherited else own⟩

/-! ## The programs -/

/-- The separator of fields that options give. -/
def fieldSeparator (o : Options) : Except String (Option Char) :=
  match (o.argument? 't').map String.toList with
  | none => .ok none
  | some [c] => .ok (some c)
  | some [] => .error "empty tab"
  | some ['\\', '0'] => .ok (some '\x00')
  | some s => .error ("multi-character tab " ++ inQuotes (String.ofList s))

/-- The order that options describe. -/
def sortOrder (o : Options) : Except String SortOrder := do
  let shared := o.given.foldl (fun k (c, _) =>
    let k := (k.add false c).getD k
    if c = 'b' then { k with skipEnd := true } else k) ({} : KeyOptions)
  let keys ← (o.arguments 'k').mapM (readKey shared)
  let tab? ← fieldSeparator o
  let plain := { shared with reversed := false } = ({} : KeyOptions)
  let keys := if keys.isEmpty ∧ !plain then [{ options := shared }] else keys
  return { tab? := tab?, keys := keys, reversed := shared.reversed
           stable := (o.has 's' || o.has 'u') && !keys.isEmpty }

def sort (args : List ByteString) : Run Nat :=
  withOptions "sort"
    ⟨"bcCdfghik:mMno:rRsS:t:T:uVz", [("ignore-leading-blanks", 'b'), ("check", 'c'),
      ("dictionary-order", 'd'), ("ignore-case", 'f'), ("general-numeric-sort", 'g'),
      ("human-numeric-sort", 'h'), ("ignore-nonprinting", 'i'), ("key", 'k'), ("merge", 'm'),
      ("month-sort", 'M'), ("numeric-sort", 'n'), ("output", 'o'), ("reverse", 'r'),
      ("stable", 's'), ("field-separator", 't'), ("unique", 'u'), ("version-sort", 'V'),
      ("zero-terminated", 'z')], true⟩ 2 args fun o => do
    match sortOrder o with
    | .error message => blame "sort" 2 message
    | .ok order =>
      let ending := if o.has 'z' then '\x00' else '\n'
      let mut lines : List (List Char) := []
      for path in (if o.operands.isEmpty then ["-"] else o.operands) do
        match ← readOperand path with
        | .ok text =>
          lines := lines ++ (linesWithEnds ending text).map fun line =>
            if line.getLast? = some ending then line.dropLast else line
        | .error e =>
          let verb := if e = .isDirectory then "read failed: " else "cannot read: "
          return ← blame "sort" 2 (verb ++ plainProblem path e)
      if o.has 'c' || o.has 'C' then
        match order.disorder? (o.has 'u') 1 lines with
        | none => return 0
        | some (n, line) =>
          if o.has 'C' then return 1
          let name := (o.operands.head?).getD "-"
          blame "sort" 1 (name ++ ":" ++ toString n ++ ": disorder: " ++ String.ofList line)
      else
        let sorted := order.sort lines
        let sorted := if o.has 'u' then order.distinct sorted else sorted
        let text := sorted.flatMap (· ++ [ending])
        match o.argument? 'o' with
        | none =>
          say text
          return 0
        | some path =>
          match ← writeFile path text with
          | .ok () => return 0
          | .error e => blame "sort" 2 ("open failed: " ++ plainProblem path e)

/-! ## Repeated lines -/

/-- Groups neighbouring lines that are alike. -/
def groupLines (alike : List Char → List Char → Bool) :
    List (List Char) → List (List (List Char))
  | [] => []
  | line :: rest =>
    match groupLines alike rest with
    | (first :: group) :: groups =>
      if alike line first then (line :: first :: group) :: groups
      else [line] :: (first :: group) :: groups
    | groups => [line] :: groups

/-- Skips fields, each with the blanks before it. -/
def skipUniqFields : Nat → List Char → List Char
  | 0, s => s
  | n + 1, s => skipUniqFields n ((s.dropWhile isBlank).dropWhile fun c => !isBlank c)

def uniq (args : List ByteString) : Run Nat :=
  withOptions "uniq"
    ⟨"cdDf:is:uw:z", [("count", 'c'), ("repeated", 'd'), ("all-repeated", 'D'),
      ("skip-fields", 'f'), ("ignore-case", 'i'), ("skip-chars", 's'), ("unique", 'u'),
      ("check-chars", 'w')], true⟩ 1 args fun o => do
    match o.operands with
    | _ :: _ :: extra :: _ => blameUse "uniq" 1 ("extra operand " ++ inQuotes extra)
    | operands =>
      let path := (operands.head?).getD "-"
      match ← readOperand path with
      | .error .isDirectory => blame "uniq" 1 ("error reading " ++ quotedName path)
      | .error e => blame "uniq" 1 (plainProblem path e)
      | .ok text =>
        let number := fun c => (o.argument? c).bind fun s => count? s.toList
        let key := fun line : List Char =>
          let s := (skipUniqFields ((number 'f').getD 0) line).drop ((number 's').getD 0)
          let s := (number 'w').elim s s.take
          if o.has 'i' then s.map Char.toUpper else s
        let groups := groupLines (fun a b => key a = key b) (linesOf text)
        let shown := groups.flatMap fun group =>
          let repeated := group.length > 1
          if o.has 'D' then if repeated then group else []
          else if o.has 'd' ∧ !repeated ∨ o.has 'u' ∧ repeated then []
          else
            let line := group.headD []
            if o.has 'c' then
              [fillLeft ' ' 7 (toString group.length).toList ++ ' ' :: line]
            else [line]
        match operands with
        | [_, output] =>
          match ← writeFile output (unlines shown) with
          | .ok () => return 0
          | .error e => blame "uniq" 1 (plainProblem output e)
        | _ =>
          say (unlines shown)
          return 0

end LayoutShell.Host.Program
