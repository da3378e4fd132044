import LayoutShell.Binary64
import LayoutShell.Host.Arithmetic
import LayoutShell.Host.ByteString

/-!
# Printing commands

* `echoText` is what `echo` prints.
* `Format.print` is what `printf` prints: a format is applied as often as there are arguments for
  it.
-/

namespace LayoutShell.Host

/-! ## Escapes -/

def isOctal (c : Char) : Bool := '0' ≤ c && c ≤ '7'

/-- The byte of at most `count` octal digits, and the rest. -/
def takeOctal (count : Nat) (s : List Char) : Char × List Char :=
  let digits := (s.take count).takeWhile isOctal
  (Char.ofNat (Arithmetic.numeral 8 digits % 256), s.drop digits.length)

/-- The character that a letter after a backslash stands for. -/
def escape? (c : Char) : Option Char :=
  match c with
  | 'a' => some '\x07'
  | 'b' => some '\x08'
  | 'e' => some '\x1b'
  | 'f' => some '\x0c'
  | 'n' => some '\n'
  | 'r' => some '\r'
  | 't' => some '\t'
  | 'v' => some '\x0b'
  | '\\' => some '\\'
  | _ => none

/-- The character after a backslash in a format, and the rest; a backslash without a meaning stands
for itself. -/
def takeEscape (s : List Char) : Char × List Char :=
  match s with
  | [] => ('\\', [])
  | c :: rest =>
    if isOctal c then takeOctal 3 s
    else
      match escape? c with
      | some d => (d, rest)
      | none => ('\\', s)

/-- Replaces the escapes of an argument; the flag tells whether `\c` cuts all output short. -/
def unescape : Nat → List Char → List Char × Bool
  | 0, _ => ([], false)
  | _, [] => ([], false)
  | fuel + 1, '\\' :: rest =>
    match rest with
    | 'c' :: _ => ([], true)
    | '0' :: rest =>
      let (c, rest) := takeOctal 3 rest
      let (more, cut) := unescape fuel rest
      (c :: more, cut)
    | rest =>
      let (c, rest) := takeEscape rest
      let (more, cut) := unescape fuel rest
      (c :: more, cut)
  | fuel + 1, c :: rest =>
    let (more, cut) := unescape fuel rest
    (c :: more, cut)

def unescaped (s : List Char) : List Char × Bool := unescape (s.length + 1) s

/-- The arguments of `echo` one after another; the flag tells whether the output is cut short. -/
def echoWords : List ByteString → List Char × Bool
  | [] => ([], false)
  | [word] => unescaped word.toList
  | word :: rest =>
    match unescaped word.toList with
    | (s, true) => (s, true)
    | (s, false) =>
      let (more, cut) := echoWords rest
      (s ++ ' ' :: more, cut)

/-- What `echo` prints. -/
def echoText (args : List ByteString) : List Char :=
  let (args, ending) := match args with
    | "-n" :: args => (args, [])
    | args => (args, ['\n'])
  let (s, cut) := echoWords args
  if cut then s else s ++ ending

/-! ## Numbers in decimal form -/

/-- A text filled up with a character to a width. -/
def fillLeft (c : Char) (width : Nat) (s : List Char) : List Char :=
  List.replicate (width - s.length) c ++ s

/-- Digits with a point before the last `places`. -/
def placePoint (places : Nat) (n : Nat) : List Char :=
  let digits := fillLeft '0' (places + 1) (Nat.toDigits 10 n)
  let whole := digits.take (digits.length - places)
  if places = 0 then whole else whole ++ '.' :: digits.drop whole.length

/-- A magnitude with a fixed number of places. -/
def fixedPoint (x : Binary64) (places : Nat) : List Char :=
  let (num, den) := x.fraction
  placePoint places (Binary64.roundDiv (num * Nat.pow 10 places) den)

/-- The digits of a magnitude with one before the point, and the exponent of ten. -/
def scientific (x : Binary64) (places : Nat) : Nat × Int :=
  if x.mantissa = 0 then (0, 0)
  else
    let e := x.decimalExponent 634
    let (num, den) := x.atPlace (e - places)
    let n := Binary64.roundDiv num den
    if Nat.pow 10 (places + 1) ≤ n then (n / 10, e + 1) else (n, e)

def exponentText (mark : Char) (e : Int) : List Char :=
  mark :: (if e < 0 then '-' else '+') :: fillLeft '0' 2 (Nat.toDigits 10 e.natAbs)

/-- A magnitude with an exponent. -/
def withExponent (mark : Char) (x : Binary64) (places : Nat) : List Char :=
  let (n, e) := scientific x places
  placePoint places n ++ exponentText mark e

/-- Drops zeros at the end of a fraction, and the point if nothing follows it. -/
def dropZeros (s : List Char) : List Char :=
  if s.contains '.' then
    let kept := s.reverse.dropWhile (· = '0')
    (if kept.head? = some '.' then kept.tail else kept).reverse
  else s

/-- A magnitude in the shorter of both forms, with at most this many digits. -/
def generalForm (mark : Char) (keepZeros : Bool) (x : Binary64) (digits : Nat) : List Char :=
  let digits := max digits 1
  let (n, e) := scientific x (digits - 1)
  let clean := fun s => if keepZeros then s else dropZeros s
  if -4 ≤ e ∧ e < digits then clean (fixedPoint x (digits - 1 - e).toNat)
  else clean (placePoint (digits - 1) n) ++ exponentText mark e

/-! ## Reading numbers -/

/-- What an argument says about itself as a number. -/
inductive Reading (α : Type)
  | fine (value : α)
  /-- It has a problem, but stands for a value all the same. -/
  | doubtful (value : α) (problem : String)

namespace Reading

variable {α : Type}

def value : Reading α → α
  | fine v | doubtful v _ => v

def problem? : Reading α → Option String
  | fine _ => none
  | doubtful _ p => some p

end Reading

/-- Judges a number by what is left of the text after it. -/
def judge {α : Type} (v : α) (nothingRead outOfRange : Bool) (rest : List Char) : Reading α :=
  if !rest.isEmpty then
    .doubtful v (if nothingRead then "expected numeric value" else "not completely converted")
  else if outOfRange then .doubtful v "Numerical result out of range"
  else .fine v

/-- An integer argument: a number, or a quote before a character. -/
def readInteger (signed : Bool) (s : List Char) : Reading Int :=
  match s with
  | [] => .fine 0
  | c :: rest =>
    if c = '\'' ∨ c = '"' then .fine ((rest.head?.map Char.toNat).getD 0)
    else
      let body := s.dropWhile Arithmetic.isSpace
      let (negative, digits) := match body with
        | '-' :: rest => (true, rest)
        | '+' :: rest => (false, rest)
        | body => (false, body)
      if digits.head?.any Char.isDigit then
        let (n, rest) := Arithmetic.takeNumber digits
        let value : Int := if negative then -n else n
        let least : Int := if signed then -Int.pow 2 63 else -(Int.pow 2 64 - 1)
        let greatest : Int := if signed then Int.pow 2 63 - 1 else Int.pow 2 64 - 1
        let kept := if !signed ∧ (value < least ∨ greatest < value) then greatest
          else max least (min greatest value)
        judge kept false (kept ≠ value) rest
      else judge 0 true false s

/-- A floating-point argument. -/
inductive FloatArgument
  | finite (x : Binary64)
  | infinite (negative : Bool)
  | undefined

/-- The digits of a decimal number: its digits, their exponent of ten, and the rest. -/
def takeDecimal? (s : List Char) : Option (Nat × Int × List Char) :=
  let whole := s.takeWhile Char.isDigit
  let rest := s.drop whole.length
  let fraction := match rest with
    | '.' :: rest => rest.takeWhile Char.isDigit
    | _ => []
  if whole.isEmpty ∧ fraction.isEmpty then none
  else
    let rest := match rest with
      | '.' :: rest => rest.drop fraction.length
      | rest => rest
    let digits := Arithmetic.numeral 10 (whole ++ fraction)
    let places : Int := fraction.length
    match rest with
    | e :: more =>
      let (negative, power) := match more with
        | '-' :: power => (true, power)
        | '+' :: power => (false, power)
        | power => (false, power)
      let taken := power.takeWhile Char.isDigit
      if (e = 'e' ∨ e = 'E') ∧ !taken.isEmpty then
        let n : Int := Arithmetic.numeral 10 taken
        some (digits, (if negative then -n else n) - places, power.drop taken.length)
      else some (digits, -places, rest)
    | [] => some (digits, -places, [])

def readFloat (s : List Char) : Reading FloatArgument :=
  match s with
  | [] => .fine (.finite ⟨false, 0, 0⟩)
  | c :: rest =>
    if c = '\'' ∨ c = '"' then
      let n := (rest.head?.map Char.toNat).getD 0
      .fine (((Binary64.ofDecimal false n 0).map .finite).getD .undefined)
    else
      let body := s.dropWhile Arithmetic.isSpace
      let (negative, digits) := match body with
        | '-' :: rest => (true, rest)
        | '+' :: rest => (false, rest)
        | body => (false, body)
      let word := digits.map Char.toLower
      if "inf".toList.isPrefixOf word then
        let size := if "infinity".toList.isPrefixOf word then 8 else 3
        judge (.infinite negative) false false (digits.drop size)
      else if "nan".toList.isPrefixOf word then judge .undefined false false (digits.drop 3)
      else
        match takeDecimal? digits with
        | none => judge (.finite ⟨false, 0, 0⟩) true false s
        | some (n, e, rest) =>
          match Binary64.ofDecimal negative n e with
          | some x => judge (.finite x) false false rest
          | none => judge (.infinite negative) false true rest

/-! ## Formats -/

/-- How a conversion is laid out. -/
structure Layout where
  left : Bool := false
  zeros : Bool := false
  plus : Bool := false
  space : Bool := false
  alternate : Bool := false
  width : Nat := 0
  precision? : Option Nat := none

namespace Layout

/-- A text filled up with spaces. -/
def fill (l : Layout) (s : List Char) : List Char :=
  if l.left then s ++ List.replicate (l.width - s.length) ' ' else fillLeft ' ' l.width s

/-- A number with its sign, filled up with spaces, or with zeros after the sign. -/
def fillNumber (l : Layout) (zeros : Bool) (sign digits : List Char) : List Char :=
  if zeros ∧ !l.left then sign ++ fillLeft '0' (l.width - sign.length) digits
  else l.fill (sign ++ digits)

def sign (l : Layout) (negative : Bool) : List Char :=
  if negative then ['-'] else if l.plus then ['+'] else if l.space then [' '] else []

/-- An integer with at least as many digits as the precision says. -/
def integer (l : Layout) (sign : List Char) (base : Nat) (upper : Bool) (n : Nat) : List Char :=
  let digits := if n = 0 ∧ l.precision? = some 0 then [] else Nat.toDigits base n
  let digits := fillLeft '0' (l.precision?.getD 0) digits
  let digits := if upper then digits.map Char.toUpper else digits
  let digits := if l.alternate ∧ base = 8 ∧ digits.head? ≠ some '0' then '0' :: digits else digits
  let sign := if l.alternate ∧ base = 16 ∧ n ≠ 0 then
      sign ++ ['0', if upper then 'X' else 'x']
    else sign
  l.fillNumber (l.zeros && l.precision?.isNone) sign digits

def float (l : Layout) (conversion : Char) : FloatArgument → List Char
  | .undefined => l.fill (cased "nan".toList)
  | .infinite negative => l.fill (l.sign negative ++ cased "inf".toList)
  | .finite x =>
    let precision := l.precision?.getD 6
    let mark := if conversion.isUpper then 'E' else 'e'
    let digits := match conversion.toLower with
      | 'f' => fixedPoint x precision
      | 'e' => withExponent mark x precision
      | _ => generalForm mark l.alternate x precision
    l.fillNumber l.zeros (l.sign x.negative) digits
where
  cased (s : List Char) : List Char := if conversion.isUpper then s.map Char.toUpper else s

/-- Takes flags into a layout. -/
def ofFlags (flags : List Char) : Layout where
  left := flags.contains '-'
  zeros := flags.contains '0'
  plus := flags.contains '+'
  space := flags.contains ' '
  alternate := flags.contains '#'

end Layout

/-- What a format has printed so far. -/
structure Format where
  output : List Char := []
  arguments : List ByteString
  problems : List String := []
  /-- The output ends here, because of an escape or an error. -/
  stop : Option (Option String) := none

namespace Format

def put (f : Format) (s : List Char) : Format := { f with output := f.output ++ s }

def halt (f : Format) (error? : Option String) : Format := { f with stop := some error? }

/-- Takes an argument. -/
def take (f : Format) : ByteString × Format :=
  (f.arguments.headD "", { f with arguments := f.arguments.tail })

/-- Notes a problem with an argument. -/
def note {α : Type} (f : Format) (argument : ByteString) (r : Reading α) : Format :=
  match r.problem? with
  | some p => { f with problems := f.problems ++ [argument ++ ": " ++ p] }
  | none => f

/-- Takes an argument as an integer. -/
def takeInteger (f : Format) (signed : Bool) : Int × Format :=
  let (argument, f) := f.take
  let r := readInteger signed argument.toList
  (r.value, f.note argument r)

/-- A number written in a format, or taken from the arguments. -/
def takeSize (f : Format) (s : List Char) : Option Int × List Char × Format :=
  match s with
  | '*' :: rest =>
    let (n, f) := f.takeInteger true
    (some n, rest, f)
  | s =>
    let digits := s.takeWhile Char.isDigit
    if digits.isEmpty then (none, s, f)
    else (some (Arithmetic.numeral 10 digits), s.drop digits.length, f)

/-- Applies a conversion. -/
def convert (f : Format) (l : Layout) (directive : List Char) (conversion : Char) : Format :=
  let cut := fun s : List Char => l.precision?.elim s s.take
  match conversion with
  | 's' =>
    let (argument, f) := f.take
    f.put (l.fill (cut argument.toList))
  | 'b' =>
    let (argument, f) := f.take
    let (s, stopped) := unescaped argument.toList
    let f := f.put (l.fill (cut s))
    if stopped then f.halt none else f
  | 'c' =>
    let (argument, f) := f.take
    f.put (l.fill [argument.toList.headD '\x00'])
  | 'd' | 'i' =>
    let (n, f) := f.takeInteger true
    f.put (l.integer (l.sign (n < 0)) 10 false n.natAbs)
  | 'u' => unsigned 10 false
  | 'o' => unsigned 8 false
  | 'x' => unsigned 16 false
  | 'X' => unsigned 16 true
  | 'e' | 'E' | 'f' | 'F' | 'g' | 'G' =>
    let (argument, f) := f.take
    let r := readFloat argument.toList
    (f.note argument r).put (l.float conversion r.value)
  | _ => f.halt (some (String.ofList directive ++ ": invalid directive"))
where
  unsigned (base : Nat) (upper : Bool) : Format :=
    let (n, f) := f.takeInteger false
    f.put (l.integer [] base upper (n % Int.pow 2 64).toNat)

/-- Applies the conversion after a percent sign; gives also the rest of the format. -/
def directive (f : Format) (s : List Char) : Format × List Char :=
  let isFlag := fun c : Char => "#-+ 0".toList.contains c
  let flags := s.takeWhile isFlag
  let (width?, rest, f) := f.takeSize (s.drop flags.length)
  let (precision?, rest, f) : Option Nat × List Char × Format := match rest with
    | '.' :: rest =>
      let (n?, rest, f) := f.takeSize rest
      let n := n?.getD 0
      (if n < 0 then none else some n.toNat, rest, f)
    | rest => (none, rest, f)
  let width := width?.getD 0
  let l := { Layout.ofFlags flags with width := width.natAbs, precision? := precision? }
  let l := if width < 0 then { l with left := true } else l
  match rest with
  | [] => (f.halt (some "missing format character"), [])
  | c :: rest =>
    let text := '%' :: s.take (s.length - rest.length)
    (f.convert l text c, rest)

/-- Applies a format once. -/
def once : Nat → Format → List Char → Format
  | 0, f, _ => f
  | _, f, [] => f
  | fuel + 1, f, '\\' :: rest =>
    let (c, rest) := takeEscape rest
    once fuel (f.put [c]) rest
  | fuel + 1, f, '%' :: '%' :: rest => once fuel (f.put ['%']) rest
  | fuel + 1, f, '%' :: rest =>
    let (f, rest) := f.directive rest
    if f.stop.isSome then f else once fuel f rest
  | fuel + 1, f, c :: rest => once fuel (f.put [c]) rest

/-- Applies a format until no arguments are left. -/
def repeated (format : List Char) : Nat → Format → Format
  | 0, f => f
  | fuel + 1, f =>
    let next := once (format.length + 1) f format
    let taken := next.arguments.length < f.arguments.length
    if next.stop.isSome ∨ !taken ∨ next.arguments.isEmpty then next
    else repeated format fuel next

/-- Applies a format to arguments. -/
def print (format : ByteString) (arguments : List ByteString) : Format :=
  repeated format.toList (arguments.length + 1) { arguments := arguments }

/-- The status of the command. -/
def status (f : Format) : Nat :=
  match f.stop with
  | some (some _) => 2
  | _ => if f.problems.isEmpty then 0 else 1

end Format

end LayoutShell.Host
