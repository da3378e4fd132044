import LayoutShell.Host.Program.Filters

/-!
# Bytes as texts

`od` shows bytes as numbers or characters, `base64` writes them in letters, and `md5sum`, `sha1sum`,
`sha256sum`, `cksum` and `sum` compute sums.
-/

namespace LayoutShell.Host.Program

open Files

/-! ## Dumps -/

/-- How the bytes of a dump are shown. -/
inductive DumpForm
  /-- As characters. -/
  | chars
  /-- As numbers of some bytes each, in a base, with a sign or not. -/
  | numbers (bytes base : Nat) (signed : Bool)

/-- The width of a number in a dump. -/
def DumpForm.width : DumpForm → Nat
  | chars => 3
  | numbers bytes base signed =>
    let digits := (Nat.toDigits base (Nat.pow 256 bytes - 1)).length
    if signed then (Nat.toDigits 10 (Nat.pow 256 bytes / 2)).length + 1 else digits

/-- A character in a dump. -/
def dumpChar (c : Char) : List Char :=
  match c with
  | '\x00' => "\\0".toList
  | '\x07' => "\\a".toList
  | '\x08' => "\\b".toList
  | '\t' => "\\t".toList
  | '\n' => "\\n".toList
  | '\x0b' => "\\v".toList
  | '\x0c' => "\\f".toList
  | '\r' => "\\r".toList
  | c => if ' ' ≤ c ∧ c ≤ '~' then [c] else fillLeft '0' 3 (Nat.toDigits 8 c.toNat)

/-- Cuts a text into pieces of a size. -/
def pieces (n : Nat) : Nat → List Char → List (List Char)
  | 0, _ | _, [] => []
  | fuel + 1, s => s.take n :: pieces n fuel (s.drop n)

/-- The number that bytes stand for, the lowest first. -/
def littleEndian (s : List Char) : Nat := s.foldr (fun c n => n * 256 + c.toNat) 0

/-- A piece of a line of a dump. -/
def DumpForm.item (f : DumpForm) (s : List Char) : List Char :=
  match f with
  | chars => ' ' :: fillLeft ' ' 3 (dumpChar (s.headD '\x00'))
  | numbers bytes base signed =>
    let n := littleEndian s
    if signed then
      let limit := Nat.pow 256 bytes
      let v : Int := if limit ≤ 2 * n then (n : Int) - limit else n
      ' ' :: fillLeft ' ' f.width (toString v).toList
    else
      let digits := Nat.toDigits base n
      let filled := if base = 10 then fillLeft ' ' f.width digits else fillLeft '0' f.width digits
      ' ' :: filled

/-- A line of a dump. -/
def DumpForm.line (f : DumpForm) (s : List Char) : List Char :=
  let size := match f with
    | chars => 1
    | numbers bytes _ _ => bytes
  (pieces size (s.length + 1) s).flatMap f.item

/-- An offset at the start of a line. -/
def dumpOffset (radix : Char) (n : Nat) : List Char :=
  match radix with
  | 'n' => []
  | 'd' => fillLeft '0' 7 (Nat.toDigits 10 n)
  | 'x' => fillLeft '0' 6 (Nat.toDigits 16 n)
  | _ => fillLeft '0' 7 (Nat.toDigits 8 n)

/-- The lines of a dump; `last?` is the line before, which is not repeated. -/
def dumpLines (forms : List DumpForm) (radix : Char) (all : Bool) :
    Nat → Nat → Option (List Char) → Bool → List Char → List Char
  | 0, _, _, _, _ => []
  | fuel + 1, offset, last?, marked, s =>
    if s.isEmpty then
      let final := dumpOffset radix offset
      if final.isEmpty then [] else final ++ ['\n']
    else
      let here := s.take 16
      let rest := s.drop 16
      if !all ∧ last? = some here ∧ here.length = 16 ∧ !rest.isEmpty then
        (if marked then [] else "*\n".toList) ++
          dumpLines forms radix all fuel (offset + 16) last? true rest
      else
        let start := dumpOffset radix offset
        let lines := forms.zipIdx.flatMap fun (f, i) =>
          (if i = 0 then start else List.replicate start.length ' ') ++ f.line here ++ ['\n']
        lines ++ dumpLines forms radix all fuel (offset + here.length) (some here) false rest

/-- Reads a type of numbers. -/
def dumpForm? (s : List Char) : Option DumpForm :=
  let size := fun (rest : List Char) (default : Nat) =>
    match rest with
    | [] => some default
    | ['C'] => some 1
    | ['S'] => some 2
    | ['I'] => some 4
    | ['L'] => some 8
    | digits => if digits.all Char.isDigit then some (Arithmetic.numeral 10 digits) else none
  match s with
  | ['c'] => some .chars
  | 'x' :: rest => (size rest 4).map (.numbers · 16 false)
  | 'o' :: rest => (size rest 4).map (.numbers · 8 false)
  | 'u' :: rest => (size rest 4).map (.numbers · 10 false)
  | 'd' :: rest => (size rest 4).map (.numbers · 10 true)
  | _ => none

def od (args : List ByteString) : Run Nat :=
  withOptions "od"
    ⟨"A:j:N:S:t:vw::abcdfilosx", [("address-radix", 'A'), ("format", 't'),
      ("output-duplicates", 'v'), ("read-bytes", 'N'), ("skip-bytes", 'j')], true⟩ 1 args
    fun o => do
    let forms := o.given.filterMap fun (c, value?) =>
      match c with
      | 't' => dumpForm? (value?.getD "").toList
      | 'c' => some .chars
      | 'b' => some (.numbers 1 8 false)
      | 'x' => some (.numbers 2 16 false)
      | 'o' => some (.numbers 2 8 false)
      | 'd' => some (.numbers 2 10 false)
      | 's' => some (.numbers 2 10 true)
      | 'i' => some (.numbers 4 10 true)
      | 'l' => some (.numbers 8 10 true)
      | _ => none
    let forms := if forms.isEmpty then [.numbers 2 8 false] else forms
    let radix := ((o.argument? 'A').bind fun s => s.toList.head?).getD 'o'
    let mut text : List Char := []
    let mut status := 0
    for path in (if o.operands.isEmpty then ["-"] else o.operands) do
      match ← readOperand path with
      | .ok s => text := text ++ s
      | .error e => status ← blame "od" 1 (plainProblem path e)
    let number := fun c => (o.argument? c).bind fun s => count? s.toList
    let skipped := (number 'j').getD 0
    let shown := text.drop skipped
    let shown := (number 'N').elim shown shown.take
    say (dumpLines forms radix (o.has 'v') (shown.length + 2) skipped none false shown)
    return status

/-! ## Letters -/

def base64Letters : Array Char :=
  "ABCDEFGHIJKLMNOPQRSTUVWXYZabcdefghijklmnopqrstuvwxyz0123456789+/".toList.toArray

def base64Letter (n : Nat) : Char := (base64Letters[n % 64]?).getD '='

/-- Writes bytes in letters, three bytes as four letters. -/
def encodeBase64 : List Char → List Char
  | a :: b :: c :: rest =>
    let n := a.toNat * 65536 + b.toNat * 256 + c.toNat
    base64Letter (n / 262144) :: base64Letter (n / 4096) :: base64Letter (n / 64) ::
      base64Letter n :: encodeBase64 rest
  | [a, b] =>
    let n := a.toNat * 65536 + b.toNat * 256
    [base64Letter (n / 262144), base64Letter (n / 4096), base64Letter (n / 64), '=']
  | [a] =>
    let n := a.toNat * 65536
    [base64Letter (n / 262144), base64Letter (n / 4096), '=', '=']
  | [] => []

/-- The bytes that letters stand for, and whether the letters are well formed. -/
def decodeBase64 : List Char → List Char × Bool
  | a :: b :: c :: d :: rest =>
    match value a, value b, value c, value d with
    | some w, some x, some y, some z =>
      let n := w * 262144 + x * 4096 + y * 64 + z
      let (more, valid) := decodeBase64 rest
      (byte (n / 65536) :: byte (n / 256) :: byte n :: more, valid)
    | some w, some x, some y, none =>
      let n := w * 262144 + x * 4096 + y * 64
      ([byte (n / 65536), byte (n / 256)], d = '=' && rest.isEmpty)
    | some w, some x, none, none =>
      ([byte ((w * 262144 + x * 4096) / 65536)], c = '=' && d = '=' && rest.isEmpty)
    | _, _, _, _ => ([], false)
  | [] => ([], true)
  | _ => ([], false)
where
  value (c : Char) : Option Nat := base64Letters.toList.findIdx? (· = c)
  byte (n : Nat) : Char := Char.ofNat (n % 256)

def base64 (args : List ByteString) : Run Nat :=
  withOptions "base64"
    ⟨"diw:", [("decode", 'd'), ("ignore-garbage", 'i'), ("wrap", 'w')], true⟩ 1 args fun o => do
    let path := o.operands.headD "-"
    match ← readOperand path with
    | .error e => blame "base64" 1 (plainProblem path e)
    | .ok text =>
      if o.has 'd' then
        let (bytes, valid) := decodeBase64 (text.filter (· ≠ '\n'))
        say bytes
        if valid then return 0 else blame "base64" 1 "invalid input"
      else
        let width := ((o.argument? 'w').bind fun s => count? s.toList).getD 76
        let letters := encodeBase64 text
        if width = 0 then say letters
        else say ((pieces width (letters.length + 1) letters).flatMap (· ++ ['\n']))
        return 0

/-! ## Sums -/

/-- Pads a message to whole blocks; its length in bits comes last. -/
def padded (bigEndian : Bool) (s : List Char) : List Nat :=
  let bytes := s.map Char.toNat
  let zeros := (119 - bytes.length % 64) % 64
  let bits := 8 * bytes.length
  let size := (List.range 8).map fun i => bits / Nat.pow 256 i % 256
  bytes ++ 128 :: List.replicate zeros 0 ++ if bigEndian then size.reverse else size

/-- Words of four bytes. -/
def wordsOf (bigEndian : Bool) : List Nat → List UInt32
  | a :: b :: c :: d :: rest =>
    let n := if bigEndian then ((a * 256 + b) * 256 + c) * 256 + d
      else ((d * 256 + c) * 256 + b) * 256 + a
    n.toUInt32 :: wordsOf bigEndian rest
  | _ => []

/-- Blocks of sixteen words. -/
def blocksOf : Nat → List UInt32 → List (Array UInt32)
  | 0, _ | _, [] => []
  | fuel + 1, words => (words.take 16).toArray :: blocksOf fuel (words.drop 16)

def rotateLeft (x : UInt32) (n : Nat) : UInt32 :=
  (x <<< n.toUInt32) ||| (x >>> (32 - n).toUInt32)

def hexWord (bigEndian : Bool) (w : UInt32) : List Char :=
  let n := w.toNat
  let bytes := [n / 16777216 % 256, n / 65536 % 256, n / 256 % 256, n % 256]
  (if bigEndian then bytes else bytes.reverse).flatMap fun b => fillLeft '0' 2 (Nat.toDigits 16 b)

/-- The whole part of `2 ^ 32` times the fraction of a root: the greatest `x` whose power with the
exponent is at most `n * Nat.pow 2 (32 * exponent)`, without its whole part. -/
def rootFraction (exponent n : Nat) : UInt32 :=
  let target := n * Nat.pow 2 (32 * exponent)
  let rec search : Nat → Nat → Nat
    | 0, x => x
    | bit + 1, x =>
      let y := x + Nat.pow 2 bit
      search bit (if Nat.pow y exponent ≤ target then y else x)
  (search 40 0).toUInt32

/-- The first primes. -/
def primes : List Nat :=
  (List.range 312).filter fun n => 2 ≤ n && (List.range n).all fun k => k < 2 || n % k ≠ 0

namespace Sha256

def constants : Array UInt32 := (primes.take 64).toArray.map (rootFraction 3)

def start : Array UInt32 := (primes.take 8).toArray.map (rootFraction 2)

def rotateRight (x : UInt32) (n : Nat) : UInt32 := rotateLeft x (32 - n)

/-- The words of all rounds. -/
def schedule (block : Array UInt32) : Array UInt32 :=
  (List.range 48).foldl (fun w i =>
    let x := w.getD (i + 1) 0
    let y := w.getD (i + 14) 0
    let s := rotateRight x 7 ^^^ rotateRight x 18 ^^^ (x >>> 3)
    let t := rotateRight y 17 ^^^ rotateRight y 19 ^^^ (y >>> 10)
    w.push (w.getD i 0 + s + w.getD (i + 9) 0 + t)) block

def compress (h : Array UInt32) (block : Array UInt32) : Array UInt32 :=
  let w := schedule block
  let v := (List.range 64).foldl (fun (v : Array UInt32) i =>
    let (a, b, c, d) := (v.getD 0 0, v.getD 1 0, v.getD 2 0, v.getD 3 0)
    let (e, f, g, k) := (v.getD 4 0, v.getD 5 0, v.getD 6 0, v.getD 7 0)
    let s := rotateRight e 6 ^^^ rotateRight e 11 ^^^ rotateRight e 25
    let choice := (e &&& f) ^^^ (~~~e &&& g)
    let t := k + s + choice + constants.getD i 0 + w.getD i 0
    let r := rotateRight a 2 ^^^ rotateRight a 13 ^^^ rotateRight a 22
    let majority := (a &&& b) ^^^ (a &&& c) ^^^ (b &&& c)
    #[t + r + majority, a, b, c, d + t, e, f, g]) h
  h.zipWith (· + ·) v

def digest (s : List Char) : List Char :=
  let words := wordsOf true (padded true s)
  let h := (blocksOf (words.length + 1) words).foldl compress start
  h.toList.flatMap (hexWord true)

end Sha256

namespace Sha1

def compress (h : Array UInt32) (block : Array UInt32) : Array UInt32 :=
  let w := (List.range 64).foldl (fun (w : Array UInt32) i =>
    w.push (rotateLeft (w.getD (i + 13) 0 ^^^ w.getD (i + 8) 0 ^^^ w.getD (i + 2) 0 ^^^
      w.getD i 0) 1)) block
  let v := (List.range 80).foldl (fun (v : Array UInt32) i =>
    let (a, b, c, d, e) := (v.getD 0 0, v.getD 1 0, v.getD 2 0, v.getD 3 0, v.getD 4 0)
    let (f, k) : UInt32 × UInt32 :=
      if i < 20 then ((b &&& c) ||| (~~~b &&& d), 0x5a827999)
      else if i < 40 then (b ^^^ c ^^^ d, 0x6ed9eba1)
      else if i < 60 then ((b &&& c) ||| (b &&& d) ||| (c &&& d), 0x8f1bbcdc)
      else (b ^^^ c ^^^ d, 0xca62c1d6)
    #[rotateLeft a 5 + f + e + k + w.getD i 0, a, rotateLeft b 30, c, d]) h
  h.zipWith (· + ·) v

def digest (s : List Char) : List Char :=
  let words := wordsOf true (padded true s)
  let start := #[0x67452301, 0xefcdab89, 0x98badcfe, 0x10325476, 0xc3d2e1f0]
  let h := (blocksOf (words.length + 1) words).foldl compress start
  h.toList.flatMap (hexWord true)

end Sha1

namespace Md5

/-- The amounts of rotation in the four rounds. -/
def amounts : Array (Array Nat) :=
  #[#[7, 12, 17, 22], #[5, 9, 14, 20], #[4, 11, 16, 23], #[6, 10, 15, 21]]

/-- The absolute values of sines times `2 ^ 32`. -/
def constants : Array UInt32 :=
  #[0xd76aa478, 0xe8c7b756, 0x242070db, 0xc1bdceee, 0xf57c0faf, 0x4787c62a, 0xa8304613, 0xfd469501,
    0x698098d8, 0x8b44f7af, 0xffff5bb1, 0x895cd7be, 0x6b901122, 0xfd987193, 0xa679438e, 0x49b40821,
    0xf61e2562, 0xc040b340, 0x265e5a51, 0xe9b6c7aa, 0xd62f105d, 0x02441453, 0xd8a1e681, 0xe7d3fbc8,
    0x21e1cde6, 0xc33707d6, 0xf4d50d87, 0x455a14ed, 0xa9e3e905, 0xfcefa3f8, 0x676f02d9, 0x8d2a4c8a,
    0xfffa3942, 0x8771f681, 0x6d9d6122, 0xfde5380c, 0xa4beea44, 0x4bdecfa9, 0xf6bb4b60, 0xbebfbc70,
    0x289b7ec6, 0xeaa127fa, 0xd4ef3085, 0x04881d05, 0xd9d4d039, 0xe6db99e5, 0x1fa27cf8, 0xc4ac5665,
    0xf4292244, 0x432aff97, 0xab9423a7, 0xfc93a039, 0x655b59c3, 0x8f0ccc92, 0xffeff47d, 0x85845dd1,
    0x6fa87e4f, 0xfe2ce6e0, 0xa3014314, 0x4e0811a1, 0xf7537e82, 0xbd3af235, 0x2ad7d2bb, 0xeb86d391]

def compress (h : Array UInt32) (block : Array UInt32) : Array UInt32 :=
  let v := (List.range 64).foldl (fun (v : Array UInt32) i =>
    let (a, b, c, d) := (v.getD 0 0, v.getD 1 0, v.getD 2 0, v.getD 3 0)
    let (f, k) : UInt32 × Nat :=
      if i < 16 then ((b &&& c) ||| (~~~b &&& d), i)
      else if i < 32 then ((d &&& b) ||| (~~~d &&& c), (5 * i + 1) % 16)
      else if i < 48 then (b ^^^ c ^^^ d, (3 * i + 5) % 16)
      else (c ^^^ (b ||| ~~~d), (7 * i) % 16)
    let amount := (amounts.getD (i / 16) #[]).getD (i % 4) 0
    let sum := a + f + constants.getD i 0 + block.getD k 0
    #[d, b + rotateLeft sum amount, b, c]) h
  h.zipWith (· + ·) v

def digest (s : List Char) : List Char :=
  let words := wordsOf false (padded false s)
  let start := #[0x67452301, 0xefcdab89, 0x98badcfe, 0x10325476]
  let h := (blocksOf (words.length + 1) words).foldl compress start
  h.toList.flatMap (hexWord false)

end Md5

/-- Shows the sums of files. -/
def digestProgram (program : String) (digest : List Char → List Char) (args : List ByteString) :
    Run Nat :=
  withOptions program ⟨"bctwz", [("binary", 'b'), ("check", 'c'), ("text", 't')], true⟩ 1 args
    fun o =>
    forAll (if o.operands.isEmpty then ["-"] else o.operands) fun path => do
      match ← readOperand path with
      | .ok text =>
        say (digest text ++ "  ".toList ++ path.toList ++ ['\n'])
        return 0
      | .error e => blame program 1 (plainProblem path e)

/-- The remainder of a polynomial with the bits of a text. -/
def crcStep (n : UInt32) (byte : Nat) : UInt32 :=
  (List.range 8).foldl (fun n _ =>
    if n &&& 0x80000000 ≠ 0 then (n <<< 1) ^^^ 0x04c11db7 else n <<< 1)
    (n ^^^ (byte.toUInt32 <<< 24))

/-- The bytes of a number, the lowest first. -/
def numberBytes : Nat → Nat → List Nat
  | 0, _ => []
  | fuel + 1, n => if n = 0 then [] else n % 256 :: numberBytes fuel (n / 256)

def cksum (args : List ByteString) : Run Nat :=
  withOptions "cksum" ⟨"a:", [("algorithm", 'a')], true⟩ 1 args fun o =>
    forAll (if o.operands.isEmpty then ["-"] else o.operands) fun path => do
      match ← readOperand path with
      | .ok text =>
        let bytes := text.map Char.toNat ++ numberBytes 16 text.length
        let sum := ~~~(bytes.foldl crcStep 0)
        let name := if o.operands.isEmpty then "" else " " ++ path
        sayText (toString sum.toNat ++ " " ++ toString text.length ++ name ++ "\n")
        return 0
      | .error e => blame "cksum" 1 (plainProblem path e)

def sum (args : List ByteString) : Run Nat :=
  withOptions "sum" ⟨"r", [], true⟩ 1 args fun o =>
    forAll (if o.operands.isEmpty then ["-"] else o.operands) fun path => do
      match ← readOperand path with
      | .ok text =>
        let total := text.foldl
          (fun n c => (n / 2 + (if n % 2 = 1 then 32768 else 0) + c.toNat) % 65536) 0
        let blocks := (text.length + 1023) / 1024
        let name := if o.operands.isEmpty then "" else " " ++ path
        say (fillLeft '0' 5 (toString total).toList ++ ' ' ::
          fillLeft ' ' 5 (toString blocks).toList ++ name.toList ++ ['\n'])
        return 0
      | .error e => blame "sum" 1 (plainProblem path e)

end LayoutShell.Host.Program
