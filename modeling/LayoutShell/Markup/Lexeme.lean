import LayoutShell.Text.Space
import LayoutShell.Text.Utf8

/-!
# Lexemes of a markup document

A document is cut into texts, tags, comments, character data sections, document type declarations
and instructions. The cut is lenient: names may hold any characters and a tag may end with the
document.

* `Lexeme.read` reads the first lexeme of a document, or finds its end or a `Fault`.
* `Lexeme.scan` reads all lexemes up to the end or the first fault. The rest after a lexeme is
  always shorter (`Lexeme.length_of_read`), so the scan ends.
-/

namespace LayoutShell.Markup

open Text

/-- What keeps a document from being cut into lexemes. -/
inductive Fault
  /-- The document ends after `<!`. -/
  | bareBang
  /-- What follows `<!` begins no known construct. -/
  | strangeBang (c : Char)
  /-- A comment that does not open or close properly. -/
  | comment
  /-- A character data section that does not open or close properly. -/
  | cdata
  /-- A document type declaration that does not open or close properly. -/
  | doctype
  /-- A document type declaration that declares nothing. -/
  | emptyDoctype
  /-- An instruction that does not close properly. -/
  | instruction
  deriving DecidableEq

/-- The message of a fault; a strange character shows as its first byte. -/
def Fault.message : Fault → String
  | .bareBang => "Unexpected EOF during reading Bang"
  | .strangeBang c =>
    "Only Comment (`--`), CDATA (`[CDATA[`) and DOCTYPE (`DOCTYPE`) nodes can start with a '!', " ++
      "but symbol `" ++ (leadingByte c).toString ++ "` found"
  | .comment => "Unexpected EOF during reading Comment"
  | .cdata => "Unexpected EOF during reading CData"
  | .doctype => "Unexpected EOF during reading DOCTYPE"
  | .emptyDoctype => "DOCTYPE declaration must not be empty"
  | .instruction => "Unexpected EOF during reading XmlDecl"

/-- A piece of a document. -/
inductive Lexeme
  /-- Character data between tags, without space at its ends. -/
  | text (content : List Char)
  /-- A tag `<content>`, where `content` does not end in `/`. -/
  | startTag (content : List Char)
  /-- A tag `<content/>`. -/
  | emptyTag (content : List Char)
  /-- A tag `</content>`. -/
  | endTag (content : List Char)
  /-- A comment. -/
  | comment (content : List Char)
  /-- A character data section. -/
  | cdata (content : List Char)
  /-- A document type declaration. -/
  | doctype (content : List Char)
  /-- An instruction, the declaration of the document included. -/
  | instruction (content : List Char)
  deriving DecidableEq

/-! ## Cutting -/

/-- The text before the first `stop` and the text after it; all of the text if there is none. -/
def cutAt (stop : Char) : List Char → List Char × List Char
  | [] => ([], [])
  | c :: rest =>
    if c = stop then ([], rest)
    else
      let (before, after) := cutAt stop rest
      (c :: before, after)

/-- The text before the first occurrence of `stop` and the text after it. -/
def cutAtWord (stop : List Char) : List Char → Option (List Char × List Char)
  | [] => none
  | c :: rest =>
    if stop.isPrefixOf (c :: rest) then some ([], (c :: rest).drop stop.length)
    else (cutAtWord stop rest).map fun (before, after) => (c :: before, after)

/-- The quote that is open after `c`, given the one open before it. -/
def nextQuote (quote : Option Char) (c : Char) : Option Char :=
  match quote with
  | none => if c = '"' ∨ c = '\'' then some c else none
  | some q => if c = q then none else some q

/-- The content of a tag, up to the first `>` outside quotes, and the text after that `>`. -/
def cutTag (quote : Option Char) : List Char → List Char × List Char
  | [] => ([], [])
  | c :: rest =>
    if c = '>' ∧ quote = none then ([], rest)
    else
      let (before, after) := cutTag (nextQuote quote c) rest
      (c :: before, after)

/-- The content of a declaration, up to the first `>` not matched by a `<`, and the text after
that `>`. -/
def cutNested (depth : Nat) : List Char → Option (List Char × List Char)
  | [] => none
  | c :: rest =>
    if c = '>' ∧ depth = 0 then some ([], rest)
    else
      let depth := if c = '<' then depth + 1 else if c = '>' then depth - 1 else depth
      (cutNested depth rest).map fun (before, after) => (c :: before, after)

/-- What follows `word` at the start of a text, the case of ASCII letters aside. -/
def afterWord : List Char → List Char → Option (List Char)
  | [], s => some s
  | _ :: _, [] => none
  | w :: word, c :: s => if c.toUpper = w then afterWord word s else none

/-! ## Reading -/

/-- What stands at the start of a document. -/
inductive Lexeme.Reading
  /-- Nothing but space, or a lone `<`. -/
  | done
  /-- No lexeme. -/
  | fault (f : Fault)
  /-- A lexeme and the rest of the document. -/
  | found (lexeme : Lexeme) (rest : List Char)
  deriving DecidableEq

namespace Lexeme

/-- The lexeme that begins with `<!`. -/
def readBang : List Char → Reading
  | [] => .fault .bareBang
  | c :: rest =>
    if c = '-' then
      match rest with
      | '-' :: body =>
        match cutAtWord ['-', '-', '>'] body with
        | some (content, rest) => .found (.comment content) rest
        | none => .fault .comment
      | _ => .fault .comment
    else if c = '[' then
      match afterWord "CDATA[".toList rest with
      | some body =>
        match cutAtWord [']', ']', '>'] body with
        | some (content, rest) => .found (.cdata content) rest
        | none => .fault .cdata
      | none => .fault .cdata
    else if c = 'D' ∨ c = 'd' then
      match cutNested 0 (c :: rest) with
      | some (declaration, rest) =>
        match afterWord "DOCTYPE".toList declaration with
        | some content =>
          if content.all isMarkupSpace then .fault .emptyDoctype
          else .found (.doctype content) rest
        | none => .fault .doctype
      | none => .fault .doctype
    else .fault (.strangeBang c)

/-- The lexeme that begins with `<?`. -/
def readInstruction (s : List Char) : Reading :=
  let (body, rest) := cutAt '>' s
  if 2 ≤ body.length ∧ body.getLast? = some '?' then .found (.instruction body.dropLast) rest
  else .fault .instruction

/-- The lexeme that begins with `</`. -/
def readEndTag (s : List Char) : Reading :=
  let (content, rest) := cutAt '>' s
  .found (.endTag content) rest

/-- The lexeme that begins with `<` and a name. -/
def readTag (s : List Char) : Reading :=
  let (content, rest) := cutTag none s
  if content.getLast? = some '/' then .found (.emptyTag content.dropLast) rest
  else .found (.startTag content) rest

/-- The text up to the next `<`. -/
def readText (s : List Char) : Reading :=
  .found (.text (dropRightWhile isMarkupSpace (s.takeWhile (· ≠ '<')))) (s.dropWhile (· ≠ '<'))

/-- The lexeme at the start of a document without leading space. -/
def readTrimmed : List Char → Reading
  | [] => .done
  | '<' :: [] => .done
  | '<' :: '!' :: rest => readBang rest
  | '<' :: '?' :: rest => readInstruction rest
  | '<' :: '/' :: rest => readEndTag rest
  | '<' :: rest => readTag rest
  | s => readText s

/-- The first lexeme of a document. -/
def read (s : List Char) : Reading := readTrimmed (s.dropWhile isMarkupSpace)

/-! ## The rest is shorter -/

theorem length_cutAt (stop : Char) (s : List Char) : (cutAt stop s).2.length ≤ s.length := by
  induction s with
  | nil => simp [cutAt]
  | cons c rest ih =>
    by_cases h : c = stop
    · simp [cutAt, h]
    · simp only [cutAt, h, if_false, List.length_cons]
      omega

theorem length_cutAtWord {stop s before after : List Char}
    (h : cutAtWord stop s = some (before, after)) : after.length ≤ s.length := by
  induction s generalizing before with
  | nil => simp [cutAtWord] at h
  | cons c rest ih =>
    simp only [cutAtWord] at h
    split at h
    · cases h; simp
    · obtain ⟨⟨b, a⟩, hb, he⟩ := Option.map_eq_some_iff.1 h
      cases he
      simpa using Nat.le_succ_of_le (ih hb)

theorem length_cutTag (quote : Option Char) (s : List Char) :
    (cutTag quote s).2.length ≤ s.length := by
  induction s generalizing quote with
  | nil => simp [cutTag]
  | cons c rest ih =>
    simp only [cutTag]
    split
    · simp
    · simpa using Nat.le_succ_of_le (ih _)

theorem length_cutNested {depth : Nat} {s before after : List Char}
    (h : cutNested depth s = some (before, after)) : after.length ≤ s.length := by
  induction s generalizing depth before with
  | nil => simp [cutNested] at h
  | cons c rest ih =>
    simp only [cutNested] at h
    split at h
    · cases h; simp
    · obtain ⟨⟨b, a⟩, hb, he⟩ := Option.map_eq_some_iff.1 h
      cases he
      simpa using Nat.le_succ_of_le (ih hb)

theorem length_afterWord {word s rest : List Char} (h : afterWord word s = some rest) :
    rest.length ≤ s.length := by
  induction word generalizing s with
  | nil => simp [afterWord] at h; simp [h]
  | cons w word ih =>
    cases s with
    | nil => simp [afterWord] at h
    | cons c s =>
      simp only [afterWord] at h
      split at h
      · simpa using Nat.le_succ_of_le (ih h)
      · cases h

theorem length_dropWhile_le (p : Char → Bool) (s : List Char) :
    (s.dropWhile p).length ≤ s.length := (List.dropWhile_sublist p).length_le

theorem length_readBang {s rest : List Char} {l : Lexeme} (h : readBang s = .found l rest) :
    rest.length ≤ s.length := by
  cases s with
  | nil => simp [readBang] at h
  | cons c s =>
    simp only [readBang] at h
    split at h
    · split at h
      · split at h
        next hc => cases h; have := length_cutAtWord hc; simp; omega
        next => cases h
      · cases h
    · split at h
      · split at h
        next hw =>
          split at h
          next hc =>
            cases h
            have := length_cutAtWord hc
            have := length_afterWord hw
            simp; omega
          next => cases h
        next => cases h
      · split at h
        · split at h
          next hc =>
            split at h
            · split at h
              · cases h
              · cases h; exact length_cutNested hc
            · cases h
          next => cases h
        · cases h

/-- Reading a lexeme shortens the document. -/
theorem length_of_read {s rest : List Char} {l : Lexeme} (h : read s = .found l rest) :
    rest.length < s.length := by
  suffices ∀ t, readTrimmed t = .found l rest → rest.length < t.length from
    Nat.lt_of_lt_of_le (this _ h) (length_dropWhile_le _ s)
  intro t h
  unfold readTrimmed at h
  split at h
  · cases h
  · cases h
  · have := length_readBang h; simp; omega
  · simp only [readInstruction] at h
    split at h
    · cases h
      have := length_cutAt '>' ‹List Char›
      simp; omega
    · cases h
  · simp only [readEndTag] at h
    cases h
    have := length_cutAt '>' ‹List Char›
    simp; omega
  · simp only [readTag] at h
    have := length_cutTag none ‹List Char›
    split at h <;> cases h <;> simp <;> omega
  · next h₁ h₂ h₃ h₄ h₅ =>
    cases t with
    | nil => simp_all
    | cons c t =>
      have hc : c ≠ '<' := fun e => h₅ t (e ▸ rfl)
      simp only [readText] at h
      cases h
      simp only [List.dropWhile_cons, ne_eq, hc, not_false_eq_true, decide_true, if_true,
        List.length_cons]
      exact Nat.lt_succ_of_le (length_dropWhile_le _ t)

/-- The lexemes of a document, up to its end or the first fault. -/
def scan (s : List Char) : List (Except Fault Lexeme) :=
  match _h : read s with
  | .done => []
  | .fault f => [.error f]
  | .found l rest => .ok l :: scan rest
termination_by s.length
decreasing_by exact length_of_read _h

end Lexeme

end LayoutShell.Markup
