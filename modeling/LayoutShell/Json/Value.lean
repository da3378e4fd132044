import LayoutShell.Json.Number

/-!
# JSON values

* `Value.compact` writes a value without spaces.
* `Value.pretty` writes each item and each member on a line of its own, indented by its depth.
-/

namespace LayoutShell.Json

/-- A JSON value; the members of an object keep their order. -/
inductive Value
  | null
  | bool (b : Bool)
  | number (n : Number)
  | string (s : String)
  | array (items : List Value)
  | object (members : List (String × Value))
  deriving Inhabited, Repr

/-! ## Strings -/

/-- Two hexadecimal digits. -/
def hexPair (n : Nat) : List Char := [Nat.digitChar (n / 16), Nat.digitChar (n % 16)]

/-- A character inside a JSON string. -/
def escapeChar (c : Char) : List Char :=
  if c = '"' then ['\\', '"']
  else if c = '\\' then ['\\', '\\']
  else if c = '\n' then ['\\', 'n']
  else if c = '\r' then ['\\', 'r']
  else if c = '\t' then ['\\', 't']
  else if c = '\x08' then ['\\', 'b']
  else if c = '\x0c' then ['\\', 'f']
  else if c.toNat < 0x20 then ['\\', 'u', '0', '0'] ++ hexPair c.toNat
  else [c]

/-- A JSON string. -/
def renderString (s : String) : List Char := '"' :: s.toList.flatMap escapeChar ++ ['"']

namespace Value

/-! ## Compact text -/

/-- Texts with commas between them. -/
def commaSeparated : List (List Char) → List Char
  | [] => []
  | [t] => t
  | t :: rest => t ++ ',' :: commaSeparated rest

mutual

/-- The text of a value without spaces. -/
def compact : Value → List Char
  | null => "null".toList
  | bool b => if b then "true".toList else "false".toList
  | number n => n.render
  | string s => renderString s
  | array items => '[' :: commaSeparated (compactItems items) ++ [']']
  | object members => '\x7b' :: commaSeparated (compactMembers members) ++ ['\x7d']

def compactItems : List Value → List (List Char)
  | [] => []
  | v :: rest => v.compact :: compactItems rest

def compactMembers : List (String × Value) → List (List Char)
  | [] => []
  | (k, v) :: rest => (renderString k ++ ':' :: v.compact) :: compactMembers rest

end

/-! ## Pretty text -/

/-- A new line indented to `depth`, `width` spaces for each level. -/
def newline (width depth : Nat) : List Char := '\n' :: List.replicate (width * depth) ' '

/-- Texts on lines of their own at `depth`, with commas between them. -/
def lines (width depth : Nat) : List (List Char) → List Char
  | [] => []
  | [t] => newline width depth ++ t
  | t :: rest => newline width depth ++ t ++ ',' :: lines width depth rest

/-- Texts between brackets, on lines of their own unless there are none. -/
def bracketed (width depth : Nat) (opening closing : Char) (texts : List (List Char)) : List Char :=
  if texts.isEmpty then [opening, closing]
  else opening :: lines width (depth + 1) texts ++ newline width depth ++ [closing]

mutual

/-- The text of a value at `depth` with lines indented by `width` spaces for each level. -/
def prettyAt (width depth : Nat) : Value → List Char
  | null => "null".toList
  | bool b => if b then "true".toList else "false".toList
  | number n => n.render
  | string s => renderString s
  | array items => bracketed width depth '[' ']' (prettyItems width (depth + 1) items)
  | object members =>
    bracketed width depth '\x7b' '\x7d' (prettyMembers width (depth + 1) members)

def prettyItems (width depth : Nat) : List Value → List (List Char)
  | [] => []
  | v :: rest => v.prettyAt width depth :: prettyItems width depth rest

def prettyMembers (width depth : Nat) : List (String × Value) → List (List Char)
  | [] => []
  | (k, v) :: rest =>
    (renderString k ++ ':' :: ' ' :: v.prettyAt width depth) :: prettyMembers width depth rest

end

/-- The text of a value on indented lines. -/
def pretty (width : Nat) (v : Value) : String := String.ofList (v.prettyAt width 0)

end Value

end LayoutShell.Json
