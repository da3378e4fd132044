import LayoutShell.Files.Access
import LayoutShell.Json.Scan
import LayoutShell.Json.Value
import LayoutShell.NameSet

/-!
# Layout databases

A layout database is a JSON file with the click handlers and the classes that layouts refer to.

* `Database.render` is its text, and `Database.save` writes it.
* `Database.decode` reads a text in any spelling: members in any order, unknown members skipped, and
  either object also as an array of its values. `Database.load` reads a file.
-/

namespace LayoutShell.Layout

open Files Json Text

/-- The names in a layout database. -/
structure Database where
  handlers : List String
  classes : List String
  deriving DecidableEq

/-- Why a database cannot be loaded. -/
inductive LoadError
  | file (cause : FileError)
  | content (cause : Failure)
  deriving DecidableEq

namespace Database

/-- The database of two sets of names. -/
def ofSets (classes handlers : NameSet) : Database := ⟨handlers.toList, classes.toList⟩

/-! ## Writing -/

/-- A database as a JSON value. -/
def toValue (d : Database) : Value :=
  .object [
    ("external_methods", .object [("onClick", .array (d.handlers.map .string))]),
    ("classes", .array (d.classes.map .string))]

/-- The text of a database, indented by four spaces. -/
def render (d : Database) : String := d.toValue.pretty 4

/-- Writes a database to a file. -/
def save (d : Database) (t : FileTree) (path : String) : Except FileError FileTree :=
  t.write path (Text.encode d.render.toList)

/-! ## Reading -/

/-- Goes to the next item of an array, or finds its end. The first item follows the opening bracket,
the others a comma. -/
def nextItem (first : Bool) (s : List UInt8) : Except Failure (Option (List UInt8)) :=
  match skipBlank s with
  | [] => .error .truncated
  | b :: rest =>
    if b = byte ']' then .ok none
    else if first then .ok (some (b :: rest))
    else if b = byte ',' then
      match skipBlank rest with
      | [] => .error .truncated
      | c :: rest => if c = byte ']' then .error .malformed else .ok (some (c :: rest))
    else .error .malformed

/-- Expects the end of an array. -/
def endArray (s : List UInt8) : Except Failure (List UInt8) := expect (byte ']') (skipBlank s)

/-- A string where nothing else is allowed. -/
def readString (s : List UInt8) : Except Failure (String × List UInt8) :=
  match skipBlank s with
  | b :: rest =>
    if b = byte '"' then (readText rest).map fun (t, rest) => (String.ofList t, rest)
    else .error (refusal (b :: rest))
  | [] => .error .truncated

/-- The strings of an array up to its end; `fuel` bounds their number. -/
def readStrings : Nat → Bool → List UInt8 → Except Failure (List String × List UInt8)
  | 0, _, _ => .error .truncated
  | fuel + 1, first, s => do
    match ← nextItem first s with
    | none => return ([], ← endArray s)
    | some s =>
      let (name, s) ← readString s
      let (names, s) ← readStrings fuel false s
      return (name :: names, s)

/-- An array of strings where nothing else is allowed. -/
def readNames (s : List UInt8) : Except Failure (List String × List UInt8) :=
  match skipBlank s with
  | b :: rest =>
    if b = byte '[' then readStrings (rest.length + 1) true rest else .error (refusal (b :: rest))
  | [] => .error .truncated

/-- Goes to the next key of an object, or finds its end. -/
def nextKey (first : Bool) (s : List UInt8) : Except Failure (Option (String × List UInt8)) :=
  match skipBlank s with
  | [] => .error .truncated
  | b :: rest =>
    if b = byte '\x7d' then .ok none
    else do
      let rest ← if first then .ok (b :: rest)
        else if b = byte ',' then .ok (skipBlank rest) else .error .malformed
      let s ← expect (byte '"') rest
      let (key, s) ← readText s
      return some (String.ofList key, s)

/-- The value after a key, with the colon between them. -/
def valueOf {α : Type} (read : List UInt8 → Except Failure (α × List UInt8)) (s : List UInt8) :
    Except Failure (α × List UInt8) := do
  read (← expect (byte ':') (skipBlank s))

/-- A value of any kind, of which nothing is kept. -/
def ignored (s : List UInt8) : Except Failure (Unit × List UInt8) :=
  (skipValue s).map fun s => ((), s)

/-- The value of a known member that may occur once. -/
def memberOf {α : Type} (old : Option α) (read : List UInt8 → Except Failure (α × List UInt8))
    (s : List UInt8) : Except Failure (Option α × List UInt8) :=
  match old with
  | some _ => .error .malformed
  | none => (valueOf read s).map fun (v, s) => (some v, s)

/-- The members of the handler object up to its end. -/
def readMethodMembers : Nat → Bool → Option (List String) → List UInt8 →
    Except Failure (List String × List UInt8)
  | 0, _, _, _ => .error .truncated
  | fuel + 1, first, handlers, s => do
    match ← nextKey first s with
    | none =>
      match handlers with
      | some handlers => return (handlers, ← expect (byte '\x7d') (skipBlank s))
      | none => .error .malformed
    | some (key, s) =>
      if key = "onClick" then
        let (handlers, s) ← memberOf handlers readNames s
        readMethodMembers fuel false handlers s
      else
        let (_, s) ← valueOf ignored s
        readMethodMembers fuel false handlers s

/-- The click handlers: an object, or an array of its one value. -/
def readMethods (s : List UInt8) : Except Failure (List String × List UInt8) :=
  match skipBlank s with
  | [] => .error .truncated
  | b :: rest =>
    if b = byte '[' then do
      match ← nextItem true rest with
      | none => .error .malformed
      | some s =>
        let (handlers, s) ← readNames s
        return (handlers, ← endArray s)
    else if b = byte '\x7b' then readMethodMembers (rest.length + 1) true none rest
    else .error (refusal (b :: rest))

/-- The members of the outer object up to its end. -/
def readMembers : Nat → Bool → Option (List String) → Option (List String) → List UInt8 →
    Except Failure (Database × List UInt8)
  | 0, _, _, _, _ => .error .truncated
  | fuel + 1, first, handlers, classes, s => do
    match ← nextKey first s with
    | none =>
      match handlers, classes with
      | some handlers, some classes =>
        return (⟨handlers, classes⟩, ← expect (byte '\x7d') (skipBlank s))
      | _, _ => .error .malformed
    | some (key, s) =>
      if key = "external_methods" then
        let (handlers, s) ← memberOf handlers readMethods s
        readMembers fuel false handlers classes s
      else if key = "classes" then
        let (classes, s) ← memberOf classes readNames s
        readMembers fuel false handlers classes s
      else
        let (_, s) ← valueOf ignored s
        readMembers fuel false handlers classes s

/-- A database: an object, or an array of its two values. -/
def readDatabase (s : List UInt8) : Except Failure (Database × List UInt8) :=
  match skipBlank s with
  | [] => .error .truncated
  | b :: rest =>
    if b = byte '[' then do
      match ← nextItem true rest with
      | none => .error .malformed
      | some s =>
        let (handlers, s) ← readMethods s
        match ← nextItem false s with
        | none => .error .malformed
        | some s =>
          let (classes, s) ← readNames s
          return (⟨handlers, classes⟩, ← endArray s)
    else if b = byte '\x7b' then readMembers (rest.length + 1) true none none rest
    else .error (refusal (b :: rest))

/-- The database of a JSON text, which holds nothing else. -/
def decode (text : List UInt8) : Except Failure Database := do
  let (d, rest) ← readDatabase text
  if (skipBlank rest).isEmpty then .ok d else .error .malformed

/-- Loads a database from a file. -/
def load (t : FileTree) (path : String) : Except LoadError Database := do
  (decode (← (t.read path).mapError .file)).mapError .content

end Database

end LayoutShell.Layout
