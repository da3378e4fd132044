import LayoutShell.Dict
import LayoutShell.Yaml.Token

/-!
# Nodes of a YAML document

Tokens are read into one tree. A node may carry an anchor, and an alias stands for the node with its
anchor. Anchors are numbered: an anchor gets the number of names that are known before it, and an
alias the latest number of its name.

* `Document.ofTokens` reads a text's only document, and `Document.read` the text itself.
* `Node.find?` finds the node that an alias stands for.
-/

namespace LayoutShell.Yaml

/-- A node of a document, with the number of its anchor. -/
inductive Node
  | alias (anchor : Nat)
  | scalar (anchor? : Option Nat) (tag? : Option (List Char)) (isPlain : Bool) (text : List Char)
  | sequence (anchor? : Option Nat) (items : List Node)
  /-- Keys with their values. -/
  | mapping (anchor? : Option Nat) (entries : List (Node × Node))

namespace Node

/-- The scalar that stands where a node is missing. -/
def missing : Node := .scalar none none true []

mutual

/-- The last node with an anchor's number, in the order in which nodes begin. -/
def find? (n : Nat) : Node → Option Node
  | .alias _ => none
  | .scalar anchor? tag? isPlain text =>
    if anchor? = some n then some (.scalar anchor? tag? isPlain text) else none
  | .sequence anchor? items =>
    findItem? n items <|> if anchor? = some n then some (.sequence anchor? items) else none
  | .mapping anchor? entries =>
    findEntry? n entries <|> if anchor? = some n then some (.mapping anchor? entries) else none

def findItem? (n : Nat) : List Node → Option Node
  | [] => none
  | item :: rest => findItem? n rest <|> find? n item

def findEntry? (n : Nat) : List (Node × Node) → Option Node
  | [] => none
  | entry :: rest => findEntry? n rest <|> findPair? n entry

def findPair? (n : Nat) : Node × Node → Option Node
  | (key, value) => find? n value <|> find? n key

end

end Node

/-! ## Reading nodes -/

/-- The tokens that are left, with the anchors and the tag handles met before them. -/
structure Reading where
  tokens : List Token
  anchors : Dict String Nat
  handles : List (List Char × List Char)

/-- The anchor and the tag before a node. -/
structure Properties where
  anchor? : Option Nat
  tag? : Option (List Char)

namespace Reading

/-- Moves on by one token. -/
def skip (r : Reading) : Reading := { r with tokens := r.tokens.tail }

/-- The next token is one of these. -/
def sees (r : Reading) (ts : List Token) : Bool := r.tokens.head?.any ts.contains

/-- Names an anchor by its number. -/
def bind (r : Reading) (name : List Char) : Nat × Reading :=
  (r.anchors.size, { r.skip with anchors := r.anchors.insert (String.ofList name) r.anchors.size })

/-- A tag in full: what its handle stands for, and its suffix. -/
def resolve (r : Reading) (handle suffix : List Char) : Option (List Char) :=
  if handle.isEmpty then some suffix
  else (r.handles.lookup handle).map (· ++ suffix)

/-- Reads an anchor and a tag, in either order; both may be missing. -/
def properties (r : Reading) : Option (Properties × Reading) :=
  match r.tokens with
  | .anchor name :: .tag handle suffix :: _ => do
    let tag ← r.resolve handle suffix
    let (number, r) := r.bind name
    return (⟨some number, some tag⟩, r.skip)
  | .tag handle suffix :: .anchor name :: _ => do
    let tag ← r.resolve handle suffix
    let (number, r) := r.skip.bind name
    return (⟨some number, some tag⟩, r)
  | .anchor name :: _ =>
    let (number, r) := r.bind name
    some (⟨some number, none⟩, r)
  | .tag handle suffix :: _ => do
    return (⟨none, some (← r.resolve handle suffix)⟩, r.skip)
  | _ => some (⟨none, none⟩, r)

mutual

/-- Reads a node. Block collections are read only where `block` holds, and a sequence that is not
indented only where `indentless` holds. -/
def node : Nat → Bool → Bool → Reading → Option (Node × Reading)
  | 0, _, _, _ => none
  | fuel + 1, block, indentless, r =>
    match r.tokens with
    | .alias name :: _ => do return (.alias (← r.anchors.get? (String.ofList name)), r.skip)
    | _ => do
      let (p, r) ← r.properties
      match r.tokens with
      | .scalar isPlain text :: _ =>
        return (.scalar p.anchor? p.tag? isPlain text, r.skip)
      | .flowSequence :: _ =>
        let (items, r) ← flowItems fuel true r.skip
        return (.sequence p.anchor? items, r)
      | .flowMapping :: _ =>
        let (entries, r) ← flowEntries fuel true r.skip
        return (.mapping p.anchor? entries, r)
      | t :: _ =>
        if indentless ∧ t = .blockEntry then
          let (items, r) ← blockItems fuel false r
          return (.sequence p.anchor? items, r)
        else if block ∧ t = .blockSequence then
          let (items, r) ← blockItems fuel true r.skip
          return (.sequence p.anchor? items, r)
        else if block ∧ t = .blockMapping then
          let (entries, r) ← blockEntries fuel r.skip
          return (.mapping p.anchor? entries, r)
        else if p.anchor?.isSome ∨ p.tag?.isSome then
          return (.scalar p.anchor? p.tag? true [], r)
        else none
      | [] =>
        if p.anchor?.isSome ∨ p.tag?.isSome then return (.scalar p.anchor? p.tag? true [], r)
        else none

/-- Reads a node, or none where one of `ends` shows that it is missing. -/
def nodeUnless (ends : List Token) : Nat → Bool → Bool → Reading → Option (Node × Reading)
  | 0, _, _, _ => none
  | fuel + 1, block, indentless, r =>
    if r.sees ends then some (.missing, r) else node fuel block indentless r

/-- Reads the entries of a sequence in block style; an indented one ends with a token of its own. -/
def blockItems : Nat → Bool → Reading → Option (List Node × Reading)
  | 0, _, _ => none
  | fuel + 1, indented, r =>
    if r.sees [.blockEntry] then do
      let ends := if indented then [.blockEntry, .blockEnd]
        else [.blockEntry, .key, .value, .blockEnd]
      let (item, r) ← nodeUnless ends fuel true false r.skip
      let (items, r) ← blockItems fuel indented r
      return (item :: items, r)
    else if !indented then some ([], r)
    else if r.sees [.blockEnd] then some ([], r.skip)
    else none

/-- Reads the entries of a mapping in block style. -/
def blockEntries : Nat → Reading → Option (List (Node × Node) × Reading)
  | 0, _ => none
  | fuel + 1, r =>
    if r.sees [.key] then do
      let (key, r) ← nodeUnless [.key, .value, .blockEnd] fuel true true r.skip
      let (value, r) ←
        if r.sees [.value] then nodeUnless [.key, .value, .blockEnd] fuel true true r.skip
        else some (.missing, r)
      let (entries, r) ← blockEntries fuel r
      return ((key, value) :: entries, r)
    else if r.sees [.blockEnd] then some ([], r.skip)
    else none

/-- Reads the entries of a sequence in brackets. -/
def flowItems : Nat → Bool → Reading → Option (List Node × Reading)
  | 0, _, _ => none
  | fuel + 1, first, r =>
    if r.sees [.flowSequenceEnd] then some ([], r.skip)
    else if !first ∧ !r.sees [.flowEntry] then none
    else
      let r := if first then r else r.skip
      if r.sees [.key] then do
        let (pair, r) ← flowPair fuel r.skip
        let (items, r) ← flowItems fuel false r
        return (pair :: items, r)
      else if r.sees [.flowSequenceEnd] then some ([], r.skip)
      else do
        let (item, r) ← node fuel false false r
        let (items, r) ← flowItems fuel false r
        return (item :: items, r)

/-- Reads a single key with its value inside brackets. A missing key takes the token that shows it
is missing. -/
def flowPair : Nat → Reading → Option (Node × Reading)
  | 0, _ => none
  | fuel + 1, r => do
    let (key, r) ←
      if r.sees [.value, .flowEntry, .flowSequenceEnd] then some (.missing, r.skip)
      else node fuel false false r
    let (value, r) ←
      if r.sees [.value] then nodeUnless [.flowEntry, .flowSequenceEnd] fuel false false r.skip
      else some (.missing, r)
    return (.mapping none [(key, value)], r)

/-- Reads the entries of a mapping in braces. -/
def flowEntries : Nat → Bool → Reading → Option (List (Node × Node) × Reading)
  | 0, _, _ => none
  | fuel + 1, first, r =>
    if r.sees [.flowMappingEnd] then some ([], r.skip)
    else if !first ∧ !r.sees [.flowEntry] then none
    else
      let r := if first then r else r.skip
      if r.sees [.key] then do
        let (key, r) ← nodeUnless [.value, .flowEntry, .flowMappingEnd] fuel false false r.skip
        let (value, r) ←
          if r.sees [.value] then nodeUnless [.flowEntry, .flowMappingEnd] fuel false false r.skip
          else some (.missing, r)
        let (entries, r) ← flowEntries fuel false r
        return ((key, value) :: entries, r)
      else if r.sees [.flowMappingEnd] then some ([], r.skip)
      else do
        let (key, r) ← node fuel false false r
        let (entries, r) ← flowEntries fuel false r
        return ((key, .missing) :: entries, r)

end

end Reading

/-! ## Documents -/

/-- The only document of a text; a text without tokens has no node. -/
structure Document where
  root? : Option Node

namespace Document

/-- The handles that every document knows. -/
def knownHandles : List (List Char × List Char) :=
  [(['!'], ['!']), (['!', '!'], "tag:yaml.org,2002:".toList)]

/-- Reads the directives before a document: at most one version, 1.1 or 1.2, and each handle at most
once. -/
def directives : Bool → List (List Char × List Char) → List Token →
    Option (List (List Char × List Char) × List Token)
  | versioned, handles, .directive (.version major minor) :: ts =>
    if versioned ∨ major ≠ 1 ∨ minor ≠ 1 ∧ minor ≠ 2 then none else directives true handles ts
  | versioned, handles, .directive (.tag handle start) :: ts =>
    if (handles.lookup handle).isSome then none
    else directives versioned ((handle, start) :: handles) ts
  | _, handles, ts => some (handles, ts)

/-- Reads a document's node to the end of all tokens; only end markers may follow it. -/
def content (explicit : Bool) (handles : List (List Char × List Char)) (ts : List Token) :
    Option Document := do
  let r : Reading := ⟨ts, ∅, handles ++ knownHandles⟩
  let isEmpty : Bool := match ts with
    | [] | .documentStart :: _ | .documentEnd :: _ | .directive _ :: _ => true
    | _ => false
  let (root, r) ←
    if explicit ∧ isEmpty then some (.missing, r)
    else r.node (3 * ts.length + 3) true false
  if r.tokens.all (· == .documentEnd) then return ⟨some root⟩ else none

def ofTokens : List Token → Option Document
  | [] => some ⟨none⟩
  | ts => do
    let (handles, rest) ← directives false [] ts
    match rest with
    | .documentStart :: rest => content true handles rest
    | rest => if rest.length = ts.length then content false handles rest else none

/-- Reads a text. -/
def read (text : String) : Option Document := do ofTokens (← Token.scan text.toList)

/-- The node that a node stands for. -/
def target (d : Document) : Node → Node
  | .alias n => ((d.root?.bind (Node.find? n)).getD (.alias n))
  | n => n

end Document

end LayoutShell.Yaml
