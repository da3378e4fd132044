import LayoutShell.Files.Access
import LayoutShell.Host.Arithmetic
import LayoutShell.Host.ByteString
import LayoutShell.Host.Reader

/-!
# The machine that runs scripts

A script changes a machine: the file tree, the working directory, the parameters, the functions and
the streams. Streams are connected with channels, which several streams may share.

* `Run` is the type of actions; a `Signal` interrupts what is being run.
* `write` and `readRest` use streams, and `readFile` and `writeFile` use files.
* `variableValue?` and `assign` use parameters.
-/

namespace LayoutShell.Host

open Files

/-! ## State -/

/-- What a stream is connected with. -/
inductive Channel
  /-- A place in a file; an appending channel always writes at the end. -/
  | file (location : Location) (offset : Nat) (append : Bool)
  /-- Gathers what is written, the last piece first. -/
  | sink (pieces : List (List Char))
  /-- A text to be read. -/
  | source (text : List Char)
  | null
  deriving DecidableEq

structure Variable where
  value? : Option ByteString
  exported : Bool := false
  readonly : Bool := false
  deriving DecidableEq

/-- Switches that a script can set, by their letters. -/
abbrev Switches := List Char

structure Machine where
  tree : FileTree
  /-- The working directory. -/
  here : Location := []
  channels : Array Channel
  /-- The channels of the open streams. -/
  streams : List (Nat × Nat) := [(0, 0), (1, 1), (2, 2)]
  /-- The name of the running script. -/
  name : ByteString := "sh"
  arguments : List ByteString := []
  bindings : Dict String Variable := ∅
  functions : List (String × Script) := []
  documents : List (Nat × Word) := []
  /-- The number of the next document. -/
  nextDocument : Nat := 0
  switches : Switches := []
  /-- The status of the last command. -/
  status : Nat := 0
  /-- The status of the last command whose output was taken in the current command. -/
  outputStatus? : Option Nat := none
  /-- The scripts to run when something happens. -/
  traps : List (String × ByteString) := []
  /-- The variables that running functions hide, the innermost function first. -/
  hidden : List (List (String × Option Variable)) := []
  /-- The number of loops around the current command. -/
  loops : Nat := 0
  line : Nat := 1
  /-- The command that errors are attributed to, if any. -/
  command : String := ""
  /-- The names that lead to the working directory, as they were given. -/
  place : List String := []
  /-- The next argument that is searched for options, and how far the one before it was read. -/
  optionIndex : Nat := 1
  optionOffset : Nat := 0
  /-- The commands in the background with their statuses, the last one first. -/
  jobs : List (Nat × Nat) := []
  /-- What new files are not allowed. -/
  mask : Nat := 18
  aliases : List (String × ByteString) := []
  /-- The commands that were found in the search path. -/
  found : List ByteString := []

/-- What interrupts a script. -/
inductive Signal
  /-- The shell ends with the current status. -/
  | leave
  /-- An error; the shell ends unless a command catches it. -/
  | failure
  /-- The running function or file ends. -/
  | comeBack
  /-- This many loops end. -/
  | quitLoops (count : Nat)
  /-- All but one of this many loops end, and that one goes on with its next round. -/
  | nextRound (count : Nat)
  deriving DecidableEq

/-- An action that may be interrupted. What was done before counts all the same. -/
abbrev Run := ExceptT Signal (StateM Machine)

variable {α : Type}

def setStatus (n : Nat) : Run Unit := modify fun m => { m with status := n }

/-! ## Streams -/

/-- Puts a text over a content from an offset on. -/
def overwrite (content : List UInt8) (offset : Nat) (text : List UInt8) : List UInt8 :=
  content.take offset ++ List.replicate (offset - content.length) 0 ++ text ++
    content.drop (offset + text.length)

/-- The content of a file at a location. -/
def contentAt? (t : FileTree) (l : Location) : Option (List UInt8) :=
  match t.entry? l with
  | some (.file content) => some content
  | _ => none

/-- Writes to a channel. -/
def writeChannel (i : Nat) (text : List Char) : Run Unit := do
  let m ← get
  match m.channels[i]? with
  | some (.file l offset append) =>
    match contentAt? m.tree l with
    | some content =>
      let offset := if append then content.length else offset
      let bytes := toBytes text
      set { m with
        tree := m.tree.put l (.file (overwrite content offset bytes))
        channels := m.channels.setIfInBounds i (.file l (offset + bytes.length) append) }
    | none => return
  | some (.sink pieces) =>
    set { m with channels := m.channels.setIfInBounds i (.sink (text :: pieces)) }
  | _ => return

/-- Writes to a stream, unless it is closed. -/
def write (stream : Nat) (text : List Char) : Run Bool := do
  match (← get).streams.lookup stream with
  | some i =>
    if !text.isEmpty then writeChannel i text
    return true
  | none => return false

def say (text : List Char) : Run Unit := do let _ ← write 1 text

def sayText (text : String) : Run Unit := say text.toList

/-- Writes a line to the stream of errors. -/
def warn (text : String) : Run Unit := do let _ ← write 2 (text ++ "\n").toList

/-- What is left to read of a channel. -/
def channelRest (m : Machine) : Channel → List Char
  | .file l offset _ => ofBytes (((contentAt? m.tree l).getD []).drop offset)
  | .source text => text
  | .sink _ | .null => []

/-- A channel from which some bytes were read. -/
def Channel.advance (n : Nat) : Channel → Channel
  | .file l offset append => .file l (offset + n) append
  | .source text => .source (text.drop n)
  | c => c

/-- What is left to read of a stream. -/
def peekRest (stream : Nat) : Run (List Char) := do
  let m ← get
  match m.streams.lookup stream with
  | some i => return channelRest m (m.channels[i]?.getD .null)
  | none => return []

/-- Marks bytes of a stream as read. -/
def consume (stream n : Nat) : Run Unit := do
  let m ← get
  match m.streams.lookup stream with
  | some i => set { m with channels := m.channels.modify i (Channel.advance n) }
  | none => return

/-- Reads a stream to its end. -/
def readRest (stream : Nat) : Run (List Char) := do
  let text ← peekRest stream
  consume stream text.length
  return text

/-- Adds a channel. -/
def addChannel (c : Channel) : Run Nat := do
  let m ← get
  set { m with channels := m.channels.push c }
  return m.channels.size

/-- Connects a stream with a channel, or closes it. -/
def connect (stream : Nat) (channel? : Option Nat) : Run Unit :=
  modify fun m =>
    let others := m.streams.filter (·.1 ≠ stream)
    { m with streams := channel?.elim others fun i => (stream, i) :: others }

/-- What a sink has gathered. -/
def gathered (m : Machine) (i : Nat) : List Char :=
  match m.channels[i]? with
  | some (.sink pieces) => pieces.reverse.flatten
  | _ => []

/-! ## Errors -/

/-- Says what went wrong, with the place in the script. -/
def complain (message : String) : Run Unit := do
  let m ← get
  let command := if m.command.isEmpty then "" else m.command ++ ": "
  warn (m.name ++ ": " ++ toString m.line ++ ": " ++ command ++ message)

/-- Fails with a message. -/
def die (message : String) : Run α := do
  complain message
  setStatus 2
  throw .failure

/-- The message of a file error without its number. -/
def errorText : FileError → String
  | .notFound => "No such file or directory"
  | .notDirectory => "Not a directory"
  | .isDirectory => "Is a directory"
  | .nameTooLong => "File name too long"
  | .tooManyLinks => "Too many levels of symbolic links"
  | .nulInPath | .notText => "Invalid argument"

/-! ## Paths and files -/

/-- The directories in which commands are first searched for. -/
def systemPath : String := "/usr/local/sbin:/usr/local/bin:/usr/sbin:/usr/bin:/sbin:/bin"

/-- The path of the first working directory. -/
def basePath : String := "/work"

/-- An absolute path that leads into the first working directory, as seen from there. -/
def insideBase? (path : String) : Option String :=
  let base := basePath.toList
  match path.toList.drop base.length with
  | [] => if path = basePath then some "." else none
  | c :: rest =>
    if base.isPrefixOf path.toList ∧ c = '/' then some (String.ofList ('.' :: '/' :: rest))
    else none

/-- A path as seen from the first working directory. -/
def resolveFrom (here : Location) (path : ByteString) : String :=
  let path := path.toText
  let full :=
    if Path.isAbsolute path ∨ path.isEmpty ∨ here.isEmpty then path
    else if here = FileTree.systemRoot then "/" ++ path
    else
      let start := if here.head? = some "/" then "/" ++ String.intercalate "/" here.tail
        else String.intercalate "/" here
      Path.join start path
  (insideBase? full).getD full

def resolve (path : ByteString) : Run String := return resolveFrom (← get).here path

/-- Asks the file tree about a path. -/
def ask (question : FileTree → String → α) (path : ByteString) : Run α := do
  return question (← get).tree (← resolve path)

/-- Things that look like files. -/
inductive Device
  | null
  | stream (number : Nat)
  deriving DecidableEq

def device? (path : ByteString) : Option Device :=
  match path with
  | "/dev/null" => some .null
  | "/dev/stdin" => some (.stream 0)
  | "/dev/stdout" => some (.stream 1)
  | "/dev/stderr" => some (.stream 2)
  | _ =>
    match path.toList.drop "/dev/fd/".length with
    | [c] =>
      if c.isDigit ∧ "/dev/fd/".toList.isPrefixOf path.toList then
        some (.stream (c.toNat - '0'.toNat))
      else none
    | _ => none

/-- Directories that every system has. -/
def systemDirectories : List String :=
  ["/", "/bin", "/dev", "/etc", "/home", "/proc", "/root", "/sbin", "/sys", "/tmp", "/usr",
    "/usr/bin", "/usr/lib", "/usr/local", "/usr/local/bin", "/usr/local/sbin", "/usr/sbin",
    "/usr/share", "/var"]

/-- The content of a file. -/
def readFile (path : ByteString) : Run (Except FileError (List Char)) := do
  match device? path with
  | some .null => return .ok []
  | some (.stream n) => return .ok (← readRest n)
  | none => return (← ask FileTree.read path).map ofBytes

/-- Creates a file or replaces its content. -/
def writeFile (path : ByteString) (text : List Char) : Run (Except FileError Unit) := do
  match device? path with
  | some .null => return .ok ()
  | some (.stream n) =>
    let _ ← write n text
    return .ok ()
  | none =>
    match ← ask (fun t p => t.write p (toBytes text)) path with
    | .ok tree =>
      modify fun m => { m with tree := tree }
      return .ok ()
    | .error e => return .error e

def setTree (t : FileTree) : Run Unit := modify fun m => { m with tree := t }

/-- Opens a file as a channel. -/
def openFile (mode : Mode) (path : ByteString) : Run (Except FileError Nat) := do
  match device? path with
  | some .null => return .ok (← addChannel .null)
  | some (.stream n) =>
    match (← get).streams.lookup n with
    | some i => return .ok i
    | none => return .error .notFound
  | none =>
    let m ← get
    let full ← resolve path
    match mode with
    | .read =>
      match m.tree.locate full with
      | .ok l =>
        if m.tree.isDirectory l then return .ok (← addChannel .null)
        else return .ok (← addChannel (.file l 0 false))
      | .error e => return .error e
    | _ =>
      match m.tree.destination full with
      | .error e => return .error e
      | .ok l =>
        if (contentAt? m.tree l).isNone ∨ mode = .write ∨ mode = .replace then
          setTree (m.tree.put l (.file []))
        return .ok (← addChannel (.file l 0 (mode = .append)))

/-! ## Variables -/

def variableValue? (name : String) : Run (Option ByteString) := do
  return ((← get).bindings.get? name).bind Variable.value?

/-- Sets a variable, unless it must not be changed. -/
def assign (name : String) (value : ByteString) : Run Unit := do
  let m ← get
  let old := (m.bindings.get? name).getD { value? := none }
  if old.readonly then die (name ++ ": is read only")
  else
    let exported := old.exported || m.switches.contains 'a'
    let m := { m with
      bindings := m.bindings.insert name { old with value? := some value, exported := exported } }
    if name = "OPTIND" then
      set { m with
        optionIndex := Arithmetic.numeral 10 (value.toList.takeWhile Char.isDigit)
        optionOffset := 0 }
    else if name = "PATH" then set { m with found := [] }
    else set m

/-- The variables that commands see. -/
def environment (m : Machine) : List (String × ByteString) :=
  m.bindings.entries.filterMap fun (name, v) =>
    if v.exported then v.value?.map (name, ·) else none

/-- The characters that separate fields. -/
def separators : Run (List Char) := do
  return ((← variableValue? "IFS").getD " \t\n").toList

end LayoutShell.Host
