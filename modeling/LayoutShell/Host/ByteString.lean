import LayoutShell.Text.Utf8

/-!
# Byte strings

The host works on bytes. Its texts are written as strings whose characters are the bytes by their
numbers, so each character stands for one byte.

* `ofBytes` and `toBytes` change between bytes and their characters.
* `ByteString.ofText` gives the bytes of a text, and `ByteString.toText` the text that bytes spell.
-/

namespace LayoutShell.Host

/-- A string whose characters stand for bytes. -/
abbrev ByteString := String

/-- The characters that stand for bytes. -/
def ofBytes (bytes : List UInt8) : List Char := bytes.map fun b => Char.ofNat b.toNat

/-- The bytes that characters stand for. -/
def toBytes (s : List Char) : List UInt8 := s.map fun c => c.toNat.toUInt8

namespace ByteString

/-- The bytes of a text. -/
def ofText (text : String) : ByteString := String.ofList (ofBytes (Text.encode text.toList))

/-- The text that bytes spell; bytes that are no text stand for themselves. -/
def toText (s : ByteString) : String :=
  String.ofList ((Text.decode (toBytes s.toList)).getD s.toList)

end ByteString

/-- The lines of a text, without their line feeds. -/
def linesOf (s : List Char) : List (List Char) :=
  let lines := s.splitOn '\n'
  if lines.getLast? = some [] then lines.dropLast else lines

/-- Lines put together, each with a line feed. -/
def unlines (lines : List (List Char)) : List Char := lines.flatMap (· ++ ['\n'])

end LayoutShell.Host
