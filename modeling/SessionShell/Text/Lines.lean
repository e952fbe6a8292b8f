import SessionShell.Text.Blank
import SessionShell.Text.Utf8

namespace SessionShell.Text

open Utf8 (Bytes)

def newline : UInt8 := 0x0a

/-- The bytes between newlines; a stream that ends in one has no further line. -/
def byteLines (stream : Bytes) : List Bytes :=
  let parts := stream.splitOn newline
  if parts.getLast? = some [] then parts.dropLast else parts

def lineText (line : Bytes) : String :=
  String.ofList (dropTrailing (· = '\r') (Utf8.decodeLossy line))

def lines (stream : Bytes) : List String := (byteLines stream).map lineText

end SessionShell.Text
