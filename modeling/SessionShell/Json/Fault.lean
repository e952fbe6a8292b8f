import SessionShell.Text.Quoted
import SessionShell.Decimal.Layout

namespace SessionShell.Json

open Text.Utf8 (Bytes)
open Decimal (Binary64)

/-- What a value is, as far as a complaint about its type says. -/
inductive Shape
  | null
  | boolean (b : Bool)
  | integer (n : Int)
  | float (x : Binary64)
  | string (s : String)
  | sequence
  | map

def Shape.text : Shape → String
  | null => "null"
  | boolean b => "boolean `" ++ (if b then "true" else "false") ++ "`"
  | integer n => "integer `" ++ Int.repr n ++ "`"
  | float x => "floating point `" ++ x.text .document ++ "`"
  | string s => "string " ++ Text.quote s
  | sequence => "sequence"
  | map => "map"

inductive Reason
  | endInValue
  | endInObject
  | endInList
  | endInString
  | valueExpected
  | keyExpected
  | colonExpected
  | commaOrBraceExpected
  | commaOrBracketExpected
  | wordExpected
  | trailingComma
  | trailingCharacters
  | invalidEscape
  | loneSurrogate
  | surrogateWithoutPair
  | controlCharacter
  | invalidNumber
  | numberOutOfRange
  | wrongType (found : Shape) (wanted : String)
  | duplicateField (name : String)
  | missingField (name : String)
  /-- A record written as an array stops before a field that it needs. -/
  | tooShort (given : Nat) (record : String) (fields : Nat)

def Reason.text : Reason → String
  | endInValue => "EOF while parsing a value"
  | endInObject => "EOF while parsing an object"
  | endInList => "EOF while parsing a list"
  | endInString => "EOF while parsing a string"
  | valueExpected => "expected value"
  | keyExpected => "key must be a string"
  | colonExpected => "expected `:`"
  | commaOrBraceExpected => "expected `,` or `\x7d`"
  | commaOrBracketExpected => "expected `,` or `]`"
  | wordExpected => "expected ident"
  | trailingComma => "trailing comma"
  | trailingCharacters => "trailing characters"
  | invalidEscape => "invalid escape"
  | loneSurrogate => "lone leading surrogate in hex escape"
  | surrogateWithoutPair => "unexpected end of hex escape"
  | controlCharacter => "control character (\\u0000-\\u001F) found while parsing a string"
  | invalidNumber => "invalid number"
  | numberOutOfRange => "number out of range"
  | wrongType found wanted => "invalid type: " ++ found.text ++ ", expected " ++ wanted
  | duplicateField name => "duplicate field `" ++ name ++ "`"
  | missingField name => "missing field `" ++ name ++ "`"
  | tooShort given record fields =>
    "invalid length " ++ Nat.repr given ++ ", expected struct " ++ record ++ " with " ++
      Nat.repr fields ++ " elements"

/-- A reason, and the bytes after the place where the fault lies. -/
structure Fault where
  reason : Reason
  rest : Bytes

/-- Reads a value off the front of a text and returns what follows it. -/
abbrev Reader (α : Type) := Bytes → Except Fault (α × Bytes)

/-- A fault behind everything read so far. -/
def failAt {α : Type} (reason : Reason) (rest : Bytes) : Except Fault α :=
  .error ⟨reason, rest⟩

/-- A fault at the next byte, which counts as read if there is one. -/
def failNext {α : Type} (reason : Reason) (rest : Bytes) : Except Fault α :=
  .error ⟨reason, rest.drop 1⟩

/-- The line and the column at the end of the bytes read. -/
def place (read : Bytes) : Nat × Nat :=
  (1 + read.count 0x0a, (read.reverse.takeWhile (· ≠ 0x0a)).length)

def Fault.message (f : Fault) (text : Bytes) : String :=
  let (line, column) := place (text.take (text.length - f.rest.length))
  f.reason.text ++ " at line " ++ Nat.repr line ++ " column " ++ Nat.repr column

/-- The character that a byte of ASCII stands for. -/
def glyph (b : UInt8) : Char := Char.ofNat b.toNat

def isBlank (b : UInt8) : Bool := b = 0x20 || b = 0x09 || b = 0x0a || b = 0x0d

def skipBlanks (text : Bytes) : Bytes := text.dropWhile isBlank

def isDigit (b : UInt8) : Bool := 0x30 ≤ b && b ≤ 0x39

/-- Reads the rest of `true`, `false` or `null`. -/
def restOfWord : List Char → Bytes → Except Fault Bytes
  | [], rest => .ok rest
  | _ :: _, [] => failAt .endInValue []
  | c :: cs, b :: rest => if glyph b = c then restOfWord cs rest else failAt .wordExpected rest

end SessionShell.Json
